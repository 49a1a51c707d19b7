import SiphonRtp.Machine.Runs
import SiphonRtp.Machine.Utf8
import SiphonRtp.Media.Red

/-!
# The text mixer

`siphon-rtp-media/src/text_mixer.rs`: the text of each participant of a room queues up until the
next flush, which makes one generation of it and sends that to everyone else, with up to two earlier
generations as redundancy. A queue holds 300 octets; what comes after pushes the oldest octets out,
wherever that cuts them.

`isWhole_queue_iff` is one push: the queue stays a whole number of characters exactly where the cut
does not fall inside one.
-/

set_option autoImplicit false

namespace SiphonRtp.Media

open Machine

def maxTextParticipants : ℕ := 64

def maxTextRedundancy : ℕ := 2

def maxPendingTextBytes : ℕ := 300

structure TextSourceConfig where
  sourceId : UInt32
  t140PayloadType : UInt8
  redPayloadType : Option UInt8
deriving DecidableEq

/-- A generation that was sent. -/
structure Generation where
  timestamp : UInt32
  data : Bytes
deriving DecidableEq

structure TextSource where
  /-- None for a participant without a text leg. -/
  config : Option TextSourceConfig
  pending : Bytes
  /-- The valid entries of the ring, the oldest first. -/
  generations : List Generation
  activeLastFlush : Bool
deriving DecidableEq

/-- `TextSource::new`. -/
def TextSource.new (config : Option TextSourceConfig) : TextSource where
  config
  pending := []
  generations := []
  activeLastFlush := false

/-- A packet to be sent, with its payload. -/
structure TextEmit where
  receiver : ℕ
  sourceCsrc : UInt32
  payloadType : UInt8
  timestamp : UInt32
  marker : Bool
  payload : Bytes
deriving DecidableEq

structure TextMixer where
  sources : List TextSource
  flushIntervalMs : UInt32
deriving DecidableEq

namespace TextSource

variable (source : TextSource)

/-- The rest of `push_text` for a participant with a text leg: the octets join the queue. -/
def queue (bytes : Bytes) : TextSource :=
  let incoming :=
    if maxPendingTextBytes < bytes.length then bytes.drop (bytes.length - maxPendingTextBytes)
    else bytes
  let overflow := source.pending.length + incoming.length - maxPendingTextBytes
  { source with pending := source.pending.drop overflow ++ incoming }

/-- `build_red`. -/
def buildRed (t140PayloadType : UInt8) (now : UInt32) : Bytes :=
  let builder : RedBuilder := {
    primaryPayloadType := t140PayloadType
    primaryRtpTimestamp := now
    primaryData := source.pending
    redundant := source.generations.map fun generation ↦
      ⟨t140PayloadType, generation.timestamp, generation.data⟩ }
  match builder.writeInto with
  | .ok payload => payload
  | .error _ =>
    match { builder with redundant := [] }.writeInto with
    | .ok payload => payload
    | .error _ => []

/-- `build_payload`: the payload type and the payload. -/
def buildPayload (receiver : TextSourceConfig) (now : UInt32) : UInt8 × Bytes :=
  match receiver.redPayloadType with
  | some redPayloadType => (redPayloadType, source.buildRed receiver.t140PayloadType now)
  | none => (receiver.t140PayloadType, source.pending)

/-- `advance_generation`. -/
def advanceGeneration (now : UInt32) : TextSource :=
  let kept :=
    if source.generations.length < maxTextRedundancy then source.generations
    else source.generations.drop 1
  { source with
    generations := kept ++ [⟨now, source.pending⟩]
    pending := []
    activeLastFlush := true }

end TextSource

namespace TextMixer

variable (mixer : TextMixer)

/-- `TextMixer::new`. -/
def new (flushIntervalMs : UInt32) : TextMixer where
  sources := []
  flushIntervalMs := max flushIntervalMs 1

/-- `add_participant`. -/
def addParticipant (config : Option TextSourceConfig) : Bool × TextMixer :=
  if maxTextParticipants ≤ mixer.sources.length then (false, mixer)
  else (true, { mixer with sources := mixer.sources ++ [.new config] })

/-- `push_text`. -/
def pushText (index : ℕ) (text : List Char) : TextMixer :=
  match mixer.sources[index]? with
  | none => mixer
  | some source =>
    if source.config = none ∨ encodeUtf8 text = [] then mixer
    else { mixer with sources := mixer.sources.set index (source.queue (encodeUtf8 text)) }

/-- One packet of a flush, to a participant with a text leg that is not the source itself. -/
def emitTo (source : TextSource) (config : TextSourceConfig) (index : ℕ) (now : UInt32)
    (receiver : TextSource × ℕ) : Option TextEmit :=
  if receiver.2 = index then none
  else
    receiver.1.config.map fun receiverConfig ↦
      let built := source.buildPayload receiverConfig now
      { receiver := receiver.2
        sourceCsrc := config.sourceId
        payloadType := built.1
        timestamp := now
        marker := !source.activeLastFlush
        payload := built.2 }

/-- One turn of the loop of `flush`: what a source sends, and the source after it. -/
def flushSource (now : UInt32) (source : TextSource) (index : ℕ) : List TextEmit × TextSource :=
  match source.config with
  | none => ([], source)
  | some config =>
    if source.pending = [] then
      ([], { source with generations := [], activeLastFlush := false })
    else
      (mixer.sources.zipIdx.filterMap (emitTo source config index now),
        source.advanceGeneration now)

/-- `flush`: the packets, and the mixer after it. -/
def flush (flushCounter : UInt64) : List TextEmit × TextMixer :=
  let now := (flushCounter * mixer.flushIntervalMs.toUInt64).toUInt32
  let flushed := mixer.sources.zipIdx.map fun source ↦ mixer.flushSource now source.1 source.2
  (flushed.flatMap (·.1), { mixer with sources := flushed.map (·.2) })

end TextMixer

/-- A call of the mixer. -/
inductive TextCall
  | push (index : ℕ) (text : List Char)
  | flush (flushCounter : UInt64)

def TextMixer.step (mixer : TextMixer) : TextCall → List TextEmit × TextMixer
  | .push index text => ([], mixer.pushText index text)
  | .flush flushCounter => mixer.flush flushCounter

/-- A mixer with participants. -/
def TextMixer.seated (flushIntervalMs : UInt32) (configs : List (Option TextSourceConfig)) :
    TextMixer :=
  configs.foldl (fun mixer config ↦ (mixer.addParticipant config).2) (.new flushIntervalMs)

/-! ### One push -/

namespace TextSource

/-- What is left in the queue are the newest octets. -/
theorem pending_queue (source : TextSource) (bytes : Bytes) :
    (source.queue bytes).pending = (source.pending ++ bytes).drop
      ((source.pending ++ bytes).length - maxPendingTextBytes) := by
  unfold queue
  dsimp only
  rw [List.length_append]
  split_ifs with hlong
  · have hgone {count : ℕ} (hcount : source.pending.length ≤ count) :
        source.pending.drop count = [] := List.drop_of_length_le hcount
    rw [List.length_drop, hgone (by omega), List.drop_append, hgone (by omega), List.nil_append]
    exact congrArg (bytes.drop ·) (by omega)
  · have hnone : source.pending.length + bytes.length - maxPendingTextBytes -
        source.pending.length = 0 := by omega
    rw [List.drop_append, hnone, List.drop_zero]

theorem config_queue (source : TextSource) (bytes : Bytes) :
    (source.queue bytes).config = source.config := by
  simp only [queue]

theorem generations_queue (source : TextSource) (bytes : Bytes) :
    (source.queue bytes).generations = source.generations := by
  simp only [queue]

theorem length_pending_queue (source : TextSource) (bytes : Bytes) :
    (source.queue bytes).pending.length ≤ maxPendingTextBytes := by
  rw [pending_queue, List.length_drop]
  omega

/-- The cut that a full queue makes before octets are added to it does not fall inside a
character. -/
def CutsBetween (source : TextSource) (bytes : Bytes) : Prop :=
  maxPendingTextBytes < (source.pending ++ bytes).length →
    ¬ IsContinuation (octet (source.pending ++ bytes)
      ((source.pending ++ bytes).length - maxPendingTextBytes))

theorem isWhole_queue_iff {source : TextSource} (hwhole : IsWhole source.pending)
    (text : List Char) :
    IsWhole (source.queue (encodeUtf8 text)).pending ↔ source.CutsBetween (encodeUtf8 text) := by
  obtain ⟨queued, hqueued⟩ := hwhole
  rw [pending_queue, CutsBetween, hqueued, ← encodeUtf8_append]
  rcases Nat.lt_or_ge maxPendingTextBytes (encodeUtf8 (queued ++ text)).length with hfull | hroom
  · have hpos : 0 < maxPendingTextBytes := by decide
    rw [isWhole_drop_iff _ (by omega)]
    exact ⟨fun h _ ↦ h, fun h ↦ h hfull⟩
  · rw [Nat.sub_eq_zero_of_le hroom]
    exact ⟨fun _ hfull ↦ absurd hfull (Nat.not_lt.mpr hroom), fun _ ↦ ⟨_, rfl⟩⟩

/-- Octets within the limit. -/
def Fits (bytes : Bytes) : Prop := bytes.length ≤ maxPendingTextBytes

/-- Something holds of the queue and of the generations of a source. -/
structure Every (Holds : Bytes → Prop) (source : TextSource) : Prop where
  pending : Holds source.pending
  generations : ∀ generation ∈ source.generations, Holds generation.data

variable {Holds : Bytes → Prop} {source : TextSource}

theorem every_new (hnil : Holds []) (config : Option TextSourceConfig) :
    (TextSource.new config).Every Holds :=
  ⟨hnil, fun _ hmem ↦ absurd hmem List.not_mem_nil⟩

theorem Every.queue {bytes : Bytes} (hevery : source.Every Holds)
    (hqueue : Holds (source.queue bytes).pending) : (source.queue bytes).Every Holds := by
  refine ⟨hqueue, ?_⟩
  rw [source.generations_queue]
  exact hevery.generations

theorem Every.advanceGeneration (hevery : source.Every Holds) (hnil : Holds []) (now : UInt32) :
    (source.advanceGeneration now).Every Holds := by
  refine ⟨hnil, fun generation hmem ↦ ?_⟩
  rcases List.mem_append.mp hmem with hkept | hnew
  · split_ifs at hkept
    · exact hevery.generations generation hkept
    · exact hevery.generations generation (List.mem_of_mem_drop hkept)
  · rw [List.mem_singleton.mp hnew]
    exact hevery.pending

end TextSource

/-- What a flush makes of a source: nothing without a text leg, an end of its history when it is
idle, and otherwise the next generation. -/
theorem TextMixer.flushSource_cases (mixer : TextMixer) (now : UInt32) (source : TextSource)
    (index : ℕ) :
    source.config = none ∧ (mixer.flushSource now source index).2 = source ∨
      source.pending = [] ∧ (mixer.flushSource now source index).2 =
        { source with generations := [], activeLastFlush := false } ∨
      (mixer.flushSource now source index).2 = source.advanceGeneration now := by
  unfold flushSource
  split
  next hconfig => exact .inl ⟨hconfig, rfl⟩
  next config hconfig =>
    split_ifs with hidle
    · exact .inr (.inl ⟨hidle, rfl⟩)
    · exact .inr (.inr rfl)

namespace TextMixer

variable {mixer : TextMixer}

/-- A flush goes through the sources one by one. -/
theorem getElem?_flush (flushCounter : UInt64) (index : ℕ) :
    (mixer.flush flushCounter).2.sources[index]? = mixer.sources[index]?.map fun source ↦
      (mixer.flushSource (flushCounter * mixer.flushIntervalMs.toUInt64).toUInt32
        source index).2 := by
  simp [flush, Function.comp_def]

theorem every_flush {Holds : Bytes → Prop} (hevery : ∀ source ∈ mixer.sources, source.Every Holds)
    (hnil : Holds []) (flushCounter : UInt64) :
    ∀ source ∈ (mixer.flush flushCounter).2.sources, source.Every Holds := by
  intro after hafter
  obtain ⟨index, hindex⟩ := List.mem_iff_getElem?.mp hafter
  rw [getElem?_flush, Option.map_eq_some_iff] at hindex
  obtain ⟨source, hsource, rfl⟩ := hindex
  have hbefore := hevery source (List.mem_of_getElem? hsource)
  rcases mixer.flushSource_cases _ source index with ⟨-, hsame⟩ | ⟨-, hidled⟩ | hadvanced
  · rwa [hsame]
  · rw [hidled]
    exact ⟨hbefore.pending, fun _ hmem ↦ absurd hmem List.not_mem_nil⟩
  · rw [hadvanced]
    exact hbefore.advanceGeneration hnil _

/-- A push changes nothing, or puts the text in the queue of its source. -/
theorem pushText_cases (mixer : TextMixer) (index : ℕ) (text : List Char) :
    mixer.pushText index text = mixer ∧
        (∀ source, mixer.sources[index]? = some source →
          source.config = none ∨ encodeUtf8 text = []) ∨
      ∃ source, mixer.sources[index]? = some source ∧ source.config ≠ none ∧
        (mixer.pushText index text).sources =
          mixer.sources.set index (source.queue (encodeUtf8 text)) := by
  unfold pushText
  split
  next hnone => exact .inl ⟨rfl, fun source hsource ↦ by rw [hnone] at hsource; cases hsource⟩
  next source hsource =>
    split_ifs with hidle
    · refine .inl ⟨rfl, fun other hother ↦ ?_⟩
      rw [hsource] at hother
      cases hother
      exact hidle
    · push Not at hidle
      exact .inr ⟨source, hsource, hidle.1, rfl⟩

/-- The cut that a call makes does not fall inside a character. -/
def CutsBetween (mixer : TextMixer) : TextCall → Prop
  | .push index text => ∀ source, mixer.sources[index]? = some source → source.config ≠ none →
      source.CutsBetween (encodeUtf8 text)
  | .flush _ => True

theorem fits_step (hfits : ∀ source ∈ mixer.sources, source.Every TextSource.Fits)
    (call : TextCall) : ∀ source ∈ (mixer.step call).2.sources, source.Every TextSource.Fits := by
  cases call with
  | push index text =>
    rcases mixer.pushText_cases index text with ⟨hsame, -⟩ | ⟨source, hsource, -, hpushed⟩
    · rwa [step, hsame]
    · intro after hafter
      rw [step, hpushed] at hafter
      rcases List.mem_or_eq_of_mem_set hafter with hold | rfl
      · exact hfits after hold
      · exact (hfits source (List.mem_of_getElem? hsource)).queue (source.length_pending_queue _)
  | flush flushCounter => exact every_flush hfits (Nat.zero_le _) flushCounter

/-- One call keeps the mixer whole exactly if its cut does not fall inside a character. -/
theorem whole_step_iff (hfits : ∀ source ∈ mixer.sources, source.Every TextSource.Fits)
    (hwhole : ∀ source ∈ mixer.sources, source.Every IsWhole) (call : TextCall) :
    (∀ source ∈ (mixer.step call).2.sources, source.Every IsWhole) ↔ mixer.CutsBetween call := by
  cases call with
  | push index text =>
    rcases mixer.pushText_cases index text with ⟨hsame, hidle⟩ | ⟨source, hsource, hleg, hpushed⟩
    · rw [step, hsame]
      refine ⟨fun _ source hsource hleg hfull ↦ ?_, fun _ ↦ hwhole⟩
      rw [(hidle source hsource).resolve_left hleg, List.append_nil] at hfull
      exact absurd hfull (Nat.not_lt.mpr (hfits source (List.mem_of_getElem? hsource)).pending)
    · have hbefore := hwhole source (List.mem_of_getElem? hsource)
      have hlt := (List.getElem?_eq_some_iff.mp hsource).1
      have hcuts : mixer.CutsBetween (.push index text) ↔
          source.CutsBetween (encodeUtf8 text) := by
        refine ⟨fun h ↦ h source hsource hleg, fun h other hother _ ↦ ?_⟩
        rw [hsource] at hother
        cases hother
        exact h
      rw [step, hpushed, hcuts, ← TextSource.isWhole_queue_iff hbefore.pending]
      refine ⟨fun h ↦ (h _ (List.mem_set hlt _)).pending, fun h after hafter ↦ ?_⟩
      rcases List.mem_or_eq_of_mem_set hafter with hold | rfl
      · exact hwhole after hold
      · exact hbefore.queue h
  | flush flushCounter =>
    exact iff_of_true (every_flush hwhole ⟨[], rfl⟩ flushCounter) trivial

/-- A packet that is sent carries the queue of a source, and its generations. -/
theorem payload_of_emitted {call : TextCall} {emit : TextEmit}
    (hemit : emit ∈ (mixer.step call).1) :
    ∃ source ∈ mixer.sources, ∃ receiver now,
      (emit.payloadType, emit.payload) = source.buildPayload receiver now := by
  cases call with
  | push index text => exact absurd hemit List.not_mem_nil
  | flush flushCounter =>
    obtain ⟨flushed, hflushed, hin⟩ := List.mem_flatMap.mp hemit
    obtain ⟨⟨source, index⟩, hsource, rfl⟩ := List.mem_map.mp hflushed
    refine ⟨source, (List.mem_zipIdx hsource).2.2 ▸ List.getElem_mem _, ?_⟩
    unfold flushSource at hin
    split at hin
    · exact absurd hin List.not_mem_nil
    · split_ifs at hin
      · exact absurd hin List.not_mem_nil
      · obtain ⟨receiver, -, hsent⟩ := List.mem_filterMap.mp hin
        unfold emitTo at hsent
        split_ifs at hsent
        obtain ⟨config, -, rfl⟩ := Option.map_eq_some_iff.mp hsent
        exact ⟨config, _, rfl⟩

end TextMixer

/-! ### Runs -/

/-- The text pushed to a participant since the last flush, with one more call. -/
def typedStep (index : ℕ) (typed : List Char) : TextCall → List Char
  | .push target text => if target = index then typed ++ text else typed
  | .flush _ => []

def typed (index : ℕ) (calls : List TextCall) : List Char := calls.foldl (typedStep index) []

/-- What is queued is the end of what was typed, and nothing without a text leg. -/
structure TextSource.Queues (text : List Char) (source : TextSource) : Prop where
  suffix : source.pending <:+ encodeUtf8 text
  silent : source.config = none → source.pending = []

theorem TextMixer.queues_step {mixer : TextMixer} {index : ℕ} {text : List Char}
    (hqueues : ∀ source, mixer.sources[index]? = some source → source.Queues text)
    (call : TextCall) (source : TextSource)
    (hsource : (mixer.step call).2.sources[index]? = some source) :
    source.Queues (typedStep index text call) := by
  cases call with
  | push target pushed =>
    rcases mixer.pushText_cases target pushed with ⟨hsame, hidle⟩ | ⟨before, hbefore, hleg, hpushed⟩
    · rw [step, hsame] at hsource
      obtain ⟨hsuffix, hsilent⟩ := hqueues source hsource
      refine ⟨?_, hsilent⟩
      rw [typedStep]
      split_ifs with htarget
      · rcases hidle source (htarget ▸ hsource) with hnone | hempty
        · rw [hsilent hnone]
          exact List.nil_suffix
        · rwa [encodeUtf8_append, hempty, List.append_nil]
      · exact hsuffix
    · rw [step, hpushed] at hsource
      rw [typedStep]
      split_ifs with htarget
      · subst htarget
        rw [List.getElem?_set_self (List.getElem?_eq_some_iff.mp hbefore).1] at hsource
        obtain rfl := Option.some.inj hsource
        refine ⟨?_, fun hnone ↦ absurd (before.config_queue _ ▸ hnone) hleg⟩
        rw [TextSource.pending_queue, encodeUtf8_append]
        obtain ⟨front, hfront⟩ := (hqueues before hbefore).suffix
        rw [← hfront, List.append_assoc]
        exact (List.drop_suffix _ _).trans (List.suffix_append _ _)
      · rw [List.getElem?_set_ne htarget] at hsource
        exact hqueues source hsource
  | flush flushCounter =>
    rw [step, getElem?_flush, Option.map_eq_some_iff] at hsource
    obtain ⟨before, hbefore, rfl⟩ := hsource
    have hsilent := (hqueues before hbefore).silent
    rcases mixer.flushSource_cases _ before index with ⟨hnone, hsame⟩ | ⟨hempty, hidled⟩ | hadvanced
    · rw [hsame]
      exact ⟨hsilent hnone ▸ List.nil_suffix, hsilent⟩
    · rw [hidled]
      exact ⟨hempty ▸ List.nil_suffix, hsilent⟩
    · rw [hadvanced]
      exact ⟨List.nil_suffix, fun _ ↦ rfl⟩

section Run

variable (flushIntervalMs : UInt32) (configs : List (Option TextSourceConfig))
  (calls : List TextCall)

/-- The mixer before call number `k`. -/
def mixerAt (k : ℕ) : TextMixer :=
  final TextMixer.step (.seated flushIntervalMs configs) (calls.take k)

theorem mem_seated {source : TextSource}
    (hsource : source ∈ (TextMixer.seated flushIntervalMs configs).sources) :
    source = .new source.config := by
  unfold TextMixer.seated at hsource
  have hstart : ∀ other ∈ (TextMixer.new flushIntervalMs).sources, other = .new other.config :=
    fun _ h ↦ absurd h List.not_mem_nil
  generalize TextMixer.new flushIntervalMs = mixer at hsource hstart
  induction configs generalizing mixer with
  | nil => exact hstart source hsource
  | cons config configs ih =>
    refine ih _ hsource fun other hother ↦ ?_
    dsimp only [TextMixer.addParticipant] at hother
    split at hother
    · exact hstart other hother
    · rcases List.mem_append.mp hother with hold | hnew
      · exact hstart other hold
      · rw [List.mem_singleton.mp hnew]
        rfl

theorem fits_mixerAt {k : ℕ} (hk : k ≤ calls.length) :
    ∀ source ∈ (mixerAt flushIntervalMs configs calls k).sources, source.Every TextSource.Fits := by
  refine final_take_induction
    (fun _ (mixer : TextMixer) ↦ ∀ source ∈ mixer.sources, source.Every TextSource.Fits)
    (fun source hsource ↦ ?_) (fun k call _ hfits ↦ TextMixer.fits_step hfits call) hk
  rw [mem_seated _ _ hsource]
  exact TextSource.every_new (Nat.zero_le _) _

theorem queues_mixerAt {k : ℕ} (hk : k ≤ calls.length) (index : ℕ) (source : TextSource)
    (hsource : (mixerAt flushIntervalMs configs calls k).sources[index]? = some source) :
    source.Queues (typed index (calls.take k)) := by
  refine final_take_induction (fun k (mixer : TextMixer) ↦ ∀ source : TextSource,
    mixer.sources[index]? = some source → source.Queues (typed index (calls.take k)))
    (fun source hsource ↦ ?_) (fun k call hcall hqueues source hsource ↦ ?_) hk source hsource
  · rw [mem_seated _ _ (List.mem_of_getElem? hsource)]
    exact ⟨List.nil_suffix, fun _ ↦ rfl⟩
  · rw [List.take_add_one, hcall, typed, List.foldl_append]
    exact TextMixer.queues_step hqueues call source hsource

/-- In every run the queues and generations stay within the limit, what is sent is made of them, and
what is queued is the end of what was typed since the last flush. They are whole numbers of
characters throughout exactly if no push cuts a full queue inside a character. -/
theorem text_stays_whole_iff :
    (∀ k ≤ calls.length,
      (∀ source ∈ (mixerAt flushIntervalMs configs calls k).sources, source.Every TextSource.Fits) ∧
      (∀ index source,
        (mixerAt flushIntervalMs configs calls k).sources[index]? = some source →
          source.pending <:+ encodeUtf8 (typed index (calls.take k))) ∧
      ∀ call, calls[k]? = some call →
        ∀ emit ∈ ((mixerAt flushIntervalMs configs calls k).step call).1,
          ∃ source ∈ (mixerAt flushIntervalMs configs calls k).sources, ∃ receiver now,
            (emit.payloadType, emit.payload) = source.buildPayload receiver now) ∧
    ((∀ k ≤ calls.length,
        ∀ source ∈ (mixerAt flushIntervalMs configs calls k).sources, source.Every IsWhole) ↔
      ∀ k call, calls[k]? = some call →
        (mixerAt flushIntervalMs configs calls k).CutsBetween call) := by
  refine ⟨fun k hk ↦ ⟨fits_mixerAt _ _ _ hk, fun index source hsource ↦ ?_, ?_⟩, ?_, ?_⟩
  · exact (queues_mixerAt _ _ _ hk index source hsource).suffix
  · exact fun call _ emit hemit ↦ TextMixer.payload_of_emitted hemit
  · intro hwhole k call hcall
    have hlt := (List.getElem?_eq_some_iff.mp hcall).1
    have hnext := hwhole (k + 1) hlt
    unfold mixerAt at hnext
    rw [final_take_succ _ hcall] at hnext
    exact (TextMixer.whole_step_iff (fits_mixerAt _ _ _ hlt.le) (hwhole k hlt.le) call).mp hnext
  · intro hcuts k hk
    refine final_take_induction
      (fun _ (mixer : TextMixer) ↦ ∀ source ∈ mixer.sources, source.Every IsWhole)
      (fun source hsource ↦ ?_) (fun k call hcall hwhole ↦ ?_) hk
    · rw [mem_seated _ _ hsource]
      exact TextSource.every_new ⟨[], rfl⟩ _
    · have hlt := (List.getElem?_eq_some_iff.mp hcall).1
      exact (TextMixer.whole_step_iff (fits_mixerAt _ _ _ hlt.le) hwhole call).mpr
        (hcuts k call hcall)

end Run

/-- A room of two with text, and a text of 303 octets pushed by the first of them: 151 times the
letter é, and one letter of one octet. -/
def pastedText : TextCall := .push 0 (List.replicate 151 'é' ++ ['a'])

def textRoom : List (Option TextSourceConfig) := [some ⟨1, 98, some 99⟩, some ⟨2, 98, some 99⟩]

/-- The 300 octets that are kept begin inside a character. -/
theorem paste_cuts_a_character :
    ¬ ∀ k ≤ [pastedText].length,
      ∀ source ∈ (mixerAt 300 textRoom [pastedText] k).sources, source.Every IsWhole := by
  intro hwhole
  have hqueued := hwhole 1 le_rfl (TextSource.queue (.new (some ⟨1, 98, some 99⟩))
    (encodeUtf8 (List.replicate 151 'é' ++ ['a']))) (by decide +kernel)
  have hcuts := (TextSource.isWhole_queue_iff ⟨[], rfl⟩ _).mp hqueued.pending
  exact absurd (hcuts (by decide +kernel)) (by decide +kernel)

end SiphonRtp.Media
