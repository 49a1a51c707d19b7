import SiphonRtp.Machine.Octets
import SiphonRtp.Machine.Runs

/-!
# The downlink of a WebSocket bridge

`BridgeCore` of `siphon-rtp-media/src/bridge/audio.rs`, as far as the audio towards the call goes:
what binary messages bring in (`onWsBinary`) and what the ticks render (`tick`,
`takeDownlinkPcm`). Whether the caller is speaking in a tick is decided from the uplink by the
detector, the run gate and the echo canceller, and is an input of the tick; comfort noise comes from
a generator, of which only the lengths are known.

`Passes` says in the queue's own terms what one event does: what comes in, what leaves at the front
and why, and what is rendered. The queue is dropped as a whole only where a caller who was silent
starts to speak, on a leg with barge-in (`bargesIn`).
-/

set_option autoImplicit false

namespace SiphonRtp.Media.Downlink

open Machine

/-- `frame_samples_for`: one packet time at the wire rate. -/
def frameSamplesFor (sampleRate ptime : ℕ) : ℕ := max (max sampleRate 8000 * max ptime 1 / 1000) 1

/-- `i16::from_le_bytes`. -/
def fromLeBytes (low high : UInt8) : Int16 := (high.toUInt16 <<< 8 ||| low.toUInt16).toInt16

/-- `l16_le_to_pcm`, into a buffer of any size. -/
def l16LeToPcm : Bytes → List Int16
  | low :: high :: rest => fromLeBytes low high :: l16LeToPcm rest
  | _ => []

variable {σ : Type}

structure BridgeCore (σ : Type) where
  frameSamples : ℕ
  playoutCapSamples : ℕ
  playout : List Int16
  comfort : Option σ
  bargeIn : Bool
  speaking : Bool
  downlink : List Int16
  downlinkReady : Bool

/-- `BridgeCore::new`, with its comfort noise and its turn taking. -/
def BridgeCore.new (frameSamples playoutCap : ℕ) (comfort : Option σ) (bargeIn : Bool) :
    BridgeCore σ where
  frameSamples
  playoutCapSamples := max playoutCap 1 * frameSamples
  playout := []
  comfort
  bargeIn
  speaking := false
  downlink := List.replicate frameSamples 0
  downlinkReady := false

namespace BridgeCore

/-- The samples of a message, decoded one packet time at a time. -/
def decodeChunks (frameSamples : ℕ) (bytes : Bytes) : List Int16 :=
  if _hnone : bytes = [] ∨ frameSamples = 0 then []
  else
    (l16LeToPcm (bytes.take (2 * frameSamples))).take frameSamples ++
      decodeChunks frameSamples (bytes.drop (2 * frameSamples))
termination_by bytes.length
decreasing_by
  have hlength := List.length_pos_iff.mpr (not_or.mp _hnone).1
  rw [List.length_drop]
  omega

/-- `BridgeCore::on_ws_binary`. -/
def onWsBinary (core : BridgeCore σ) (bytes : Bytes) : BridgeCore σ :=
  let playout := core.playout ++ decodeChunks core.frameSamples bytes
  { core with playout := playout.drop (playout.length - core.playoutCapSamples) }

variable (fill : σ → (count : ℕ) → Vector Int16 count × σ)

/-- `BridgeCore::drain_downlink_frame`. -/
def drainDownlinkFrame (core : BridgeCore σ) : Bool × BridgeCore σ :=
  let available := min core.playout.length core.frameSamples
  if available = 0 ∧ core.comfort.isNone then (false, core)
  else
    let resized := core.downlink.take core.frameSamples ++
      List.replicate (core.frameSamples - core.downlink.length) 0
    let downlink := core.playout.take available ++ resized.drop available
    let playout := core.playout.drop available
    if available < core.frameSamples then
      match core.comfort with
      | none => (false, { core with downlink, playout := downlink.take available ++ playout })
      | some comfort =>
        let (noise, comfort) := fill comfort (core.frameSamples - available)
        (true, { core with
          downlink := downlink.take available ++ noise.toList, playout, comfort := some comfort })
    else (true, { core with downlink, playout })

/-- The flush of a barge-in: the queue, and the frame already taken from it. -/
def flush (core : BridgeCore σ) : Bool × BridgeCore σ :=
  match core.comfort with
  | some comfort =>
    let (noise, comfort) := fill comfort core.frameSamples
    (true, { core with playout := [], downlink := noise.toList, comfort := some comfort })
  | none => (false, { core with playout := [] })

/-- `BridgeCore::tick`, with what the detectors say about a staged uplink frame. -/
def tick (core : BridgeCore σ) (verdict : Option Bool) : BridgeCore σ :=
  let (frame, core) := drainDownlinkFrame fill core
  match verdict with
  | none => { core with downlinkReady := frame }
  | some speaking =>
    let (frame, core) :=
      if speaking && !core.speaking && core.bargeIn then flush fill core else (frame, core)
    { core with speaking, downlinkReady := frame }

/-- `BridgeCore::take_downlink_pcm`. -/
def takeDownlinkPcm (core : BridgeCore σ) : Option (List Int16) × BridgeCore σ :=
  (if core.downlinkReady then some core.downlink else none, { core with downlinkReady := false })

end BridgeCore

inductive Event
  | binary (bytes : Bytes)
  | tick (verdict : Option Bool)
deriving DecidableEq

/-- One event, and what is rendered in it. -/
def step (fill : σ → (count : ℕ) → Vector Int16 count × σ) (core : BridgeCore σ) :
    Event → Option (List Int16) × BridgeCore σ
  | .binary bytes => (none, core.onWsBinary bytes)
  | .tick verdict => (core.tick fill verdict).takeDownlinkPcm

/-! ### The queue -/

/-- Why samples leave the queue. -/
inductive Fate
  | rendered
  | overflow
  | bargeIn
deriving DecidableEq

/-- The samples that a message brings. -/
def Event.samples : Event → List Int16
  | .binary bytes => l16LeToPcm bytes
  | .tick _ => []

/-- Whether the caller is speaking after an event, given whether they were before it. -/
def Event.speakingAfter (speaking : Bool) : Event → Bool
  | .tick (some verdict) => verdict
  | _ => speaking

/-- A local barge-in: the caller, silent before the tick, is speaking in it. -/
def bargesIn (bargeIn speaking : Bool) (verdict : Option Bool) : Bool :=
  decide (verdict = some true) && !speaking && bargeIn

/-- What one event does to the queue: the queue before, the frame rendered, what leaves at the
front, and the queue after. `speaking` is whether the caller was speaking before it. -/
inductive Passes (frameSamples cap : ℕ) (comfortIdle bargeIn speaking : Bool) :
    Event → List Int16 → Option (List Int16) → Fate × List Int16 → List Int16 → Prop
  | received {bytes : Bytes} {queue dropped later : List Int16}
      (hqueue : queue ++ l16LeToPcm bytes = dropped ++ later)
      (hdropped : dropped.length = queue.length + (l16LeToPcm bytes).length - cap) :
      Passes frameSamples cap comfortIdle bargeIn speaking (.binary bytes) queue none
        (.overflow, dropped) later
  | frame {verdict : Option Bool} {heard later : List Int16}
      (hgoes : bargesIn bargeIn speaking verdict = false) (hheard : heard.length = frameSamples) :
      Passes frameSamples cap comfortIdle bargeIn speaking (.tick verdict) (heard ++ later)
        (some heard) (.rendered, heard) later
  | kept {verdict : Option Bool} {queue : List Int16}
      (hgoes : bargesIn bargeIn speaking verdict = false) (hcomfort : comfortIdle = false)
      (hshort : queue.length < frameSamples) :
      Passes frameSamples cap comfortIdle bargeIn speaking (.tick verdict) queue none
        (.rendered, []) queue
  | filled {verdict : Option Bool} {queue noise : List Int16}
      (hgoes : bargesIn bargeIn speaking verdict = false) (hcomfort : comfortIdle = true)
      (hshort : queue.length < frameSamples)
      (hnoise : (queue ++ noise).length = frameSamples) :
      Passes frameSamples cap comfortIdle bargeIn speaking (.tick verdict) queue
        (some (queue ++ noise)) (.rendered, queue) []
  | bargedIn {verdict : Option Bool} {queue : List Int16} {frame : Option (List Int16)}
      (hbargesIn : bargesIn bargeIn speaking verdict = true)
      (hframe : frame.isSome = comfortIdle)
      (hnoise : ∀ noise ∈ frame, noise.length = frameSamples) :
      Passes frameSamples cap comfortIdle bargeIn speaking (.tick verdict) queue frame
        (.bargeIn, queue) []

/-- The chunks of a message are the message. -/
theorem decodeChunks_eq {frameSamples : ℕ} (hframe : 0 < frameSamples) (bytes : Bytes) :
    BridgeCore.decodeChunks frameSamples bytes = l16LeToPcm bytes := by
  have hsplit (count : ℕ) (bytes : Bytes) :
      l16LeToPcm (bytes.take (2 * count)) = (l16LeToPcm bytes).take count ∧
        l16LeToPcm (bytes.drop (2 * count)) = (l16LeToPcm bytes).drop count := by
    induction count generalizing bytes with
    | zero => simp [l16LeToPcm]
    | succ count ih =>
      rw [Nat.mul_succ]
      rcases bytes with _ | ⟨low, _ | ⟨high, rest⟩⟩
      · simp [l16LeToPcm]
      · simp [l16LeToPcm]
      · simp [l16LeToPcm, ih rest]
  induction hlength : bytes.length using Nat.strong_induction_on generalizing bytes with
  | _ length ih =>
    rw [BridgeCore.decodeChunks]
    split_ifs with hnone
    · rcases hnone with rfl | hzero
      · rfl
      · omega
    · have hpos := List.length_pos_iff.mpr (not_or.mp hnone).1
      rw [ih _ (by rw [List.length_drop]; omega) _ rfl, (hsplit _ _).1, (hsplit _ _).2,
        List.take_take, Nat.min_self, List.take_append_drop]

/-- The settings of a core, which no event changes. -/
structure Alike (core other : BridgeCore σ) : Prop where
  frameSamples : other.frameSamples = core.frameSamples
  cap : other.playoutCapSamples = core.playoutCapSamples
  bargeIn : other.bargeIn = core.bargeIn
  comfort : other.comfort.isSome = core.comfort.isSome

section Step

variable (fill : σ → (count : ℕ) → Vector Int16 count × σ) (core : BridgeCore σ)

/-- What is taken from the queue: a frame, nothing, or what there is and noise behind it. -/
theorem drain_cases (hframe : 0 < core.frameSamples) :
    ∃ frame later, core.drainDownlinkFrame fill = (frame, later) ∧ Alike core later ∧
      later.speaking = core.speaking ∧
      ((frame = true ∧ later.downlink.length = core.frameSamples ∧
          core.playout = later.downlink ++ later.playout) ∨
        core.playout.length < core.frameSamples ∧
          ((frame = false ∧ core.comfort.isSome = false ∧ later.playout = core.playout) ∨
            (frame = true ∧ core.comfort.isSome = true ∧ later.playout = [] ∧
              ∃ noise, later.downlink = core.playout ++ noise ∧
                (core.playout ++ noise).length = core.frameSamples))) := by
  unfold BridgeCore.drainDownlinkFrame
  dsimp only
  split_ifs with hnone hshort
  · refine ⟨_, _, rfl, ⟨rfl, rfl, rfl, rfl⟩, rfl, .inr ⟨by omega, .inl ⟨rfl, ?_, rfl⟩⟩⟩
    rw [Option.isSome_eq_false_iff]
    exact hnone.2
  · have hall : min core.playout.length core.frameSamples = core.playout.length := by omega
    have htaken (rest : List Int16) :
        (core.playout.take core.playout.length ++ rest).take core.playout.length =
          core.playout := by
      rw [List.take_length, List.take_left]
    rw [hall, htaken, List.drop_length]
    cases hcomfort : core.comfort with
    | none =>
      refine ⟨_, _, rfl, ⟨rfl, rfl, rfl, ?_⟩, rfl, .inr ⟨by omega, .inl ⟨rfl, rfl, ?_⟩⟩⟩
      · exact congrArg Option.isSome hcomfort.symm
      · exact List.append_nil _
    | some comfort =>
      refine ⟨_, _, rfl, ⟨rfl, rfl, rfl, ?_⟩, rfl, .inr ⟨by omega, .inr ⟨rfl, rfl, rfl, ?_⟩⟩⟩
      · rw [hcomfort]
        rfl
      · refine ⟨_, rfl, ?_⟩
        rw [List.length_append, Vector.length_toList]
        omega
  · have hall : min core.playout.length core.frameSamples = core.frameSamples := by omega
    have hover : (core.downlink.take core.frameSamples ++
        List.replicate (core.frameSamples - core.downlink.length) 0).drop core.frameSamples =
          [] := by
      refine List.drop_eq_nil_of_le ?_
      rw [List.length_append, List.length_take, List.length_replicate]
      omega
    rw [hall, hover, List.append_nil]
    refine ⟨_, _, rfl, ⟨rfl, rfl, rfl, rfl⟩, rfl, .inl ⟨rfl, ?_, ?_⟩⟩
    · exact List.length_take_of_le (by omega)
    · exact (List.take_append_drop _ _).symm

theorem flush_spec : ∃ frame later, core.flush fill = (frame, later) ∧ Alike core later ∧
    later.playout = [] ∧ frame = core.comfort.isSome ∧
      (frame = true → later.downlink.length = core.frameSamples) := by
  unfold BridgeCore.flush
  cases hcomfort : core.comfort with
  | none => exact ⟨_, _, rfl, ⟨rfl, rfl, rfl, congrArg _ hcomfort.symm⟩, rfl, rfl, by simp⟩
  | some comfort =>
    exact ⟨_, _, rfl, ⟨rfl, rfl, rfl, by rw [hcomfort]; rfl⟩, rfl, rfl, fun _ ↦ by simp⟩

/-- What one event does. -/
theorem step_passes (hframe : 0 < core.frameSamples) (event : Event) :
    Alike core (step fill core event).2 ∧
      (step fill core event).2.speaking = event.speakingAfter core.speaking ∧
      ∃ left, Passes core.frameSamples core.playoutCapSamples core.comfort.isSome core.bargeIn
        core.speaking event core.playout (step fill core event).1 left
        (step fill core event).2.playout := by
  cases event with
  | binary bytes =>
    refine ⟨⟨rfl, rfl, rfl, rfl⟩, rfl, (.overflow, (core.playout ++ l16LeToPcm bytes).take
      ((core.playout ++ l16LeToPcm bytes).length - core.playoutCapSamples)), .received ?_ ?_⟩
    · simp only [step, BridgeCore.onWsBinary, decodeChunks_eq hframe]
      exact (List.take_append_drop _ _).symm
    · rw [List.length_take, List.length_append]
      omega
  | tick verdict =>
    obtain ⟨frame, later, hdrain, halike, hspeaking, hcases⟩ := drain_cases fill core hframe
    have hrendered (hgoes : bargesIn core.bargeIn core.speaking verdict = false) :
        ∃ left, Passes core.frameSamples core.playoutCapSamples core.comfort.isSome core.bargeIn
          core.speaking (.tick verdict) core.playout (if frame then some later.downlink else none)
            left later.playout := by
      rcases hcases with ⟨rfl, hlength, hqueue⟩ | ⟨hshort, ⟨rfl, hcomfort, hqueue⟩ |
        ⟨rfl, hcomfort, hqueue, noise, hdownlink, hlength⟩⟩
      · rw [hqueue]
        exact ⟨_, .frame hgoes hlength⟩
      · rw [hqueue]
        exact ⟨_, .kept hgoes hcomfort hshort⟩
      · rw [hqueue, hdownlink]
        exact ⟨_, .filled hgoes hcomfort hshort hlength⟩
    simp only [step, BridgeCore.tick, hdrain]
    cases verdict with
    | none => exact ⟨⟨halike.1, halike.2, halike.3, halike.4⟩, hspeaking, hrendered rfl⟩
    | some speaking =>
      have hstart : bargesIn core.bargeIn core.speaking (some speaking) =
          (speaking && !later.speaking && later.bargeIn) := by
        rw [hspeaking, halike.3]
        cases speaking <;> rfl
      dsimp only
      split_ifs with hbargesIn
      · obtain ⟨frame, flushed, hflush, hlike, hqueue, hframe, hlength⟩ := flush_spec fill later
        rw [hflush]
        refine ⟨⟨hlike.1.trans halike.1, hlike.2.trans halike.2, hlike.3.trans halike.3,
          hlike.4.trans halike.4⟩, rfl, (.bargeIn, core.playout), ?_⟩
        simp only [hqueue]
        refine .bargedIn (hstart.trans hbargesIn) ?_ ?_
        · rw [← halike.4, ← hframe]
          cases frame <;> rfl
        · intro noise hnoise
          cases frame with
          | false => cases hnoise
          | true =>
            obtain rfl := Option.some.inj hnoise
            exact (hlength rfl).trans halike.1
      · exact ⟨⟨halike.1, halike.2, halike.3, halike.4⟩, rfl,
          hrendered (hstart.trans (Bool.eq_false_iff.mpr hbargesIn))⟩

end Step

section Passes

variable {frameSamples cap : ℕ} {comfortIdle bargeIn speaking : Bool} {event : Event}
  {queue later : List Int16} {frame : Option (List Int16)} {left : Fate × List Int16}
  (hpasses : Passes frameSamples cap comfortIdle bargeIn speaking event queue frame left later)

include hpasses

/-- What was there and what comes in leaves at the front or stays. -/
theorem Passes.accounts : queue ++ event.samples = left.2 ++ later := by
  cases hpasses with
  | received hqueue => exact hqueue
  | frame => exact List.append_nil _
  | kept => exact List.append_nil _
  | filled => rfl
  | bargedIn => rfl

theorem Passes.length_le (hqueue : queue.length ≤ cap) : later.length ≤ cap := by
  have hlengths := congrArg List.length hpasses.accounts
  rw [List.length_append, List.length_append] at hlengths
  cases hpasses with
  | received hsame hdropped =>
    dsimp only [Event.samples] at hlengths
    omega
  | frame | kept =>
    dsimp only [Event.samples, List.length_nil] at hlengths
    omega
  | filled | bargedIn => exact Nat.zero_le cap

theorem Passes.length_frame {rendered : List Int16} (hrendered : frame = some rendered) :
    rendered.length = frameSamples := by
  cases hpasses with
  | received => cases hrendered
  | frame hgoes hheard =>
    cases hrendered
    exact hheard
  | kept => cases hrendered
  | filled hgoes hcomfort hshort hnoise =>
    cases hrendered
    exact hnoise
  | bargedIn hbargesIn hframe hnoise => exact hnoise rendered hrendered

end Passes

theorem run_passes (fill : σ → (count : ℕ) → Vector Int16 count × σ) (core : BridgeCore σ)
    (hframe : 0 < core.frameSamples) (hcap : core.playout.length ≤ core.playoutCapSamples)
    (events : List Event) :
    ∃ log : List (Fate × List Int16), log.length = events.length ∧
      core.playout ++ events.flatMap Event.samples =
        log.flatMap Prod.snd ++ (final (step fill) core events).playout ∧
      ∀ k event, events[k]? = some event → ∃ left frame, log[k]? = some left ∧
        (outputs (step fill) core events)[k]? = some frame ∧
        Passes core.frameSamples core.playoutCapSamples core.comfort.isSome core.bargeIn
          ((events.take k).foldl Event.speakingAfter core.speaking) event
          (final (step fill) core (events.take k)).playout frame left
          (final (step fill) core (events.take (k + 1))).playout ∧
        (∀ rendered ∈ frame, rendered.length = core.frameSamples) ∧
        (final (step fill) core (events.take (k + 1))).playout.length ≤
          core.playoutCapSamples := by
  induction events generalizing core with
  | nil => exact ⟨[], rfl, List.append_nil _, fun k event hevent ↦ by cases hevent⟩
  | cons event events ih =>
    obtain ⟨halike, hspeaking, left, hpasses⟩ := step_passes fill core hframe event
    have hlater := hpasses.length_le hcap
    obtain ⟨log, hlength, hsamples, hlog⟩ := ih (step fill core event).2
      (by rw [halike.1]; exact hframe) (by rw [halike.2]; exact hlater)
    rw [halike.1, halike.2, halike.3, halike.4, hspeaking] at hlog
    refine ⟨left :: log, congrArg (· + 1) hlength, ?_, ?_⟩
    · rw [List.flatMap_cons, ← List.append_assoc, hpasses.accounts, List.append_assoc, hsamples,
        List.flatMap_cons, List.append_assoc]
      rfl
    · rintro (_ | k) other hother
      · obtain rfl := Option.some.inj hother
        exact ⟨left, _, rfl, rfl, hpasses, fun _ ↦ hpasses.length_frame, hlater⟩
      · exact hlog k other hother

/-- The downlink is a bounded queue: along every run the samples received are those that have left
at the front, in order, and those still queued. They leave in the frames that are rendered, or as
the oldest on an overflow, or all at once where the caller starts to speak on a leg with barge-in. A
short frame waits, or is filled with noise on a leg that keeps its clock running. -/
theorem downlink_is_bounded_fifo (fill : σ → (count : ℕ) → Vector Int16 count × σ)
    (sampleRate ptime playoutCap : ℕ) (comfort : Option σ) (bargeIn : Bool) (events : List Event) :
    let frameSamples := frameSamplesFor sampleRate ptime
    let cap := max playoutCap 1 * frameSamples
    let start := BridgeCore.new frameSamples playoutCap comfort bargeIn
    ∃ log : List (Fate × List Int16), log.length = events.length ∧
      events.flatMap Event.samples =
        log.flatMap Prod.snd ++ (final (step fill) start events).playout ∧
      ∀ k event, events[k]? = some event → ∃ left frame, log[k]? = some left ∧
        (outputs (step fill) start events)[k]? = some frame ∧
        Passes frameSamples cap comfort.isSome bargeIn
          ((events.take k).foldl Event.speakingAfter false) event
          (final (step fill) start (events.take k)).playout frame left
          (final (step fill) start (events.take (k + 1))).playout ∧
        (∀ rendered ∈ frame, rendered.length = frameSamples) ∧
        (final (step fill) start (events.take (k + 1))).playout.length ≤ cap :=
  run_passes fill (.new (frameSamplesFor sampleRate ptime) playoutCap comfort bargeIn)
    (Nat.lt_of_lt_of_le Nat.one_pos (le_max_right _ _)) (Nat.zero_le _) events

/-- On a leg with comfort noise a short frame is not kept: it is rendered with noise behind it. And
on a leg with barge-in a frame that was queued is never rendered, though nothing overflowed: the
caller starts to speak in its tick. -/
theorem short_frame_filled_and_queue_flushed :
    let fill (_ : Unit) (count : ℕ) : Vector Int16 count × Unit := (Vector.replicate count 7, ())
    let idle : BridgeCore Unit := .new (frameSamplesFor 8000 1) 3 (some ()) false
    let short : List Event := [.binary [0x34, 0x12], .tick none]
    let turn : BridgeCore Unit := .new (frameSamplesFor 8000 1) 3 none true
    let whole : List Event := [.binary (List.replicate 16 0x11), .tick (some true), .tick none]
    (outputs (step fill) idle short = [none, some (0x1234 :: List.replicate 7 7)] ∧
        (final (step fill) idle short).playout = []) ∧
      (final (step fill) turn (whole.take 1)).playout = List.replicate 8 0x1111 ∧
      outputs (step fill) turn whole = [none, none, none] ∧
      (final (step fill) turn whole).playout = [] := by
  have hshort : BridgeCore.decodeChunks 8 [0x34, 0x12] = [0x1234] := by
    rw [decodeChunks_eq (by decide)]
    decide
  have hwhole : BridgeCore.decodeChunks 8 (List.replicate 16 0x11) = List.replicate 8 0x1111 := by
    rw [decodeChunks_eq (by decide)]
    decide
  have hframe : frameSamplesFor 8000 1 = 8 := by decide
  rw [hframe]
  simp only [outputs, final, List.take, step, BridgeCore.onWsBinary, BridgeCore.new, hshort, hwhole]
  decide

end SiphonRtp.Media.Downlink
