import SiphonRtp.Machine.Octets
import SiphonRtp.Machine.Text

/-!
# Call keys

`siphon-rtp-engine/src/engine/scope.rs`, with the check of scopes in
`siphon-rtp-proto/src/scope.rs`: a call is named by its id and an optional scope, inside the engine
by one text (`compose`), and towards the outside by another (`external`). The key has a separator
that no call id may contain, so it can be taken apart (`split_of_compose`). The outside name has a
dot, which call ids may contain.

An event has the fields of its kind beside the id of its call; none of them is read here, and they
are a parameter.
-/

set_option autoImplicit false

namespace SiphonRtp.Engine.CallKeys

open Machine

/-! ### Scopes -/

def maxScopeLen : ℕ := 64

inductive ScopeError
  | tooLong (len : ℕ)
  | character
deriving DecidableEq

/-- `u8::is_ascii_alphanumeric`. -/
def isAsciiAlphanumeric (byte : UInt8) : Bool :=
  (0x30 ≤ byte && byte ≤ 0x39) || (0x41 ≤ byte && byte ≤ 0x5A) || (0x61 ≤ byte && byte ≤ 0x7A)

/-- `validate_scope`. -/
def validateScope (scope : Text) : Except ScopeError Unit :=
  let bytes := encodeUtf8 scope
  if maxScopeLen < bytes.length then .error (.tooLong bytes.length)
  else if scope.isEmpty || !bytes.all fun byte ↦
      isAsciiAlphanumeric byte || byte == 0x2D || byte == 0x5F then .error .character
  else .ok ()

/-- A scope is absent or has been checked. -/
def Valid (scope : Option Text) : Prop := ∀ name ∈ scope, validateScope name = .ok ()

/-- No scope has a dot. -/
theorem dot_not_mem {name : Text} (hvalid : validateScope name = .ok ()) : '.' ∉ name := by
  intro hmem
  have hbyte : (0x2E : UInt8) ∈ encodeUtf8 name :=
    List.mem_flatMap.mpr ⟨'.', hmem, by decide⟩
  unfold validateScope at hvalid
  dsimp only at hvalid
  split_ifs at hvalid with _ hcharacter
  simp only [Bool.or_eq_true, Bool.not_eq_true', not_or, Bool.not_eq_false, List.all_eq_true]
    at hcharacter
  exact absurd (hcharacter.2 0x2E hbyte) (by decide)

/-! ### Keys -/

def separator : Char := Char.ofNat 0x1F

def marker : Text := separator :: " scope=".toList

/-- `compose`. -/
def compose (scope : Option Text) (callId : Text) : Except String Text :=
  if separator ∈ callId then .error "call_id must not contain the control character U+001F"
  else
    .ok (match scope with
      | none => callId
      | some scope => callId ++ (marker ++ scope))

/-- `split`. -/
def split (key : Text) : Text × Option Text :=
  match splitOnceAt marker key with
  | some (callId, scope) => (callId, some scope)
  | none => (key, none)

/-- `external`. -/
def external (key : Text) : Text :=
  match split key with
  | (callId, some scope) => callId ++ '.' :: scope
  | (callId, none) => callId

section Compose

variable {scope : Option Text} {callId key : Text}

theorem splitOnceAt_of_compose (hcompose : compose scope callId = .ok key) :
    splitOnceAt marker key = scope.map fun name ↦ (callId, name) := by
  unfold compose at hcompose
  split_ifs at hcompose with hseparator
  obtain rfl := Except.ok.inj hcompose
  cases scope with
  | none => exact splitOnceAt_of_not_mem hseparator _
  | some name => exact splitOnceAt_append hseparator _ name

theorem key_of_compose (hcompose : compose scope callId = .ok key) :
    key = callId ++ (scope.map (marker ++ ·)).getD [] := by
  unfold compose at hcompose
  split_ifs at hcompose
  obtain rfl := Except.ok.inj hcompose
  cases scope with
  | none => exact (List.append_nil callId).symm
  | some name => rfl

/-- A key comes apart as it was put together. -/
theorem split_of_compose (hcompose : compose scope callId = .ok key) :
    split key = (callId, scope) := by
  rw [split, splitOnceAt_of_compose hcompose]
  cases scope with
  | none => exact congrArg (·, none) ((key_of_compose hcompose).trans (List.append_nil callId))
  | some name => rfl

theorem external_of_compose (hcompose : compose scope callId = .ok key) :
    external key = callId ++ (scope.map ('.' :: ·)).getD [] := by
  rw [external, split_of_compose hcompose]
  cases scope with
  | none => exact (List.append_nil callId).symm
  | some name => rfl

end Compose

/-! ### Events -/

/-- An event, with the fields beside the id of its call. -/
inductive Event (α : Type)
  | dtmf (callId : Text) (fields : α)
  | text (callId : Text) (fields : α)
  | mediaTimeout (callId : Text) (fields : α)
  | mediaStarted (callId : Text) (fields : α)
  | playFinished (callId : Text) (fields : α)
  | recordingFinished (callId : Text) (fields : α)
  | callSummary (callId : Text) (fields : α)
  | wsTeeStarted (callId : Text) (fields : α)
  | beepDetected (callId : Text) (fields : α)
  | wsTeeEnded (callId : Text) (fields : α)
  | x3Started (callId : Text) (fields : α)
  | x3Loss (callId : Text) (fields : α)
  | x3Ended (callId : Text) (fields : α)
  | wsBridgeStarted (callId : Text) (fields : α)
  | wsBridgeEnded (callId : Text) (fields : α)
  | callQuality (callId : Option Text) (fields : α)
  | rtcpApp (callId : Option Text) (fields : α)
  | activeSpeaker (fields : α)
  | forwardSourceStarted (fields : α)
  | forwardSeatInactive (fields : α)
  | unknown

variable {α : Type}

/-- `Event::call_id_mut`: the id, and the event with another one written in its place. -/
def Event.callIdMut : Event α → Option (Text × (Text → Event α))
  | dtmf callId fields => some (callId, (dtmf · fields))
  | text callId fields => some (callId, (text · fields))
  | mediaTimeout callId fields => some (callId, (mediaTimeout · fields))
  | mediaStarted callId fields => some (callId, (mediaStarted · fields))
  | playFinished callId fields => some (callId, (playFinished · fields))
  | recordingFinished callId fields => some (callId, (recordingFinished · fields))
  | callSummary callId fields => some (callId, (callSummary · fields))
  | wsTeeStarted callId fields => some (callId, (wsTeeStarted · fields))
  | beepDetected callId fields => some (callId, (beepDetected · fields))
  | wsTeeEnded callId fields => some (callId, (wsTeeEnded · fields))
  | x3Started callId fields => some (callId, (x3Started · fields))
  | x3Loss callId fields => some (callId, (x3Loss · fields))
  | x3Ended callId fields => some (callId, (x3Ended · fields))
  | wsBridgeStarted callId fields => some (callId, (wsBridgeStarted · fields))
  | wsBridgeEnded callId fields => some (callId, (wsBridgeEnded · fields))
  | callQuality callId fields =>
    callId.map fun callId ↦ (callId, fun other ↦ callQuality (some other) fields)
  | rtcpApp callId fields =>
    callId.map fun callId ↦ (callId, fun other ↦ rtcpApp (some other) fields)
  | activeSpeaker _ | forwardSourceStarted _ | forwardSeatInactive _ | unknown => none

structure Scoped (β : Type) where
  scope : Option Text
  inner : β

/-- `scoped_event`. -/
def scopedEvent (event : Event α) : Scoped (Event α) :=
  match event.callIdMut with
  | some (callId, write) =>
    match splitOnceAt marker callId with
    | some (plain, found) => ⟨some found, write (callId.take plain.length)⟩
    | none => ⟨none, event⟩
  | none => ⟨none, event⟩

/-- An id that is written is the id of the event, and writing again replaces it. -/
theorem Event.callIdMut_write {event : Event α} {callId : Text} {write : Text → Event α}
    (hevent : event.callIdMut = some (callId, write)) :
    write callId = event ∧ ∀ other, (write other).callIdMut = some (other, write) := by
  cases event
  case callQuality held fields =>
    cases held with
    | none => cases hevent
    | some held =>
      cases hevent
      exact ⟨rfl, fun _ ↦ rfl⟩
  case rtcpApp held fields =>
    cases held with
    | none => cases hevent
    | some held =>
      cases hevent
      exact ⟨rfl, fun _ ↦ rfl⟩
  all_goals
    cases hevent
    try exact ⟨rfl, fun _ ↦ rfl⟩

/-- The event that a client gets carries its own id and scope. -/
theorem scopedEvent_of_compose {scope : Option Text} {callId key : Text}
    (hcompose : compose scope callId = .ok key) {event : Event α} {write : Text → Event α}
    (hevent : event.callIdMut = some (key, write)) :
    scopedEvent event = ⟨scope, write callId⟩ := by
  unfold scopedEvent
  rw [hevent]
  dsimp only
  rw [splitOnceAt_of_compose hcompose]
  have hkey := key_of_compose hcompose
  cases scope with
  | none =>
    have hplain : key = callId := hkey.trans (List.append_nil callId)
    rw [← hplain, (Event.callIdMut_write hevent).1]
    rfl
  | some name =>
    have htake : key.take callId.length = callId := by
      rw [hkey, List.take_left]
    exact congrArg (fun id ↦ Scoped.mk (some name) (write id)) htake

/-- Texts are read from their ends: the last separator is the one before a part without any. -/
theorem append_part_inj {separator : Char} {text text' part part' : Text} (hpart : separator ∉ part)
    (hpart' : separator ∉ part') :
    text ++ separator :: part = text' ++ separator :: part' ↔ text = text' ∧ part = part' := by
  refine ⟨fun heq ↦ ?_, fun h ↦ by rw [h.1, h.2]⟩
  have hsplit (text : Text) {part : Text} (hpart : separator ∉ part) :
      splitOnce separator (text ++ separator :: part).reverse =
        some (part.reverse, text.reverse) := by
    rw [List.reverse_append, List.reverse_cons, List.append_assoc]
    exact splitOnce_append (mt List.mem_reverse.mp hpart) text.reverse
  have hsame := hsplit text hpart
  rw [heq, hsplit text' hpart'] at hsame
  simp only [Option.some.injEq, Prod.mk.injEq, List.reverse_inj] at hsame
  exact ⟨hsame.2.symm, hsame.1.symm⟩

/-- `DecodedFormat`, without the bit rate of Opus. -/
inductive DecodedFormat
  | wav
  | oggOpus
deriving DecidableEq

def DecodedFormat.extension : DecodedFormat → Text
  | wav => "wav".toList
  | oggOpus => "opus".toList

/-- What the engine names after a call: the capture of its packets, a recording under the number
that `next_recording_id` gave it, the recording of one party, and the streams of a takeover and of
a tee. -/
inductive NamedAfter
  | capture
  | recording (recordingId : ℕ) (format : DecodedFormat)
  | party (sourceA : Bool)
  | takeover
  | tee
deriving DecidableEq

namespace NamedAfter

/-- The name of a file, in the directory it is written to, or the identifier of a stream. -/
def name (key : Text) : NamedAfter → Text
  | capture => external key ++ ".pcap".toList
  | recording recordingId format =>
    external key ++ "-rec-".toList ++ numeral recordingId ++ '.' :: format.extension
  | party sourceA => external key ++ (if sourceA then "-a.wav" else "-b.wav").toList
  | takeover => "ws-".toList ++ external key
  | tee => "tee-".toList ++ external key

def isFile : NamedAfter → Bool
  | capture | recording .. | party .. => true
  | takeover | tee => false

def extension : NamedAfter → Text
  | recording _ format => format.extension
  | party _ => "wav".toList
  | _ => "pcap".toList

theorem dot_not_mem_extension (named : NamedAfter) : '.' ∉ named.extension := by
  cases named with
  | recording _ format => cases format <;> simp [extension, DecodedFormat.extension]
  | _ => simp [extension]

/-- The name of a file without its extension, which ends in the number of the recording or in the
letter of the party. -/
def stem (key : Text) : NamedAfter → Text
  | recording recordingId _ => (external key ++ "-rec".toList) ++ '-' :: numeral recordingId
  | party sourceA => external key ++ '-' :: [if sourceA then 'a' else 'b']
  | _ => external key

theorem name_of_isFile {named : NamedAfter} (hfile : named.isFile = true) (key : Text) :
    named.name key = named.stem key ++ '.' :: named.extension := by
  cases named with
  | capture => rfl
  | recording recordingId format => simp [name, stem, extension]
  | party sourceA => cases sourceA <;> simp [name, stem, extension]
  | takeover | tee => cases hfile

theorem numeral_inj {n n' : ℕ} (heq : numeral n = numeral n') : n = n' := by
  have hread := parseUnsigned_numeral (Nat.lt_succ_of_le (Nat.le_max_left n n'))
  rw [heq, parseUnsigned_numeral (Nat.lt_succ_of_le (Nat.le_max_right n n'))] at hread
  exact (Option.some.inj hread).symm

theorem letter_spec (sourceA : Bool) :
    '-' ∉ [if sourceA then 'a' else 'b'] ∧ ∀ n, numeral n ≠ [if sourceA then 'a' else 'b'] := by
  refine ⟨by cases sourceA <;> decide, fun n heq ↦ ?_⟩
  refine not_mem_numeral ?_ n (heq ▸ List.mem_singleton_self _)
  cases sourceA <;> rfl

theorem eq_of_stem_eq {named named' : NamedAfter} (hfile : named.isFile = true)
    (hfile' : named'.isFile = true) {key key' : Text} (hstem : named.stem key = named'.stem key')
    (hextension : named.extension = named'.extension) :
    named = named' ∧ external key = external key' := by
  have hdash (n : ℕ) : '-' ∉ numeral n := not_mem_numeral (by decide) n
  cases named with
  | capture =>
    cases named' with
    | capture => exact ⟨rfl, hstem⟩
    | recording _ format => cases format <;> cases hextension
    | party => cases hextension
    | takeover | tee => cases hfile'
  | recording recordingId format =>
    cases named' with
    | capture => cases format <;> cases hextension
    | recording recordingId' format' =>
      rw [stem, stem, append_part_inj (hdash _) (hdash _), List.append_left_inj] at hstem
      have hformat : format = format' := by
        cases format <;> cases format' <;> first | rfl | cases hextension
      exact ⟨by rw [numeral_inj hstem.2, hformat], hstem.1⟩
    | party sourceA =>
      rw [stem, stem, append_part_inj (hdash _) (letter_spec sourceA).1] at hstem
      exact absurd hstem.2 ((letter_spec sourceA).2 recordingId)
    | takeover | tee => cases hfile'
  | party sourceA =>
    cases named' with
    | capture => cases hextension
    | recording recordingId _ =>
      rw [stem, stem, append_part_inj (letter_spec sourceA).1 (hdash _)] at hstem
      exact absurd hstem.2.symm ((letter_spec sourceA).2 recordingId)
    | party sourceA' =>
      rw [stem, stem, append_part_inj (letter_spec _).1 (letter_spec _).1] at hstem
      have hletters := hstem.2
      refine ⟨?_, hstem.1⟩
      cases sourceA <;> cases sourceA' <;> first | rfl | cases hletters
    | takeover | tee => cases hfile'
  | takeover | tee => cases hfile

/-- Of two files or two streams only those of one kind, and recordings of one number, can have the
same name. -/
theorem name_inj {named named' : NamedAfter} (hkind : named.isFile = named'.isFile)
    {key key' : Text} :
    named.name key = named'.name key' ↔ named = named' ∧ external key = external key' := by
  refine ⟨fun heq ↦ ?_, fun ⟨hnamed, hkey⟩ ↦ by simp only [name, hnamed, hkey]⟩
  cases hfile : named.isFile with
  | true =>
    have hfile' : named'.isFile = true := hkind ▸ hfile
    rw [name_of_isFile hfile, name_of_isFile hfile',
      append_part_inj (dot_not_mem_extension named) (dot_not_mem_extension named')] at heq
    exact eq_of_stem_eq hfile hfile' heq.1 heq.2
  | false =>
    cases named with
    | takeover =>
      cases named' with
      | takeover => exact ⟨rfl, List.append_cancel_left heq⟩
      | tee => cases heq
      | _ => cases hkind
    | tee =>
      cases named' with
      | takeover => cases heq
      | tee => exact ⟨rfl, List.append_cancel_left heq⟩
      | _ => cases hkind
    | _ => cases hfile

end NamedAfter

/-- The id of an unscoped call that is another call's id, a dot, and that call's scope. -/
def Spells (plain other : Option Text × Text) : Prop :=
  plain.1 = none ∧ ∃ name, other.1 = some name ∧ plain.2 = other.2 ++ '.' :: name

theorem external_eq_iff {call call' : Option Text × Text} (hvalid : Valid call.1)
    (hvalid' : Valid call'.1) (hne : call ≠ call') :
    call.2 ++ (call.1.map ('.' :: ·)).getD [] = call'.2 ++ (call'.1.map ('.' :: ·)).getD [] ↔
      Spells call call' ∨ Spells call' call := by
  obtain ⟨scope, callId⟩ := call
  obtain ⟨scope', callId'⟩ := call'
  cases scope with
  | none =>
    cases scope' with
    | none =>
      have hids : callId ≠ callId' := fun hid ↦ hne (congrArg (Prod.mk none) hid)
      simp [Spells, hids]
    | some name' => simp [Spells]
  | some name =>
    cases scope' with
    | none => simp [Spells, eq_comm]
    | some name' =>
      have hdiffer : callId ++ '.' :: name ≠ callId' ++ '.' :: name' := by
        rw [ne_eq, append_part_inj (dot_not_mem (hvalid name rfl))
          (dot_not_mem (hvalid' name' rfl))]
        exact fun hsame ↦ hne (Prod.ext (congrArg some hsame.2) hsame.1)
      simpa [Spells] using hdiffer

/-- Two files or two streams of different calls have different names exactly if they differ in kind
or number, or neither call is an unscoped one that spells the other.

Assumes: the scopes are valid, and both keys are composed. -/
theorem external_names_differ_iff {named named' : NamedAfter}
    (hkind : named.isFile = named'.isFile) {scope scope' : Option Text}
    {callId callId' key key' : Text} (hvalid : Valid scope) (hvalid' : Valid scope')
    (hcompose : compose scope callId = .ok key) (hcompose' : compose scope' callId' = .ok key')
    (hne : (scope, callId) ≠ (scope', callId')) :
    named.name key ≠ named'.name key' ↔ (named = named' →
      ¬ Spells (scope, callId) (scope', callId') ∧ ¬ Spells (scope', callId') (scope, callId)) := by
  rw [ne_eq, NamedAfter.name_inj hkind, external_of_compose hcompose,
    external_of_compose hcompose', ← not_or, not_and]
  exact imp_congr_right fun _ ↦ not_congr (external_eq_iff hvalid hvalid' hne)

/-- Two scopes of one call have different names. -/
theorem external_names_differ_bgcf :
    NamedAfter.tee.name "7f@192.0.2.20\x1f scope=bgcf".toList ≠
      NamedAfter.tee.name "7f@192.0.2.20".toList :=
  (@external_names_differ_iff .tee .tee rfl (some "bgcf".toList) none "7f@192.0.2.20".toList
    "7f@192.0.2.20".toList _ _ (by simp [Valid]; rfl) (by simp [Valid]) rfl rfl (by simp)).mpr
      fun _ ↦ ⟨by simp [Spells], by simp [Spells]⟩

/-- The end of an address reads as a scope. -/
theorem address_spells_a_scope :
    Valid none ∧ Valid (some "20".toList) ∧
      ((none, "7f@192.0.2.20".toList) : Option Text × Text) ≠
        (some "20".toList, "7f@192.0.2".toList) ∧
      ∃ key key', compose none "7f@192.0.2.20".toList = .ok key ∧
        compose (some "20".toList) "7f@192.0.2".toList = .ok key' ∧
          NamedAfter.capture.name key = NamedAfter.capture.name key' := by
  refine ⟨by simp [Valid], by simp [Valid]; rfl, by simp, _, _, rfl, rfl, by decide⟩

end SiphonRtp.Engine.CallKeys
