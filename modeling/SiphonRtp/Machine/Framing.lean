import SiphonRtp.Machine.Runs

/-!
# Framing a stream

A framer looks at the head of a receive buffer and says where the first message ends, that more has
to arrive before it can say, or that this is no message at all. `Framer` carries what a loop over it
rests on: it asks for more of an empty buffer, and a message it finds is not empty and lies within
the buffer. `drain` takes messages off a buffer until the framer finds none, and `receive` is one
turn of a connection that appends what it reads and drains.

`Recognizes` is what a message has to satisfy to be cut out of any stream: the framer finds it
whatever follows, and asks for more on each of its beginnings. `run_receive` is the result: over a
stream of such messages the connection has at every moment delivered a beginning of their list and
holds the rest of what it read, however the stream was cut into reads.
-/

set_option autoImplicit false

namespace SiphonRtp.Machine

variable {α : Type*}

/-- What a framer finds at the head of a buffer. -/
inductive Framed where
  | need
  | ready (length : ℕ)
  | invalid
deriving DecidableEq

/-- A framer that makes progress and stays within its buffer. -/
structure Framer (α : Type*) where
  frame : List α → Framed
  frame_nil : frame [] = .need
  pos_of_ready : ∀ {buffer : List α} {length : ℕ}, frame buffer = .ready length → 0 < length
  le_of_ready :
    ∀ {buffer : List α} {length : ℕ}, frame buffer = .ready length → length ≤ buffer.length

namespace Framer

variable (framer : Framer α)

/-- Messages taken off the front of a buffer while there are any, with what is left; nothing is left
of a buffer whose head is no message. -/
def drain (buffer : List α) : List (List α) × Option (List α) :=
  match _hframe : framer.frame buffer with
  | .need => ([], some buffer)
  | .invalid => ([], none)
  | .ready length =>
    let rest := drain (buffer.drop length)
    (buffer.take length :: rest.1, rest.2)
termination_by buffer.length
decreasing_by
  have hpos := framer.pos_of_ready _hframe
  have hle := framer.le_of_ready _hframe
  rw [List.length_drop]
  omega

theorem drain_of_need {buffer : List α} (hframe : framer.frame buffer = .need) :
    framer.drain buffer = ([], some buffer) := by
  rw [drain]
  split <;> simp_all

theorem drain_of_ready {buffer : List α} {length : ℕ}
    (hframe : framer.frame buffer = .ready length) :
    framer.drain buffer =
      (buffer.take length :: (framer.drain (buffer.drop length)).1,
        (framer.drain (buffer.drop length)).2) := by
  conv_lhs => rw [drain]
  split <;> simp_all

/-- One read of a connection: what it delivers, and the buffer unless the connection is closed. -/
def receive : Option (List α) → List α → List (List α) × Option (List α)
  | none, _ => ([], none)
  | some buffer, chunk => framer.drain (buffer ++ chunk)

/-- A message the framer cuts out of any stream. -/
structure Recognizes (message : List α) : Prop where
  ready : ∀ tail, framer.frame (message ++ tail) = .ready message.length
  need : ∀ head, head <+: message → head ≠ message → framer.frame head = .need

/-! ### Streams of messages -/

variable {framer}

/-- Draining the beginning of a stream takes the messages that are complete in it, and stops where
the framer asks for more of the next one. -/
theorem drain_spec {messages : List (List α)}
    (hmessages : ∀ message ∈ messages, framer.Recognizes message) {buffer tail : List α}
    (hstream : buffer ++ tail = messages.flatten) :
    ∃ k rest, framer.drain buffer = (messages.take k, some rest) ∧
      rest ++ tail = (messages.drop k).flatten ∧ framer.frame rest = .need := by
  induction messages generalizing buffer with
  | nil =>
    obtain ⟨rfl, rfl⟩ := List.append_eq_nil_iff.mp hstream
    exact ⟨0, [], framer.drain_of_need framer.frame_nil, rfl, framer.frame_nil⟩
  | cons message messages ih =>
    have hmessage := hmessages message List.mem_cons_self
    rcases List.append_eq_append_iff.mp hstream with
      ⟨missing, hmissing, hrest⟩ | ⟨more, hmore, hrest⟩
    · by_cases hwhole : buffer = message
      · -- the buffer ends exactly where the message does
        subst hwhole
        have hframe := hmessage.ready []
        rw [List.append_nil] at hframe
        obtain ⟨k, rest, hdrain, hleft, hneed⟩ :=
          ih (fun other hother ↦ hmessages other (List.mem_cons_of_mem _ hother))
            (show [] ++ tail = messages.flatten from List.append_cancel_left hstream)
        refine ⟨k + 1, rest, ?_, hleft, hneed⟩
        rw [framer.drain_of_ready hframe, List.drop_length, List.take_length, hdrain]
        rfl
      · have hneed := hmessage.need buffer ⟨missing, hmissing.symm⟩ hwhole
        exact ⟨0, buffer, framer.drain_of_need hneed, hstream, hneed⟩
    · subst hmore
      have hframe := hmessage.ready more
      obtain ⟨k, rest, hdrain, hleft, hneed⟩ :=
        ih (fun other hother ↦ hmessages other (List.mem_cons_of_mem _ hother)) hrest.symm
      refine ⟨k + 1, rest, ?_, hleft, hneed⟩
      rw [framer.drain_of_ready hframe, List.drop_left' rfl, List.take_left' rfl, hdrain]
      rfl

/-- However the beginning of a stream of messages was cut into reads, the connection is open, what
it has delivered is a beginning of the list of messages, and it holds the rest of what it read, of
which the framer asks for more. -/
theorem run_receive {messages : List (List α)}
    (hmessages : ∀ message ∈ messages, framer.Recognizes message) {buffer tail : List α}
    (hneed : framer.frame buffer = .need) {reads : List (List α)}
    (hstream : buffer ++ (reads.flatten ++ tail) = messages.flatten) :
    ∃ k rest, (outputs framer.receive (some buffer) reads).flatten = messages.take k ∧
      final framer.receive (some buffer) reads = some rest ∧
      rest ++ tail = (messages.drop k).flatten ∧ framer.frame rest = .need := by
  induction reads generalizing buffer messages with
  | nil => exact ⟨0, buffer, rfl, rfl, hstream, hneed⟩
  | cons chunk reads ih =>
    rw [List.flatten_cons, List.append_assoc, ← List.append_assoc] at hstream
    obtain ⟨k, rest, hdrain, hleft, hstop⟩ := drain_spec hmessages hstream
    obtain ⟨more, last, houtputs, hfinal, hlast, hasks⟩ :=
      ih (fun message hmem ↦ hmessages message (List.mem_of_mem_drop hmem)) hstop hleft
    refine ⟨k + more, last, ?_, ?_, ?_, hasks⟩
    · rw [outputs_cons, List.flatten_cons, receive, hdrain, houtputs, ← List.take_add]
    · rw [final_cons, receive, hdrain, hfinal]
    · rw [hlast, List.drop_drop]

/-- A stream that ends with its last message is delivered whole. -/
theorem run_receive_whole {messages : List (List α)}
    (hmessages : ∀ message ∈ messages, framer.Recognizes message) {reads : List (List α)}
    (hstream : reads.flatten = messages.flatten) :
    (outputs framer.receive (some []) reads).flatten = messages ∧
      final framer.receive (some []) reads = some [] := by
  obtain ⟨k, rest, houtputs, hfinal, hleft, hneed⟩ :=
    run_receive hmessages framer.frame_nil
      (by rw [List.nil_append, List.append_nil, hstream])
  rw [List.append_nil] at hleft
  cases hdrop : messages.drop k with
  | nil =>
    rw [hdrop] at hleft
    rw [houtputs, hfinal, hleft, List.take_of_length_le (List.drop_eq_nil_iff.mp hdrop)]
    exact ⟨rfl, rfl⟩
  | cons message others =>
    have hmem : message ∈ messages := List.mem_of_mem_drop (hdrop ▸ List.mem_cons_self)
    rw [hleft, hdrop, List.flatten_cons, (hmessages message hmem).ready] at hneed
    exact nomatch hneed

/-! ### Any stream -/

-- later octets change no finding
variable (hdecided : ∀ head tail, framer.frame head ≠ .need →
  framer.frame (head ++ tail) = framer.frame head)

include hdecided

/-- Draining a stream is draining its beginning and then the rest behind what that leaves. -/
theorem drain_append (buffer tail : List α) :
    framer.drain (buffer ++ tail) =
      ((framer.drain buffer).1 ++ (framer.receive (framer.drain buffer).2 tail).1,
        (framer.receive (framer.drain buffer).2 tail).2) := by
  have hkeeps := hdecided buffer tail
  cases hframe : framer.frame buffer with
  | need =>
    rw [framer.drain_of_need hframe]
    rfl
  | invalid =>
    rw [drain, drain]
    split <;> split <;> simp_all [receive]
  | ready length =>
    have hpos := framer.pos_of_ready hframe
    have hle := framer.le_of_ready hframe
    rw [hframe] at hkeeps
    rw [framer.drain_of_ready (hkeeps nofun), framer.drain_of_ready hframe,
      List.drop_append_of_le_length hle, List.take_append_of_le_length hle, drain_append]
    rfl
termination_by buffer.length
decreasing_by
  rw [List.length_drop]
  omega

/-- The connection delivers what draining the whole stream would, however that is cut. -/
theorem run_eq_drain (buffer : List α) (reads : List (List α)) :
    ((framer.drain buffer).1 ++ (outputs framer.receive (framer.drain buffer).2 reads).flatten,
      final framer.receive (framer.drain buffer).2 reads) =
      framer.drain (buffer ++ reads.flatten) := by
  induction reads generalizing buffer with
  | nil => simp [outputs_nil]
  | cons chunk reads ih =>
    rw [List.flatten_cons, ← List.append_assoc, ← ih, drain_append hdecided buffer chunk,
      outputs_cons, final_cons, List.flatten_cons, List.append_assoc]

end Framer

end SiphonRtp.Machine
