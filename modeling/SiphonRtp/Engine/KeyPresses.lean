import SiphonRtp.Datapath.Dispatch
import Mathlib.Data.List.Nodup

/-!
# Key presses forwarded in a room

`Conference::forward_telephone_event` of `siphon-rtp-engine/src/conference/dtmf_forward.rs`, with
the egress half of `MediaLeg` (`siphon-rtp-media/src/leg.rs`) and the two steps of a room that move
it: a telephone-event packet that has passed the gate of its seat, and a tick of the mix. What the
encoders make of the mix is an input of a tick.

A receiver remembers one event. What it is sent depends only on the order in which events come and
on its audio clock when they come (`heard_eq`), and this list is judged on its own (`keeps_iff`).
-/

set_option autoImplicit false

namespace SiphonRtp.Engine.KeyPresses

open Machine Datapath

/-! ### The egress stream of a seat -/

/-- The negotiated format of a seat's telephone-events. -/
structure TelephoneEvent where
  payloadType : UInt8
  clockRateHz : ℕ
deriving DecidableEq

structure RtpHeader where
  marker : Bool
  payloadType : UInt8
  sequence : BitVec 16
  timestamp : BitVec 32
  ssrc : BitVec 32
deriving DecidableEq

structure RtpPacket where
  header : RtpHeader
  payload : Bytes
deriving DecidableEq

/-- The room's buffer for one packet, and the RTP header in it. -/
def maxRtp : ℕ := 1500

def fixedHeaderLen : ℕ := 12

/-- `write_packet`, into the room's buffer. -/
def writePacket (header : RtpHeader) (payload : Bytes) : Option RtpPacket :=
  if maxRtp < fixedHeaderLen + payload.length then none else some ⟨header, payload⟩

structure MediaLeg where
  egressPayloadType : UInt8
  egressSequence : BitVec 16
  egressTimestamp : BitVec 32
  egressTimestampIncrement : BitVec 32
  egressSsrc : BitVec 32
  egressPackets : BitVec 32
  egressOctets : BitVec 32
deriving DecidableEq

def MediaLeg.packetize (leg : MediaLeg) (payload : Bytes) (marker : Bool) :
    Option (RtpPacket × MediaLeg) :=
  (writePacket ⟨marker, leg.egressPayloadType, leg.egressSequence, leg.egressTimestamp,
    leg.egressSsrc⟩ payload).map fun packet ↦
      (packet, { leg with
        egressSequence := leg.egressSequence + 1
        egressTimestamp := leg.egressTimestamp + leg.egressTimestampIncrement
        egressPackets := leg.egressPackets + 1
        egressOctets := leg.egressOctets + BitVec.ofNat 32 payload.length })

/-- The audio clock stays: the event carries the timestamp it is given. -/
def MediaLeg.packetizeEvent (leg : MediaLeg) (payload : Bytes) (payloadType : UInt8)
    (timestamp : BitVec 32) (marker : Bool) : Option (RtpPacket × MediaLeg) :=
  (writePacket ⟨marker, payloadType, leg.egressSequence, timestamp, leg.egressSsrc⟩ payload).map
    fun packet ↦
      (packet, { leg with
        egressSequence := leg.egressSequence + 1
        egressPackets := leg.egressPackets + 1
        egressOctets := leg.egressOctets + BitVec.ofNat 32 payload.length })

def MediaLeg.skipEgressFrame (leg : MediaLeg) : MediaLeg :=
  { leg with egressTimestamp := leg.egressTimestamp + leg.egressTimestampIncrement }

/-! ### The seats -/

inductive ConferenceDtmf
  | events
  | forward
deriving DecidableEq

/-- The event a seat is being sent on behalf of another. -/
structure ForwardedEvent where
  source : EndpointId
  sourceTimestamp : BitVec 32
  baseTimestamp : BitVec 32
deriving DecidableEq

/-- A seat, with its SRTP session if it is a secure one. -/
structure Participant (σ : Type) where
  ingressEndpoint : EndpointId
  egressEndpoint : EndpointId
  egressDst : SocketAddr
  leg : MediaLeg
  started : Bool
  telephoneEvent : Option TelephoneEvent
  egressClockHz : ℕ
  dtmfMode : ConferenceDtmf
  forwarded : Option ForwardedEvent
  securePending : Bool
  icePending : Bool
  secure : Option σ
  blocked : Bool
  silenced : Bool

structure Outbound where
  endpoint : EndpointId
  dst : SocketAddr
  data : RtpPacket
deriving DecidableEq

def destinationUsable : SocketAddr → Bool
  | .v4 ip port => decide (ip ≠ 0 ∧ port ≠ 0)
  | .v6 ip port _ _ => decide (ip ≠ 0 ∧ port ≠ 0)

/-- Why a seat is sent no forwarded event. -/
inductive SkipReason
  | notNegotiated
  | otherClock
  | pending
  | blockedOrSilenced
  | noDestination
deriving DecidableEq

variable {σ : Type}

def skipReason (target : Participant σ) : Option SkipReason :=
  match target.telephoneEvent with
  | none => some .notNegotiated
  | some event =>
    if event.clockRateHz ≠ target.egressClockHz then some .otherClock
    else if target.securePending || target.icePending then some .pending
    else if target.blocked || target.silenced then some .blockedOrSilenced
    else if !destinationUsable target.egressDst then some .noDestination
    else none

/-! ### Sending -/

section Room

-- SRTP leaves the RTP header in the clear. The model keeps the packet itself and whether it could
-- be protected.
variable (protect : σ → RtpPacket → Bool × σ)

/-- The wire packet of a seat: as it is for a plain one, protected for a secure one. -/
def secureFor (target : Participant σ) (packet : RtpPacket) : Option Outbound × Participant σ :=
  let outbound : Outbound := ⟨target.egressEndpoint, target.egressDst, packet⟩
  match target.secure with
  | none => (some outbound, target)
  | some keys =>
    (if (protect keys packet).1 then some outbound else none,
      { target with secure := some (protect keys packet).2 })

/-- `Conference::emit`. -/
def emit (seat : Participant σ) (payload : Bytes) : Option Outbound × Participant σ :=
  if seat.securePending || seat.icePending then (none, seat)
  else if seat.blocked || payload.isEmpty then
    (none, { seat with leg := seat.leg.skipEgressFrame })
  else
    match seat.leg.packetize payload (!seat.started) with
    | none => (none, seat)
    | some (packet, leg) =>
      match secureFor protect { seat with leg } packet with
      | (none, seat) => (none, seat)
      | (some outbound, seat) => (some outbound, { seat with started := true })

def emitAll : Participant σ → List Bytes → List Outbound × Participant σ
  | seat, [] => ([], seat)
  | seat, payload :: rest =>
    let sent := emit protect seat payload
    let more := emitAll sent.2 rest
    (sent.1.toList ++ more.1, more.2)

/-- The egress pass of a tick for one seat. -/
def tickSeat (seat : Participant σ) (payloads : List Bytes) : List Outbound × Participant σ :=
  if destinationUsable seat.egressDst then emitAll protect seat payloads else ([], seat)

def maxEventPayload : ℕ := 16

def eventBlockLen : ℕ := 4

/-- The durations of the blocks in another clock. -/
def rescaleBlocks (fromHz toHz : ℕ) : Bytes → Bytes
  | event :: flags :: high :: low :: rest =>
    let scaled := min ((high.toNat * 256 + low.toNat) * toHz / fromHz) 0xFFFF
    event :: flags :: UInt8.ofNat (scaled / 256) :: UInt8.ofNat scaled ::
      rescaleBlocks fromHz toHz rest
  | rest => rest

def rescaleEvent (payload : Bytes) (fromHz toHz : ℕ) : Bytes :=
  if fromHz = 0 ∨ fromHz = toHz then payload else rescaleBlocks fromHz toHz payload

/-- A telephone-event packet to be forwarded: the seat it comes from and what it carries. -/
structure SourceEvent where
  index : ℕ
  source : EndpointId
  clockRateHz : ℕ
  timestamp : BitVec 32
  payload : Bytes
deriving DecidableEq

/-- The event of a seat after a packet, and whether the packet starts it. -/
def ForwardedEvent.follow (target : Participant σ) (event : SourceEvent) : ForwardedEvent × Bool :=
  let fresh : ForwardedEvent × Bool :=
    (⟨event.source, event.timestamp, target.leg.egressTimestamp⟩, true)
  match target.forwarded with
  | none => fresh
  | some state =>
    if state.source = event.source ∧ state.sourceTimestamp = event.timestamp then (state, false)
    else fresh

/-- The pass of `forward_telephone_event` for one target. -/
def forwardTo (event : SourceEvent) (target : Participant σ) : List Outbound × Participant σ :=
  if (skipReason target).isSome then ([], target)
  else
    match target.telephoneEvent with
    | none => ([], target)
    | some targetEvent =>
      let (state, first) := ForwardedEvent.follow target event
      let target := { target with forwarded := some state }
      let payload := rescaleEvent event.payload event.clockRateHz targetEvent.clockRateHz
      match target.leg.packetizeEvent payload targetEvent.payloadType state.baseTimestamp first with
      | none => ([], target)
      | some (packet, leg) =>
        let sent := secureFor protect { target with leg } packet
        (sent.1.toList, sent.2)

/-! ### The steps of a room -/

/-- A packet carries where the gate leaves its seat to be answered. -/
inductive Input
  | packet (endpoint : EndpointId) (latched : SocketAddr) (payloadType : UInt8)
      (timestamp : BitVec 32) (payload : Bytes)
  | tick (payloads : ℕ → List Bytes)

/-- The first seat of an endpoint, with the destination the gate gives it. -/
def latch (room : List (Participant σ)) (endpoint : EndpointId) (latched : SocketAddr) :
    List (Participant σ) :=
  room.modify (room.findIdx (·.ingressEndpoint = endpoint)) fun seat ↦
    { seat with egressDst := latched }

/-- What `ingest` hands to `forward_telephone_event`, cut to its whole blocks. -/
def eventOf (room : List (Participant σ)) : Input → Option SourceEvent
  | .tick _ => none
  | .packet endpoint _ payloadType timestamp payload =>
    let index := room.findIdx (·.ingressEndpoint = endpoint)
    match room[index]? with
    | none => none
    | some seat =>
      match seat.telephoneEvent with
      | none => none
      | some event =>
        if event.payloadType = payloadType ∧ seat.dtmfMode = .forward then
          let block := payload.take maxEventPayload
          let whole := block.length / eventBlockLen * eventBlockLen
          let payload := block.take (min whole maxEventPayload)
          if payload.isEmpty then none
          else some ⟨index, seat.ingressEndpoint, event.clockRateHz, timestamp, payload⟩
        else none

/-- What each seat is sent, by its index, and the room afterwards. -/
def step (room : List (Participant σ)) (input : Input) :
    List (List Outbound) × List (Participant σ) :=
  let served :=
    match input with
    | .tick payloads => room.mapIdx fun index seat ↦ tickSeat protect seat (payloads index)
    | .packet endpoint latched _ _ _ =>
      let event := eventOf room input
      (latch room endpoint latched).mapIdx fun index target ↦
        match event with
        | none => ([], target)
        | some event => if index = event.index then ([], target) else forwardTo protect event target
  (served.map Prod.fst, served.map Prod.snd)

end Room

/-! ### What a receiver makes of the events that come its way -/

/-- A key press: the endpoint of its seat and the timestamp its packets carry. -/
abbrev Event := EndpointId × BitVec 32

/-- A packet of an event on its way to a seat whose audio clock stands somewhere. -/
structure Press where
  event : Event
  clock : BitVec 32
deriving DecidableEq

/-- A packet of an event as a seat is sent it. -/
structure Heard where
  event : Event
  timestamp : BitVec 32
  marker : Bool
deriving DecidableEq

/-- The start of the event a packet belongs to for a receiver that remembers one start, and whether
the packet is taken for it. -/
def Press.follow (current : Option Press) (press : Press) : Press × Bool :=
  match current with
  | none => (press, true)
  | some start => if start.event = press.event then (start, false) else (press, true)

def hear : Option Press → List Press → List Heard
  | _, [] => []
  | current, press :: rest =>
    let (start, first) := press.follow current
    ⟨start.event, start.clock, first⟩ :: hear (some start) rest

/-- The packets taken for the start of an event: those that follow one of another event. -/
def starts : Option Press → List Press → List Press
  | _, [] => []
  | current, press :: rest =>
    let (start, first) := press.follow current
    if first then start :: starts (some start) rest else starts (some start) rest

/-- No event is taken up again after another, and no two start at one reading of the clock. -/
def Orderly (presses : List Press) : Prop :=
  ((starts none presses).map Press.event).Nodup ∧ ((starts none presses).map Press.clock).Nodup

/-- One timestamp for each event and one event for each timestamp, with the marker on the first
packet of an event and on no other. -/
structure OneEventEach (heard : List Heard) : Prop where
  timestamp : ∀ a ∈ heard, ∀ b ∈ heard, (a.event = b.event ↔ a.timestamp = b.timestamp)
  marker : ∀ before packet after, heard = before ++ packet :: after →
    (packet.marker = true ↔ ∀ earlier ∈ before, earlier.event ≠ packet.event)

/-- The start a packet is heard with. -/
def Heard.start (heard : Heard) : Press := ⟨heard.event, heard.timestamp⟩

theorem Press.follow_cases (current : Option Press) (press : Press) :
    press.follow current = (press, true) ∧ (∀ start ∈ current, start.event ≠ press.event) ∨
      ∃ start, current = some start ∧ start.event = press.event ∧
        press.follow current = (start, false) := by
  rcases current with _ | start
  · exact Or.inl ⟨rfl, by simp⟩
  · by_cases hsame : start.event = press.event
    · exact Or.inr ⟨start, rfl, hsame, if_pos hsame⟩
    · exact Or.inl ⟨if_neg hsame, by simpa using hsame⟩

theorem Press.event_follow (current : Option Press) (press : Press) :
    (press.follow current).1.event = press.event := by
  rcases press.follow_cases current with ⟨hfollow, -⟩ | ⟨start, -, hsame, hfollow⟩
  · rw [hfollow]
  · rw [hfollow, hsame]

theorem starts_eq_filter (current : Option Press) (presses : List Press) :
    starts current presses =
      ((hear current presses).filter Heard.marker).map Heard.start := by
  induction presses generalizing current with
  | nil => rfl
  | cons press rest ih =>
    rcases hfollow : press.follow current with ⟨start, first⟩
    cases first <;> simp [starts, hear, hfollow, ih, Heard.start]

/-- Every packet is heard with the start remembered at first or with a later one. -/
theorem start_mem_of_heard {current : Option Press} {presses : List Press} {heard : Heard}
    (hheard : heard ∈ hear current presses) :
    heard.start ∈ current.toList ++ starts current presses := by
  induction presses generalizing current with
  | nil => simp [hear] at hheard
  | cons press rest ih =>
    rcases press.follow_cases current with ⟨hfollow, _⟩ | ⟨start, rfl, _, hfollow⟩
    · simp only [hear, starts, hfollow, List.mem_cons] at hheard ⊢
      rcases hheard with rfl | hheard
      · exact List.mem_append_right _ List.mem_cons_self
      · exact List.mem_append_right _ (ih hheard)
    · simp only [hear, starts, hfollow, List.mem_cons] at hheard ⊢
      rcases hheard with rfl | hheard
      · simp [Heard.start]
      · simpa using ih hheard

theorem marker_iff_of_nodup {current : Option Press} {presses : List Press}
    (hnodup : ((current.toList ++ starts current presses).map Press.event).Nodup)
    {before after : List Heard} {packet : Heard}
    (hsplit : hear current presses = before ++ packet :: after) :
    packet.marker = true ↔ packet.event ∉ current.toList.map Press.event ++
      before.map Heard.event := by
  induction presses generalizing current before with
  | nil => simp [hear] at hsplit
  | cons press rest ih =>
    rcases press.follow_cases current with ⟨hfollow, hother⟩ | ⟨start, rfl, hsame, hfollow⟩
    · simp only [hear, starts, hfollow] at hsplit hnodup
      have hrest : ((some press).toList ++ starts (some press) rest |>.map Press.event).Nodup := by
        simp only [List.map_append] at hnodup
        simpa using (List.nodup_append.mp hnodup).2.1
      rcases before with _ | ⟨head, before⟩
      · obtain ⟨rfl, -⟩ := List.cons.inj hsplit
        rcases current with _ | start
        · simp
        · simpa using Ne.symm (hother start rfl)
      · obtain ⟨rfl, htail⟩ := List.cons.inj hsplit
        -- What is heard from here on starts here or later, so it is of no event remembered before.
        have hnew : packet.event ∉ current.toList.map Press.event := by
          have hstart : packet.start ∈ press :: starts (some press) rest := by
            simpa using start_mem_of_heard (by rw [htail]; simp : packet ∈ hear (some press) rest)
          intro hold
          rw [List.map_append] at hnodup
          exact (List.nodup_append.mp hnodup).2.2 _ hold _
            (List.mem_map_of_mem hstart : packet.start.event ∈ _) rfl
        rw [ih hrest htail]
        simp [hnew]
    · simp only [hear, starts, hfollow] at hsplit hnodup
      rcases before with _ | ⟨head, before⟩
      · obtain ⟨rfl, -⟩ := List.cons.inj hsplit
        simp
      · obtain ⟨rfl, htail⟩ := List.cons.inj hsplit
        rw [ih (by simpa using hnodup) htail]
        simp

theorem OneEventEach.pairwise {heard : List Heard} (hone : OneEventEach heard) :
    heard.Pairwise fun earlier packet ↦
      packet.marker = true →
        earlier.event ≠ packet.event ∧ earlier.timestamp ≠ packet.timestamp := by
  rw [List.pairwise_iff_getElem]
  intro i j hi hj hij hmarker
  have hsplit : heard = heard.take j ++ heard[j] :: heard.drop (j + 1) := by simp
  have hearlier : heard[i] ∈ heard.take j := List.mem_take_iff_getElem.mpr ⟨i, by omega, rfl⟩
  have hne := (hone.marker _ _ _ hsplit).mp hmarker _ hearlier
  exact ⟨hne, fun hsame ↦ hne ((hone.timestamp _ (List.getElem_mem hi) _
    (List.getElem_mem hj)).mpr hsame)⟩

/-- A receiver that remembers one event keeps every event whole exactly if none is taken up again
after another and no two start at one reading of its clock. -/
theorem keeps_iff (presses : List Press) : OneEventEach (hear none presses) ↔ Orderly presses := by
  constructor
  · intro hone
    simp only [Orderly, starts_eq_filter, List.Nodup, List.pairwise_map, List.pairwise_filter]
    exact ⟨hone.pairwise.imp fun hapart _ hmarker ↦ (hapart hmarker).1,
      hone.pairwise.imp fun hapart _ hmarker ↦ (hapart hmarker).2⟩
  · rintro ⟨hevents, hclocks⟩
    constructor
    · intro a ha b hb
      have hstart : ∀ packet ∈ hear none presses, packet.start ∈ starts none presses :=
        fun packet hpacket ↦ by simpa using start_mem_of_heard hpacket
      constructor
      · intro hsame
        exact congrArg Press.clock
          (List.inj_on_of_nodup_map hevents (hstart a ha) (hstart b hb) hsame)
      · intro hsame
        exact congrArg Press.event
          (List.inj_on_of_nodup_map hclocks (hstart a ha) (hstart b hb) hsame)
    · intro before packet after hsplit
      rw [marker_iff_of_nodup (by simpa using hevents) hsplit]
      simp

/-! ### Runs of a room -/

section Runs

variable (protect : σ → RtpPacket → Bool × σ)

/-- The packet of an event that a step has on its way to a seat that can take it. -/
def pressAt (index : ℕ) (room : List (Participant σ)) (input : Input) : Option Press :=
  match eventOf room input, room[index]? with
  | some event, some target =>
    if index = event.index ∨ (skipReason target).isSome then none
    else some ⟨(event.source, event.timestamp), target.leg.egressTimestamp⟩
  | _, _ => none

/-- The packet of an event that a seat is sent in a step. -/
def heardAt (index : ℕ) (input : Input) (sent : List (List Outbound)) : Option Heard :=
  match input with
  | .tick _ => none
  | .packet endpoint _ _ timestamp _ =>
    ((sent[index]?).bind List.head?).map fun outbound ↦
      ⟨(endpoint, timestamp), outbound.data.header.timestamp, outbound.data.header.marker⟩

def presses (index : ℕ) : List (Participant σ) → List Input → List Press
  | _, [] => []
  | room, input :: rest =>
    (pressAt index room input).toList ++ presses index (step protect room input).2 rest

def heard (index : ℕ) (room : List (Participant σ)) (inputs : List Input) : List Heard :=
  (trace (step protect) room inputs).filterMap fun entry ↦ heardAt index entry.1 entry.2

/-- The start a seat remembers. -/
def Participant.current (seat : Participant σ) : Option Press :=
  seat.forwarded.map fun state ↦ ⟨(state.source, state.sourceTimestamp), state.baseTimestamp⟩

variable {protect} {room : List (Participant σ)} {index : ℕ} {seat : Participant σ}

theorem forwarded_secureFor (target : Participant σ) (packet : RtpPacket) :
    (secureFor protect target packet).2.forwarded = target.forwarded := by
  unfold secureFor
  split <;> rfl

theorem forwarded_emit (seat : Participant σ) (payload : Bytes) :
    (emit protect seat payload).2.forwarded = seat.forwarded := by
  unfold emit
  split
  · rfl
  split
  · rfl
  split
  · rfl
  · rename_i packet leg _
    have hkept : (secureFor protect { seat with leg } packet).2.forwarded = seat.forwarded :=
      forwarded_secureFor _ packet
    split
    next later hsecure =>
      rw [hsecure] at hkept
      exact hkept
    next outbound later hsecure =>
      rw [hsecure] at hkept
      exact hkept

theorem forwarded_emitAll (seat : Participant σ) (payloads : List Bytes) :
    (emitAll protect seat payloads).2.forwarded = seat.forwarded := by
  induction payloads generalizing seat with
  | nil => rfl
  | cons payload rest ih => exact (ih _).trans (forwarded_emit seat payload)

theorem forwarded_tickSeat (seat : Participant σ) (payloads : List Bytes) :
    (tickSeat protect seat payloads).2.forwarded = seat.forwarded := by
  unfold tickSeat
  split
  · exact forwarded_emitAll seat payloads
  · rfl

theorem secureFor_sent (hprotects : ∀ keys packet, (protect keys packet).1 = true)
    (target : Participant σ) (packet : RtpPacket) :
    (secureFor protect target packet).1 =
      some ⟨target.egressEndpoint, target.egressDst, packet⟩ := by
  unfold secureFor
  split
  · rfl
  · simp [hprotects]

theorem length_rescaleBlocks (fromHz toHz : ℕ) (payload : Bytes) :
    (rescaleBlocks fromHz toHz payload).length = payload.length := by
  fun_induction rescaleBlocks fromHz toHz payload with
  | case1 event flags high low rest scaled ih => simp [ih]
  | case2 rest _ => rfl

theorem length_rescaleEvent (payload : Bytes) (fromHz toHz : ℕ) :
    (rescaleEvent payload fromHz toHz).length = payload.length := by
  unfold rescaleEvent
  split
  · rfl
  · exact length_rescaleBlocks fromHz toHz payload

theorem follow_current (target : Participant σ) (event : SourceEvent) :
    let (state, first) := ForwardedEvent.follow target event
    Press.follow target.current
        ⟨(event.source, event.timestamp), target.leg.egressTimestamp⟩ =
      (⟨(state.source, state.sourceTimestamp), state.baseTimestamp⟩, first) := by
  unfold ForwardedEvent.follow Participant.current
  cases target.forwarded with
  | none => rfl
  | some state =>
    simp only [Option.map_some, Press.follow, Prod.mk.injEq]
    by_cases hsame : state.source = event.source ∧ state.sourceTimestamp = event.timestamp
    · rw [if_pos hsame, if_pos hsame]
    · rw [if_neg hsame, if_neg hsame]

theorem telephoneEvent_of_eligible {target : Participant σ}
    (heligible : (skipReason target).isSome = false) :
    ∃ event, target.telephoneEvent = some event := by
  unfold skipReason at heligible
  split at heligible
  · cases heligible
  · exact ⟨_, ‹_›⟩

/-- A seat that can take an event is sent its packet, stamped as its memory of one event says. -/
theorem forwardTo_eligible (hprotects : ∀ keys packet, (protect keys packet).1 = true)
    {event : SourceEvent} {target : Participant σ}
    (hlength : event.payload.length ≤ maxEventPayload)
    (heligible : (skipReason target).isSome = false) :
    let followed := Press.follow target.current
      ⟨(event.source, event.timestamp), target.leg.egressTimestamp⟩
    (∃ outbound, (forwardTo protect event target).1 = [outbound] ∧
      outbound.data.header.timestamp = followed.1.clock ∧
      outbound.data.header.marker = followed.2) ∧
    (forwardTo protect event target).2.current = some followed.1 := by
  obtain ⟨targetEvent, htarget⟩ := telephoneEvent_of_eligible heligible
  have hfollow := follow_current target event
  rcases hstate : ForwardedEvent.follow target event with ⟨state, first⟩
  have hfits : ¬ maxRtp < fixedHeaderLen +
      (rescaleEvent event.payload event.clockRateHz targetEvent.clockRateHz).length := by
    rw [length_rescaleEvent]
    unfold maxEventPayload at hlength
    unfold maxRtp fixedHeaderLen
    omega
  simp only [hfollow, forwardTo, heligible, htarget, hstate, MediaLeg.packetizeEvent, writePacket,
    if_neg hfits, secureFor_sent hprotects]
  refine ⟨⟨_, rfl, rfl, rfl⟩, ?_⟩
  simp [Participant.current, forwarded_secureFor]

/-- The event of a packet names the packet's own endpoint and timestamp. -/
theorem eventOf_packet {endpoint : EndpointId} {latched : SocketAddr} {payloadType : UInt8}
    {timestamp : BitVec 32} {payload : Bytes} {event : SourceEvent}
    (hevent : eventOf room (.packet endpoint latched payloadType timestamp payload) = some event) :
    event.index = room.findIdx (·.ingressEndpoint = endpoint) ∧ event.source = endpoint ∧
      event.timestamp = timestamp ∧ event.payload.length ≤ maxEventPayload := by
  dsimp only [eventOf] at hevent
  repeat' split at hevent
  all_goals cases hevent
  rename_i seat hseat _ _ _ _ _
  obtain ⟨hbound, hget⟩ := List.getElem?_eq_some_iff.mp hseat
  have hfound := List.findIdx_getElem (w := hbound)
  rw [hget] at hfound
  exact ⟨rfl, of_decide_eq_true hfound, rfl, by simp⟩

theorem getElem?_latch (endpoint : EndpointId) (latched : SocketAddr)
    (hseat : room[index]? = some seat) :
    ∃ next, (latch room endpoint latched)[index]? = some next ∧
      next.current = seat.current ∧
      (index ≠ room.findIdx (·.ingressEndpoint = endpoint) → next = seat) := by
  unfold latch
  rw [List.getElem?_modify, hseat]
  split
  · exact ⟨_, rfl, rfl, fun hne ↦ absurd (Eq.symm ‹_›) hne⟩
  · exact ⟨seat, rfl, rfl, fun _ ↦ rfl⟩

/-- What a step does for one seat: it is sent a packet of an event exactly when one is on its way.
-/
theorem step_seat (hprotects : ∀ keys packet, (protect keys packet).1 = true)
    (hseat : room[index]? = some seat) (input : Input) :
    ∃ next, (step protect room input).2[index]? = some next ∧
      match pressAt index room input with
      | none => heardAt index input (step protect room input).1 = none ∧
          next.current = seat.current
      | some press =>
          heardAt index input (step protect room input).1 =
            some ⟨(press.follow seat.current).1.event, (press.follow seat.current).1.clock,
              (press.follow seat.current).2⟩ ∧
          next.current = some (press.follow seat.current).1 := by
  cases input with
  | tick payloads =>
    have hnext : (step protect room (.tick payloads)).2[index]? =
        some (tickSeat protect seat (payloads index)).2 := by
      simp [step, hseat]
    exact ⟨_, hnext, rfl, congrArg (Option.map _) (forwarded_tickSeat seat (payloads index))⟩
  | packet endpoint latched payloadType timestamp payload =>
    obtain ⟨target, htarget, hcurrent, hsame⟩ := getElem?_latch endpoint latched hseat
    rcases hevent : eventOf room (.packet endpoint latched payloadType timestamp payload) with
      _ | event
    · refine ⟨target, by simp [step, hevent, htarget], ?_⟩
      simp [pressAt, heardAt, step, hevent, htarget, hcurrent]
    · obtain ⟨hindex, hsource, htimestamp, hlength⟩ := eventOf_packet hevent
      by_cases hown : index = event.index
      · subst hown
        refine ⟨target, by simp [step, hevent, htarget], ?_⟩
        simp [pressAt, heardAt, step, hevent, hseat, htarget, hcurrent]
      obtain rfl := hsame (hindex ▸ hown)
      refine ⟨(forwardTo protect event target).2, by simp [step, hevent, htarget, hown], ?_⟩
      rcases hskip : (skipReason target).isSome with _ | _
      · obtain ⟨⟨outbound, hsent, hclock, hmarker⟩, hnext⟩ :=
          forwardTo_eligible hprotects hlength hskip
        have hnamed := (Press.event_follow target.current ⟨(event.source, event.timestamp),
          target.leg.egressTimestamp⟩).trans
            (by rw [hsource, htimestamp] : _ = (endpoint, timestamp))
        simp [pressAt, heardAt, step, hevent, hseat, htarget, hown, hskip, hsent, hclock, hmarker,
          hnext, hnamed]
      · simp [pressAt, heardAt, step, hevent, hseat, htarget, hskip, forwardTo]

/-- What a seat hears of a run depends on what is on its way to it alone. -/
theorem heard_eq (hprotects : ∀ keys packet, (protect keys packet).1 = true)
    (hseat : room[index]? = some seat) (inputs : List Input) :
    heard protect index room inputs = hear seat.current (presses protect index room inputs) := by
  induction inputs generalizing room seat with
  | nil => rfl
  | cons input rest ih =>
    obtain ⟨next, hnext, hstep⟩ := step_seat hprotects hseat input
    have hrest := ih hnext
    unfold heard at hrest
    rcases hpress : pressAt index room input with _ | press
    · rw [hpress] at hstep
      simp [heard, presses, hpress, hstep.1, hrest, hstep.2]
    · rw [hpress] at hstep
      simp [heard, presses, hpress, hstep.1, hrest, hstep.2, hear]

theorem event_hear (current : Option Press) (list : List Press) :
    (hear current list).map Heard.event = list.map Press.event := by
  induction list generalizing current with
  | nil => rfl
  | cons press rest ih => simp [hear, ih, Press.event_follow]

/-- When key presses stay whole. Assumes: a seat that joins with no event in progress, and whose
packets are never refused protection. Every packet of an event that comes while the seat can take it
reaches the seat, and each event stays one if and only if, among the events on their way to the
seat, none is taken up again after another and no two start at one reading of its audio clock. -/
theorem key_presses_stay_whole_iff (hprotects : ∀ keys packet, (protect keys packet).1 = true)
    (hseat : room[index]? = some seat) (hfresh : seat.forwarded = none) (inputs : List Input) :
    (heard protect index room inputs).map Heard.event =
        (presses protect index room inputs).map Press.event ∧
      (OneEventEach (heard protect index room inputs) ↔
        Orderly (presses protect index room inputs)) := by
  have hcurrent : seat.current = none := by simp [Participant.current, hfresh]
  rw [heard_eq hprotects hseat, hcurrent]
  exact ⟨event_hear none _, keeps_iff _⟩

end Runs

/-! ### Three seats -/

/-- A plain seat on G.711 that forwards its key presses, with its clock at zero. -/
def plainSeat (endpoint : EndpointId) : Participant Unit where
  ingressEndpoint := endpoint
  egressEndpoint := endpoint
  egressDst := .v4 0x0A000001 4000
  leg := ⟨0, 0, 0, 160, 7, 0, 0⟩
  started := false
  telephoneEvent := some ⟨101, 8000⟩
  egressClockHz := 8000
  dtmfMode := .forward
  forwarded := none
  securePending := false
  icePending := false
  secure := none
  blocked := false
  silenced := false

def threeSeats : List (Participant Unit) := [plainSeat 1, plainSeat 2, plainSeat 3]

/-- A packet of an event of a seat. -/
def keyPacket (endpoint : EndpointId) (timestamp : BitVec 32) : Input :=
  .packet endpoint (.v4 0x0A000001 4000) 101 timestamp [5, 10, 0, 160]

/-- A tick in which every seat is sent one frame. -/
def oneFrame : Input := .tick fun _ ↦ [[0xFF]]

def always (_ : Unit) (_ : RtpPacket) : Bool × Unit := (true, ())

/-- One key after another, with ticks between. -/
def oneByOne : List Input :=
  [keyPacket 1 1000, oneFrame, keyPacket 1 1000, oneFrame, keyPacket 2 5]

/-- The third seat hears each of them as one event. -/
theorem key_presses_stay_whole_one_by_one : OneEventEach (heard always 2 threeSeats oneByOne) := by
  have hiff : OneEventEach (heard always 2 threeSeats oneByOne) ↔
      Orderly (presses always 2 threeSeats oneByOne) :=
    (key_presses_stay_whole_iff (fun _ _ ↦ rfl)
      (rfl : threeSeats[2]? = some (plainSeat 3)) rfl oneByOne).2
  rw [hiff, Orderly]
  decide

/-- Two keys held at once: the second packet of the first event comes with a new timestamp and a
second marker. Two keys pressed within one tick: both events have one timestamp. -/
theorem held_keys_are_torn :
    ¬ OneEventEach (heard always 2 threeSeats
        [keyPacket 1 1000, oneFrame, keyPacket 2 5, oneFrame, keyPacket 1 1000]) ∧
      ¬ OneEventEach (heard always 2 threeSeats [keyPacket 1 1000, keyPacket 2 5]) := by
  constructor
  · have hheard : heard always 2 threeSeats
        [keyPacket 1 1000, oneFrame, keyPacket 2 5, oneFrame, keyPacket 1 1000] =
          [⟨(1, 1000), 0, true⟩, ⟨(2, 5), 160, true⟩, ⟨(1, 1000), 320, true⟩] := by decide
    rw [hheard]
    intro hone
    have := (hone.timestamp _ (.head _) ⟨(1, 1000), 320, true⟩ (by simp)).mp rfl
    simp at this
  · have hheard : heard always 2 threeSeats [keyPacket 1 1000, keyPacket 2 5] =
        [⟨(1, 1000), 0, true⟩, ⟨(2, 5), 0, true⟩] := by decide
    rw [hheard]
    intro hone
    have := (hone.timestamp _ (.head _) ⟨(2, 5), 0, true⟩ (by simp)).mpr rfl
    simp at this

end SiphonRtp.Engine.KeyPresses
