import SiphonRtp.Engine.FloorProtection
import SiphonRtp.Engine.ReplyLatch

/-!
# The floor stream of a call

One party's floor-control stream as `CallFloors` of `siphon-rtp-engine/src/call_floor.rs` keeps it:
its registration, the replacement of its keys, the ingress of a datagram, and the packets the
controller sends on it. A forwarding room's floor stream runs the same code on the same two fields,
`set_floor_keys` of `forward/room/app.rs` and `admit` of `floor_srtcp.rs`. The RTCP APP packets that
both ends read and write are those of `siphon-rtp-media/src/rtcp.rs`.

The actor's mailbox, the tables that find a leg by its endpoint or by its call and tag, the
controller's event queue and the logging are left out: a stream is a leg or its absence, and what is
raised is the list of APP packets.

What each call can do to a leg is listed once: `FloorLeg.setKeys_cases`, `FloorLeg.ingest_cases` and
`FloorLeg.build_cases`. A datagram that is refused changes a counter at most, and a keyed leg takes
only what it opens and sends only what it seals (`FloorLeg.ingest_of_keyed`,
`FloorLeg.build_of_keyed`).
-/

set_option autoImplicit false

namespace SiphonRtp.Engine

open Machine Datapath Srtp

/-! ### RTCP APP packets -/

/-- One RTCP APP packet, its padding removed. -/
structure AppPacket where
  subtype : UInt8
  ssrc : UInt32
  name : Vector UInt8 4
  data : Bytes
deriving DecidableEq

inductive RtcpError
  | tooShort
  | badVersion (version : UInt8)
  | badLength
  | badPadding
deriving DecidableEq

def packetTypeApp : UInt8 := 204

/-- `APP_HEADER_LEN`: the header word, the SSRC and the name. -/
def appHeaderLen : ℕ := 12

/-- `APP_MAX_DATA_LEN`. -/
def appMaxDataLen : ℕ := 65536 * 4 - appHeaderLen

/-- `MAX_DATAGRAM` of the floor core. -/
def maxDatagram : ℕ := 1500

/-- The octets of the packet at the head of a datagram, by its length field. -/
def packetLen (rest : Bytes) : ℕ := ((readU16 rest 2).toNat + 1) * 4

/-- The application data of a packet, without the padding it declares. -/
def appData (padded : Bool) (data : Bytes) : Except RtcpError Bytes :=
  if padded then
    match data.getLast? with
    | none => .error .badPadding
    | some last =>
      let count := last.toNat
      if count = 0 ∨ data.length < count then .error .badPadding
      else .ok (data.take (data.length - count))
  else .ok data

/-- `read_one`: the packet at the head, nothing for one that is not APP. -/
def readOne (rest : Bytes) : Except RtcpError (Option AppPacket) :=
  if rest.length < 4 then .error .tooShort
  else
    let version := octet rest 0 >>> 6
    if version ≠ 2 then .error (.badVersion version)
    else if rest.length < packetLen rest then .error .badLength
    else if octet rest 1 ≠ packetTypeApp then .ok none
    else
      let packet := rest.take (packetLen rest)
      if packet.length < appHeaderLen then .error .tooShort
      else (appData (octet rest 0 &&& 0x20 ≠ 0) (packet.drop appHeaderLen)).map fun data ↦
        some
          { subtype := octet rest 0 &&& 0x1F
            ssrc := readU32 packet 4
            name := Vector.ofFn fun position ↦ octet packet (8 + position)
            data }

/-- The walk of `app_packets`. Each turn is over a packet of four octets or more, so the length of
the datagram is fuel enough. -/
def appPacketsFrom : ℕ → Bytes → List (Except RtcpError AppPacket)
  | 0, _ => []
  | fuel + 1, rest =>
    if rest = [] then []
    else
      match readOne rest with
      | .error error => [.error error]
      | .ok none => appPacketsFrom fuel (rest.drop (packetLen rest))
      | .ok (some app) => .ok app :: appPacketsFrom fuel (rest.drop (packetLen rest))

def appPackets (datagram : Bytes) : List (Except RtcpError AppPacket) :=
  appPacketsFrom datagram.length datagram

inductive AppWriteError
  | subtypeOutOfRange (subtype : UInt8)
  | nonAsciiName
  | unaligned (length : ℕ)
  | tooLong (length : ℕ)
  | bufferTooSmall (needed : ℕ)
deriving DecidableEq

/-- `write_app` into a buffer of `room` octets. -/
def writeApp (room : ℕ) (subtype : UInt8) (ssrc : UInt32) (name : Vector UInt8 4) (data : Bytes) :
    Except AppWriteError Bytes :=
  if 0x1F < subtype then .error (.subtypeOutOfRange subtype)
  else if name.toList.any (0x80 ≤ ·) then .error .nonAsciiName
  else if data.length % 4 ≠ 0 then .error (.unaligned data.length)
  else if appMaxDataLen < data.length then .error (.tooLong data.length)
  else
    let total := appHeaderLen + data.length
    if room < total then .error (.bufferTooSmall total)
    else .ok ((0x80 ||| subtype) :: packetTypeApp :: toBe 2 (total / 4 - 1) ++
      (toBe 4 ssrc.toNat ++ (name.toList ++ data)))

/-- A written packet carries the SSRC it was given. -/
theorem rtcpSsrc_of_writeApp {room : ℕ} {subtype : UInt8} {ssrc : UInt32} {name : Vector UInt8 4}
    {data packet : Bytes} (hwrite : writeApp room subtype ssrc name data = .ok packet) :
    rtcpSsrc packet = ssrc := by
  unfold writeApp at hwrite
  dsimp only at hwrite
  split_ifs at hwrite
  obtain rfl := Except.ok.inj hwrite
  have hright := readU32_append_right
    ((0x80 ||| subtype) :: packetTypeApp :: toBe 2 ((appHeaderLen + data.length) / 4 - 1))
    (toBe 4 ssrc.toNat ++ (name.toList ++ data)) 0
  simpa [rtcpSsrc] using hright

/-! ### A leg -/

/-- The live state a standby resumes: the latched source beside what the protection resumes. -/
structure LegRestore extends FloorRestore where
  latched : Option SocketAddr
deriving DecidableEq

/-- One party's floor stream, as the engine resolves it when the call is answered. -/
structure CallFloorLeg where
  destination : SocketAddr
  acceptedSource : SourceFilter
  ssrc : UInt32
  keys : List FloorMasterKey
  restore : Option LegRestore
deriving DecidableEq

/-- A registered stream. It is keyed when there is a protection. -/
structure FloorLeg where
  destination : SocketAddr
  acceptedSource : SourceFilter
  ssrc : UInt32
  latch : OpaqueLatch
  raised : ℕ
  malformed : ℕ
  refused : ℕ
  protection : Option FloorProtection
deriving DecidableEq

/-- The RTCP APP packet a controller asks to send. -/
structure AppRequest where
  ssrc : Option UInt32
  name : Vector UInt8 4
  subtype : UInt8
  payload : Bytes
deriving DecidableEq

/-- Why a call on a stream was refused. -/
inductive CallFloorError
  | unknownLeg
  | packet (error : AppWriteError)
  | noDestination
  | keys (reason : String)
deriving DecidableEq

/-- The text of an SRTP error. -/
def srtpErrorText : SrtpError → String
  | .tooShort => "packet too short"
  | .badVersion => "unsupported RTP version"
  | .authFailed => "authentication failed"
  | .replayed => "replayed packet"
  | .unknownMki => "unknown MKI"
  | .noKeys => "no keys"
  | .duplicateMki => "duplicate MKI"
  | .indexExhausted => "SRTCP index exhausted"

/-- Why a floor datagram was not admitted. -/
inductive FloorDrop
  | latch
  | unauthenticated
deriving DecidableEq

/-- An address nothing is sent to. -/
def isNowhere : SocketAddr → Bool
  | .v4 ip port => ip = 0 || port = 0
  | .v6 ip port _ _ => ip = 0 || port = 0

section Stream

variable (P : Primitives)

/-- `CallFloors::register`: the leg that replaces whatever the endpoint had. -/
def registerLeg (config : CallFloorLeg) : FloorLeg where
  destination := config.destination
  acceptedSource := config.acceptedSource
  ssrc := config.ssrc
  latch := ((config.restore.bind (·.latched)).map OpaqueLatch.pinned).getD {}
  raised := 0
  malformed := 0
  refused := 0
  protection := register P config.keys (config.restore.map (·.toFloorRestore))

/-- `admit` of `floor_srtcp.rs`: authenticate where the stream is keyed, then the latch. A source
that is not the latched one is refused before its packet is opened. -/
def admitFloor (protection : Option FloorProtection) (latch : OpaqueLatch)
    (packet : RxPacket) :
    Except FloorDrop (Bytes × Option SocketAddr) × Option FloorProtection × OpaqueLatch :=
  let latched (data : Bytes) (protection : Option FloorProtection) :
      Except FloorDrop (Bytes × Option SocketAddr) × Option FloorProtection × OpaqueLatch :=
    match latch.admits packet.source with
    | (.reject, latch) => (.error .latch, protection, latch)
    | (.accept destination, latch) => (.ok (data, destination), protection, latch)
  match protection with
  | none => latched packet.data none
  | some protection =>
    if latch.latched.any (· ≠ packet.source) then (.error .latch, some protection, latch)
    else
      match protection.open P packet.data with
      | (.ok plain, protection) => latched plain (some protection)
      | (.error _, protection) => (.error .unauthenticated, some protection, latch)

namespace FloorLeg

/-- `CallFloors::set_keys` on the leg it found. -/
def setKeys (leg : FloorLeg) (keys : List FloorMasterKey) :
    Except CallFloorError Unit × FloorLeg :=
  if keys = [] then (.ok (), { leg with protection := none })
  else
    match leg.protection with
    | some protection =>
      match protection.replaceKeys P keys with
      | (.ok (), protection) => (.ok (), { leg with protection := some protection })
      | (.error error, protection) =>
        (.error (.keys (srtpErrorText error)), { leg with protection := some protection })
    | none =>
      match FloorProtection.new P keys with
      | some protection => (.ok (), { leg with protection := some protection })
      | none => (.error (.keys "the key set could not be applied"), leg)

/-- `CallFloors::ingest`: the outcome, and the APP packets raised to the controller. -/
def ingest (leg : FloorLeg) (packet : RxPacket) : (Ingress × List AppPacket) × FloorLeg :=
  if leg.acceptedSource.accepts packet.source.ip = false then ((.refused, []), leg)
  else
    match admitFloor P leg.protection leg.latch packet with
    | (.ok (data, learned), protection, latch) =>
      let packets := appPackets data
      let apps := packets.filterMap (·.toOption)
      ((.accepted, apps),
        { leg with
          destination := learned.getD leg.destination
          latch := latch
          protection := protection
          raised := leg.raised + apps.length
          malformed := leg.malformed + (packets.length - apps.length) })
    | (.error .latch, protection, latch) =>
      ((.refused, []), { leg with latch := latch, protection := protection })
    | (.error .unauthenticated, protection, latch) =>
      ((.refused, []),
        { leg with latch := latch, protection := protection, refused := leg.refused + 1 })

/-- `CallFloors::build`: where a packet goes and what goes there. -/
def build (leg : FloorLeg) (request : AppRequest) :
    Except CallFloorError (SocketAddr × Bytes) × FloorLeg :=
  match writeApp maxDatagram request.subtype (request.ssrc.getD leg.ssrc) request.name
      request.payload with
  | .error error => (.error (.packet error), leg)
  | .ok packet =>
    if isNowhere leg.destination then (.error .noDestination, leg)
    else
      match leg.protection with
      | none => (.ok (leg.destination, packet), leg)
      | some protection =>
        match protection.seal P packet with
        | (.ok wire, protection) =>
          (.ok (leg.destination, wire), { leg with protection := some protection })
        | (.error error, protection) =>
          (.error (.keys (srtpErrorText error)), { leg with protection := some protection })

end FloorLeg

/-! ### What the calls do -/

/-- How a stream reads a datagram: as it is when the stream is in the clear, opened when keyed. -/
inductive Reads (wire : Bytes) : Option FloorProtection → Bytes → Option FloorProtection → Prop
  | clear : Reads wire none wire none
  | opened {held next : FloorProtection} {plain : Bytes}
      (hopen : held.open P wire = (.ok plain, next)) : Reads wire (some held) plain (some next)

/-- How a stream sends a packet: as it is when the stream is in the clear, sealed when keyed. -/
inductive Writes (packet : Bytes) : Option FloorProtection → Bytes → Option FloorProtection → Prop
  | clear : Writes packet none packet none
  | sealed {held next : FloorProtection} {wire : Bytes}
      (hseal : held.seal P packet = (.ok wire, next)) : Writes packet (some held) wire (some next)

/-- A latch that admits a source follows it, and one that had learned a source has not moved. -/
theorem OpaqueLatch.admits_cases (latch : OpaqueLatch) (source : SocketAddr) :
    latch.admits source = (.reject, latch) ∨
      ∃ next : OpaqueLatch, (latch.latched = none ∨ next = latch) ∧ next.latched = some source ∧
        latch.admits source = (.accept (some source), next) := by
  cases hlearned : latch.latched with
  | none => exact Or.inr ⟨_, Or.inl rfl, rfl, OpaqueLatch.admits_empty hlearned source⟩
  | some learned =>
    have hadmits := OpaqueLatch.admits_latched hlearned source
    by_cases hsource : source = learned
    · rw [if_pos hsource] at hadmits
      exact Or.inr ⟨latch, Or.inr rfl, hlearned.trans (congrArg some hsource.symm), hadmits⟩
    · rw [if_neg hsource] at hadmits
      exact Or.inl hadmits

/-- A datagram is refused and changes nothing, or it is read and its source is the latched one. -/
theorem admitFloor_cases (protection : Option FloorProtection) (latch : OpaqueLatch)
    (packet : RxPacket) :
    (∃ drop, admitFloor P protection latch packet = (.error drop, protection, latch)) ∨
      ∃ data nextProtection nextLatch, Reads P packet.data protection data nextProtection ∧
        (latch.latched = none ∨ nextLatch = latch) ∧ nextLatch.latched = some packet.source ∧
        admitFloor P protection latch packet =
          (.ok (data, some packet.source), nextProtection, nextLatch) := by
  cases protection with
  | none =>
    rcases latch.admits_cases packet.source with hadmits | ⟨next, hstay, hnext, hadmits⟩
    · exact Or.inl ⟨.latch, by simp only [admitFloor, hadmits]⟩
    · exact Or.inr ⟨_, _, next, .clear, hstay, hnext, by simp only [admitFloor, hadmits]⟩
  | some held =>
    by_cases hforeign : latch.latched.any (· ≠ packet.source) = true
    · exact Or.inl ⟨.latch, by simp only [admitFloor, hforeign, if_true]⟩
    · cases hopen : held.open P packet.data with
      | mk result next =>
        cases result with
        | error error =>
          have hsame : next = held := by
            have herror := held.call_of_error P (.open packet.data) (congrArg Prod.fst hopen)
            rwa [show held.call P (.open packet.data) = (.error error, next) from hopen] at herror
          refine Or.inl ⟨.unauthenticated, ?_⟩
          simp only [admitFloor, hforeign, hopen, hsame]
          rfl
        | ok plain =>
          rcases latch.admits_cases packet.source with hadmits | ⟨nextLatch, hstay, hnext, hadmits⟩
          · -- a source the latch would refuse was refused before
            exfalso
            cases hlearned : latch.latched with
            | none => simp [OpaqueLatch.admits_empty hlearned] at hadmits
            | some learned =>
              rw [OpaqueLatch.admits_latched hlearned] at hadmits
              simp only [hlearned, Option.any_some, decide_eq_true_eq, not_not] at hforeign
              simp [hforeign] at hadmits
          · refine Or.inr ⟨plain, some next, nextLatch, .opened hopen, hstay, hnext, ?_⟩
            simp only [admitFloor, hforeign, hopen, hadmits]
            rfl

namespace FloorLeg

/-- What a change of the keys can do to a leg. -/
theorem setKeys_cases (leg : FloorLeg) (keys : List FloorMasterKey) :
    (keys = [] ∧ leg.setKeys P keys = (.ok (), { leg with protection := none })) ∨
      (∃ error, leg.setKeys P keys = (.error error, leg)) ∨
      (∃ held next, keys ≠ [] ∧ leg.protection = some held ∧
        held.replaceKeys P keys = (.ok (), next) ∧
        leg.setKeys P keys = (.ok (), { leg with protection := some next })) ∨
      ∃ next, keys ≠ [] ∧ leg.protection = none ∧ FloorProtection.new P keys = some next ∧
        leg.setKeys P keys = (.ok (), { leg with protection := some next }) := by
  by_cases hempty : keys = []
  · exact Or.inl ⟨hempty, by rw [setKeys, if_pos hempty]⟩
  cases hprotection : leg.protection with
  | none =>
    cases hnew : FloorProtection.new P keys with
    | none =>
      refine Or.inr (Or.inl ⟨.keys "the key set could not be applied", ?_⟩)
      simp only [setKeys, hempty, hprotection, hnew, if_false]
    | some next =>
      refine Or.inr (Or.inr (Or.inr ⟨next, hempty, rfl, rfl, ?_⟩))
      simp only [setKeys, hempty, hprotection, hnew, if_false]
  | some held =>
    cases hreplace : held.replaceKeys P keys with
    | mk result next =>
      cases result with
      | error error =>
        have hfailed : (held.call P (.replaceKeys keys)).1 = .error error := by
          simp only [FloorProtection.call, hreplace]
          rfl
        have hsame : next = held := by
          simpa only [FloorProtection.call, hreplace] using held.call_of_error P _ hfailed
        refine Or.inr (Or.inl ⟨.keys (srtpErrorText error), ?_⟩)
        simp only [setKeys, hempty, hprotection, hreplace, hsame, if_false]
        rw [← hprotection]
      | ok _ =>
        refine Or.inr (Or.inr (Or.inl ⟨held, next, hempty, rfl, hreplace, ?_⟩))
        simp only [setKeys, hempty, hprotection, hreplace, if_false]

/-- What a datagram can do to a leg: it is refused, and at most counted, or the leg reads it,
follows its source, and raises the APP packets it read. -/
theorem ingest_cases (leg : FloorLeg) (packet : RxPacket) :
    (∃ refused, leg.ingest P packet = ((.refused, []), { leg with refused })) ∨
      ∃ data protection latch raised malformed, Reads P packet.data leg.protection data protection ∧
        (leg.latch.latched = none ∨ latch = leg.latch) ∧ latch.latched = some packet.source ∧
        leg.ingest P packet =
          ((.accepted, (appPackets data).filterMap (·.toOption)),
            { leg with destination := packet.source, latch, protection, raised, malformed }) := by
  by_cases hsource : leg.acceptedSource.accepts packet.source.ip = false
  · exact Or.inl ⟨leg.refused, by rw [ingest, if_pos hsource]⟩
  rcases admitFloor_cases P leg.protection leg.latch packet with
    ⟨drop, hadmits⟩ | ⟨data, protection, latch, hreads, hstay, hlatched, hadmits⟩
  · cases drop with
    | latch => exact Or.inl ⟨leg.refused, by rw [ingest, if_neg hsource, hadmits]⟩
    | unauthenticated => exact Or.inl ⟨leg.refused + 1, by rw [ingest, if_neg hsource, hadmits]⟩
  · let apps := (appPackets data).filterMap (·.toOption)
    refine Or.inr ⟨data, protection, latch, leg.raised + apps.length,
      leg.malformed + ((appPackets data).length - apps.length), hreads, hstay, hlatched, ?_⟩
    rw [ingest, if_neg hsource, hadmits]
    rfl

/-- What a send does to a leg: it fails and changes nothing, or it writes the packet that was asked
for toward the destination. -/
theorem build_cases (leg : FloorLeg) (request : AppRequest) :
    (∃ error, leg.build P request = (.error error, leg)) ∨
      ∃ packet wire protection,
        writeApp maxDatagram request.subtype (request.ssrc.getD leg.ssrc) request.name
          request.payload = .ok packet ∧
        Writes P packet leg.protection wire protection ∧
        leg.build P request = (.ok (leg.destination, wire), { leg with protection }) := by
  cases hwrite : writeApp maxDatagram request.subtype (request.ssrc.getD leg.ssrc) request.name
      request.payload with
  | error error => exact Or.inl ⟨.packet error, by simp only [build, hwrite]⟩
  | ok packet =>
    by_cases hnowhere : isNowhere leg.destination = true
    · exact Or.inl ⟨.noDestination, by simp only [build, hwrite, hnowhere, if_true]⟩
    cases hprotection : leg.protection with
    | none =>
      refine Or.inr ⟨packet, packet, none, rfl, .clear, ?_⟩
      simp only [build, hwrite, hnowhere, hprotection]
      rw [← hprotection]
      rfl
    | some held =>
      cases hseal : held.seal P packet with
      | mk result next =>
        cases result with
        | error error =>
          have herror := held.call_of_error P (.seal packet) (congrArg Prod.fst hseal)
          have hsame : next = held := by
            rwa [show held.call P (.seal packet) = (.error error, next) from hseal] at herror
          refine Or.inl ⟨.keys (srtpErrorText error), ?_⟩
          simp only [build, hwrite, hnowhere, hprotection, hseal, hsame]
          rw [← hprotection]
          rfl
        | ok wire =>
          refine Or.inr ⟨packet, wire, some next, rfl, .sealed hseal, ?_⟩
          simp only [build, hwrite, hnowhere, hprotection, hseal]
          rfl

/-- A keyed leg takes a datagram only when it opens it, and raises what it opened. -/
theorem ingest_of_keyed {leg : FloorLeg} {held : FloorProtection}
    (hheld : leg.protection = some held) {packet : RxPacket}
    (htaken : (leg.ingest P packet).1 ≠ (.refused, [])) :
    ∃ plain next, held.open P packet.data = (.ok plain, next) ∧
      (leg.ingest P packet).1 = (.accepted, (appPackets plain).filterMap (·.toOption)) ∧
      (leg.ingest P packet).2.protection = some next := by
  rcases leg.ingest_cases P packet with ⟨_, heq⟩ | ⟨data, protection, _, _, _, hreads, -, -, heq⟩
  · exact absurd (congrArg Prod.fst heq) htaken
  · rw [hheld] at hreads
    cases hreads with
    | opened hopen => exact ⟨data, _, hopen, by rw [heq], by rw [heq]⟩

/-- A keyed leg sends only what it seals. -/
theorem build_of_keyed {leg : FloorLeg} {held : FloorProtection}
    (hheld : leg.protection = some held) {request : AppRequest} {destination : SocketAddr}
    {wire : Bytes} (hsent : (leg.build P request).1 = .ok (destination, wire)) :
    ∃ packet next, held.seal P packet = (.ok wire, next) ∧
      (leg.build P request).2.protection = some next := by
  rcases leg.build_cases P request with ⟨_, heq⟩ | ⟨packet, _, _, -, hwrites, heq⟩
  · rw [heq] at hsent
    exact nomatch hsent
  · rw [heq] at hsent
    obtain ⟨-, rfl⟩ := Prod.mk.inj (Except.ok.inj hsent)
    rw [hheld] at hwrites
    cases hwrites with
    | sealed hseal => exact ⟨packet, _, hseal, by rw [heq]⟩

end FloorLeg

/-! ### A stream over time -/

/-- What happens to a leg. -/
inductive LegInput
  | setKeys (keys : List FloorMasterKey)
  | ingest (packet : RxPacket)
  | send (request : AppRequest)
deriving DecidableEq

/-- What happens to the floor stream of an endpoint. -/
inductive FloorOp
  | register (config : CallFloorLeg)
  | deregister
  | leg (input : LegInput)
deriving DecidableEq

inductive FloorOutput
  | done
  | keys (result : Except CallFloorError Unit)
  | ingress (outcome : Ingress) (raised : List AppPacket)
  | sent (result : Except CallFloorError (SocketAddr × Bytes))

/-- What is answered when there is no leg. -/
def LegInput.withoutLeg : LegInput → FloorOutput
  | .setKeys _ => .keys (.error .unknownLeg)
  | .ingest _ => .ingress .refused []
  | .send _ => .sent (.error .unknownLeg)

def FloorLeg.step (leg : FloorLeg) : LegInput → FloorOutput × FloorLeg
  | .setKeys keys => (.keys (leg.setKeys P keys).1, (leg.setKeys P keys).2)
  | .ingest packet =>
    (.ingress (leg.ingest P packet).1.1 (leg.ingest P packet).1.2, (leg.ingest P packet).2)
  | .send request => (.sent (leg.build P request).1, (leg.build P request).2)

/-- What an input does to the protection of a leg: nothing, an empty key set drops it, a call on it,
or a key set for a leg in the clear builds it. -/
theorem FloorLeg.protection_step (leg : FloorLeg) (input : LegInput) :
    (leg.step P input).2.protection = leg.protection ∨
      (input = .setKeys [] ∧ (leg.step P input).2.protection = none) ∨
      (∃ held call, leg.protection = some held ∧
        (leg.step P input).2.protection = some (held.call P call).2) ∨
      ∃ keys next, input = .setKeys keys ∧ keys ≠ [] ∧ leg.protection = none ∧
        FloorProtection.new P keys = some next ∧ (leg.step P input).2.protection = some next := by
  cases input with
  | setKeys keys =>
    simp only [step]
    rcases leg.setKeys_cases P keys with
      ⟨hempty, heq⟩ | ⟨_, heq⟩ | ⟨held, next, -, hheld, hreplace, heq⟩ |
      ⟨next, hkeys, hnone, hnew, heq⟩
    · exact Or.inr (Or.inl ⟨congrArg _ hempty, by rw [heq]⟩)
    · exact Or.inl (by rw [heq])
    · refine Or.inr (Or.inr (Or.inl ⟨held, .replaceKeys keys, hheld, ?_⟩))
      simp only [heq, FloorProtection.call, hreplace]
    · exact Or.inr (Or.inr (Or.inr ⟨keys, next, rfl, hkeys, hnone, hnew, by rw [heq]⟩))
  | ingest packet =>
    simp only [step]
    rcases leg.ingest_cases P packet with ⟨_, heq⟩ | ⟨_, _, _, _, _, hreads, -, -, heq⟩
    · exact Or.inl (by rw [heq])
    · rw [heq]
      generalize leg.protection = before at hreads
      cases hreads with
      | clear => exact Or.inl rfl
      | opened hopen =>
        refine Or.inr (Or.inr (Or.inl ⟨_, .open packet.data, rfl, ?_⟩))
        simp only [FloorProtection.call, hopen]
  | send request =>
    simp only [step]
    rcases leg.build_cases P request with ⟨_, heq⟩ | ⟨packet, _, _, -, hwrites, heq⟩
    · exact Or.inl (by rw [heq])
    · rw [heq]
      generalize leg.protection = before at hwrites
      cases hwrites with
      | clear => exact Or.inl rfl
      | sealed hseal =>
        refine Or.inr (Or.inr (Or.inl ⟨_, .seal packet, rfl, ?_⟩))
        simp only [FloorProtection.call, hseal]

/-- One operation on the stream, a leg or its absence. -/
def floorStep (stream : Option FloorLeg) : FloorOp → FloorOutput × Option FloorLeg
  | .register config => (.done, some (registerLeg P config))
  | .deregister => (.done, none)
  | .leg input =>
    match stream with
    | none => (input.withoutLeg, none)
    | some leg => ((leg.step P input).1, some (leg.step P input).2)

end Stream

end SiphonRtp.Engine
