import SiphonRtp.Engine.CallFloor
import SiphonRtp.Media.Rtcp

/-!
# The iterator over RTCP APP packets

`AppPackets` of `siphon-rtp-media/src/rtcp.rs`. A call of `next` walks on to the next APP packet, or
to the packet that cannot be read, which ends the walk (`Spent`). The reading of one packet and the
writer are those of `Engine/CallFloor.lean`, whose list of packets is what the calls of `next`
return (`yields_eq_getElem?`).

An iterator at the front of a packet takes that packet off (`next_append`), so a datagram that is
put together from packets yields what they hold, whatever stands between them.
-/

set_option autoImplicit false

namespace SiphonRtp.Engine

open Machine

structure AppPackets where
  buffer : Bytes
  offset : ℕ
  failed : Bool
deriving DecidableEq

namespace AppPackets

/-- `app_packets`. -/
def appPackets (datagram : Bytes) : AppPackets := ⟨datagram, 0, false⟩

/-- `read_one`, which steps past the packet as soon as it is known to be in the buffer. -/
def readOne (iterator : AppPackets) : Except RtcpError (Option AppPacket) × AppPackets :=
  let rest := iterator.buffer.drop iterator.offset
  if rest.length < 4 ∨ octet rest 0 >>> 6 ≠ 2 ∨ rest.length < packetLen rest then
    (Engine.readOne rest, iterator)
  else (Engine.readOne rest, { iterator with offset := iterator.offset + packetLen rest })

/-- Only a packet whose end is known is passed over. -/
theorem readOne_ok {iterator later : AppPackets} {found : Option AppPacket}
    (hread : iterator.readOne = (.ok found, later)) :
    later = { iterator with
      offset := iterator.offset + packetLen (iterator.buffer.drop iterator.offset) } := by
  unfold readOne at hread
  dsimp only at hread
  split_ifs at hread with hheader
  · exfalso
    have hok := (Prod.mk.inj hread).1
    unfold Engine.readOne at hok
    dsimp only at hok
    rcases hheader with hshort | hversion | hlength
    · rw [if_pos hshort] at hok
      cases hok
    · split_ifs at hok
    · split_ifs at hok
  · exact (Prod.mk.inj hread).2.symm

theorem readOne_lt {iterator later : AppPackets} {found : Option AppPacket}
    (hread : iterator.readOne = (.ok found, later)) :
    later.buffer = iterator.buffer ∧ iterator.offset < later.offset := by
  obtain rfl := readOne_ok hread
  refine ⟨rfl, ?_⟩
  show iterator.offset < iterator.offset + packetLen _
  rw [packetLen]
  omega

/-- `AppPackets::next`. -/
def next (iterator : AppPackets) : Option (Except RtcpError AppPacket) × AppPackets :=
  if _hleft : iterator.failed = false ∧ iterator.offset < iterator.buffer.length then
    match _hread : iterator.readOne with
    | (.ok none, later) => later.next
    | (.ok (some app), later) => (some (.ok app), later)
    | (.error error, later) => (some (.error error), { later with failed := true })
  else (none, iterator)
termination_by iterator.buffer.length - iterator.offset
decreasing_by
  obtain ⟨hbuffer, hoffset⟩ := readOne_lt _hread
  rw [hbuffer]
  omega

/-- What the calls of `next` return, from the first on. -/
def yields (iterator : AppPackets) : ℕ → Option (Except RtcpError AppPacket)
  | 0 => iterator.next.1
  | calls + 1 => iterator.next.2.yields calls

/-- The walk is over. -/
def Spent (iterator : AppPackets) : Prop :=
  iterator.failed = true ∨ iterator.buffer.length ≤ iterator.offset

theorem Spent.next {iterator : AppPackets} (hspent : iterator.Spent) :
    iterator.next = (none, iterator) := by
  have hover : ¬ (iterator.failed = false ∧ iterator.offset < iterator.buffer.length) := by
    rintro ⟨hfailed, hoffset⟩
    rcases hspent with hfail | hend
    · exact absurd (hfailed.symm.trans hfail) (by decide)
    · omega
  rw [AppPackets.next, dif_neg hover]

theorem Spent.yields {iterator : AppPackets} (hspent : iterator.Spent) (calls : ℕ) :
    iterator.yields calls = none := by
  induction calls with
  | zero => rw [AppPackets.yields, hspent.next]
  | succ calls ih => rw [AppPackets.yields, hspent.next, ih]

end AppPackets

/-- A datagram put together from packets of the writer, into buffers of any size, and from other
well-formed packets. -/
inductive Interleaved : Bytes → List AppPacket → Prop
  | done : Interleaved [] []
  | app {room : ℕ} {app : AppPacket} {packet rest : Bytes} {apps : List AppPacket}
      (hwrite : writeApp room app.subtype app.ssrc app.name app.data = .ok packet)
      (hrest : Interleaved rest apps) : Interleaved (packet ++ rest) (app :: apps)
  | other {packet rest : Bytes} {apps : List AppPacket} (hpacket : Media.Rtcp.IsRtcp packet)
      (htype : octet packet 1 ≠ packetTypeApp) (hrest : Interleaved rest apps) :
      Interleaved (packet ++ rest) apps

/-- Reading looks at the packet at the front and at nothing behind it. -/
theorem readOne_append {packet : Bytes} (hpacket : Media.Rtcp.IsRtcp packet) (rest : Bytes) :
    readOne (packet ++ rest) =
      if octet packet 1 ≠ packetTypeApp then .ok none
      else if packet.length < appHeaderLen then .error .tooShort
      else (appData (octet packet 0 &&& 0x20 ≠ 0) (packet.drop appHeaderLen)).map fun data ↦
        some ⟨octet packet 0 &&& 0x1F, readU32 packet 4,
          Vector.ofFn fun position ↦ octet packet (8 + position), data⟩ := by
  obtain ⟨hheader, hversion, hlength, htype⟩ := hpacket.head rest
  have hfirst : octet (packet ++ rest) 0 = octet packet 0 :=
    octet_append_left (Nat.lt_of_lt_of_le (by decide) hpacket.header)
  have hfits : ¬ (packet ++ rest).length < packet.length := by
    rw [List.length_append]
    omega
  have hlength : packetLen (packet ++ rest) = packet.length := hlength
  rw [readOne, if_neg hheader]
  rw [if_neg (not_not.mpr hversion), hlength, if_neg hfits, htype, hfirst, List.take_left]

/-- A written packet is well formed and reads as it was given. -/
theorem readOne_of_writeApp {room : ℕ} {app : AppPacket} {packet : Bytes}
    (hwrite : writeApp room app.subtype app.ssrc app.name app.data = .ok packet) :
    Media.Rtcp.IsRtcp packet ∧ ∀ rest, readOne (packet ++ rest) = .ok (some app) := by
  obtain ⟨subtype, ssrc, name, data⟩ := app
  unfold writeApp at hwrite
  dsimp only at hwrite
  split_ifs at hwrite with hsubtype hname haligned hlong hroom
  obtain rfl := Except.ok.inj hwrite
  obtain ⟨hversion, hunpadded, hkept⟩ : (0x80 ||| subtype) >>> 6 = 2 ∧
      (0x80 ||| subtype) &&& 0x20 = 0 ∧ (0x80 ||| subtype) &&& 0x1F = subtype := by
    have hall : ∀ n < 32, (0x80 ||| UInt8.ofNat n) >>> 6 = 2 ∧
        (0x80 ||| UInt8.ofNat n) &&& 0x20 = 0 ∧
          (0x80 ||| UInt8.ofNat n) &&& 0x1F = UInt8.ofNat n := by decide
    have hsmall : subtype.toNat ≤ (0x1F : UInt8).toNat :=
      UInt8.le_iff_toNat_le.mp (UInt8.not_lt.mp hsubtype)
    simpa only [UInt8.ofNat_toNat] using hall subtype.toNat (Nat.lt_succ_of_le hsmall)
  have hlength : (toBe 4 ssrc.toNat ++ (name.toList ++ data)).length =
      ((appHeaderLen + data.length) / 4 - 1) * 4 := by
    simp only [List.length_append, length_toBe, Vector.length_toList, appHeaderLen]
    omega
  have hwords : (appHeaderLen + data.length) / 4 - 1 < 2 ^ 16 := by
    simp only [appMaxDataLen, appHeaderLen] at hlong ⊢
    omega
  have hpacket := @Media.Rtcp.isRtcp_of_words _ packetTypeApp _ _ hversion hwords hlength
  refine ⟨hpacket, fun rest ↦ (readOne_append hpacket rest).trans ?_⟩
  generalize (appHeaderLen + data.length) / 4 - 1 = words
  have hssrc : readU32 ((0x80 ||| subtype) :: packetTypeApp :: (toBe 2 words ++
      (toBe 4 ssrc.toNat ++ (name.toList ++ data)))) 4 = ssrc := Media.Rtcp.field_of_drop rfl
  obtain ⟨lead, hlead, hlength⟩ : ∃ lead : Bytes, (0x80 ||| subtype) :: packetTypeApp ::
      (toBe 2 words ++ (toBe 4 ssrc.toNat ++ (name.toList ++ data))) =
        lead ++ (name.toList ++ data) ∧ lead.length = 8 := ⟨[_, _, _, _, _, _, _, _], rfl, rfl⟩
  have htype : octet (lead ++ (name.toList ++ data)) 1 = packetTypeApp := hlead ▸ rfl
  have hfirst : octet (lead ++ (name.toList ++ data)) 0 = 0x80 ||| subtype := hlead ▸ rfl
  have hdata : (lead ++ (name.toList ++ data)).drop appHeaderLen = data := by
    rw [← List.append_assoc]
    exact List.drop_left' (by simp [hlength, appHeaderLen])
  have hnamed : (Vector.ofFn fun position : Fin 4 ↦
      octet (lead ++ (name.toList ++ data)) (8 + position)) = name := by
    refine Vector.ext fun position hposition ↦ ?_
    rw [Vector.getElem_ofFn, ← hlength, octet_append_right, octet_append_left (by simpa)]
    simp [octet, hposition]
  have hwhole : ¬ (lead ++ (name.toList ++ data)).length < appHeaderLen := by
    simp only [List.length_append, Vector.length_toList, appHeaderLen]
    omega
  rw [hlead] at hssrc
  rw [hlead, htype, hfirst, hssrc, hnamed, hdata, hunpadded, hkept, if_neg hwhole]
  rfl

namespace AppPackets

/-- What a call does, by what it reads at the front. -/
theorem next_of_readOne {iterator : AppPackets} {rest : Bytes} (hfailed : iterator.failed = false)
    (hbuffer : iterator.buffer.drop iterator.offset = rest) (hrest : rest ≠ []) :
    ∃ later : AppPackets, later.failed = false ∧
      later.buffer.drop later.offset = rest.drop (packetLen rest) ∧
      (Engine.readOne rest = .ok none → iterator.next = later.next) ∧
      (∀ app, Engine.readOne rest = .ok (some app) → iterator.next = (some (.ok app), later)) ∧
      ∀ error, Engine.readOne rest = .error error →
        iterator.next.1 = some (.error error) ∧ iterator.next.2.Spent := by
  have hleft : iterator.failed = false ∧ iterator.offset < iterator.buffer.length := by
    refine ⟨hfailed, not_le.mp fun hend ↦ hrest ?_⟩
    rw [← hbuffer, List.drop_eq_nil_of_le hend]
  have hread : iterator.readOne.1 = Engine.readOne rest := by
    unfold readOne
    rw [hbuffer]
    dsimp only
    split_ifs <;> rfl
  refine ⟨{ iterator with offset := iterator.offset + packetLen rest }, hfailed, ?_, ?_, ?_, ?_⟩
  · rw [← List.drop_drop, hbuffer]
  all_goals rw [next, dif_pos hleft]
  · intro hnone
    rw [hnone] at hread
    split
    next later hlater => rw [readOne_ok hlater, hbuffer]
    next app later hlater => simp [hlater] at hread
    next error later hlater => simp [hlater] at hread
  · intro app happ
    rw [happ] at hread
    split
    next later hlater => simp [hlater] at hread
    next found later hlater =>
      rw [hlater] at hread
      obtain rfl : found = app := Option.some.inj (Except.ok.inj hread)
      rw [readOne_ok hlater, hbuffer]
    next error later hlater => simp [hlater] at hread
  · intro error herror
    rw [herror] at hread
    split
    next later hlater => simp [hlater] at hread
    next app later hlater => simp [hlater] at hread
    next found later hlater =>
      rw [hlater] at hread
      obtain rfl : found = error := Except.error.inj hread
      exact ⟨rfl, .inl rfl⟩

theorem yields_congr {iterator later : AppPackets} (hnext : iterator.next = later.next)
    (calls : ℕ) : iterator.yields calls = later.yields calls := by
  cases calls with
  | zero => rw [yields, yields, hnext]
  | succ calls => rw [yields, yields, hnext]

theorem yields_walk {fuel : ℕ} {iterator : AppPackets} {rest : Bytes}
    (hfailed : iterator.failed = false)
    (hbuffer : iterator.buffer.drop iterator.offset = rest) (hfuel : rest.length ≤ fuel)
    (calls : ℕ) : iterator.yields calls = (appPacketsFrom fuel rest)[calls]? := by
  induction fuel generalizing iterator rest calls with
  | zero =>
    rw [List.length_eq_zero_iff.mp (Nat.le_zero.mp hfuel)] at hbuffer
    exact Spent.yields (.inr (List.drop_eq_nil_iff.mp hbuffer)) calls
  | succ fuel ih =>
    rw [appPacketsFrom]
    split_ifs with hempty
    · rw [hempty] at hbuffer
      exact Spent.yields (.inr (List.drop_eq_nil_iff.mp hbuffer)) calls
    obtain ⟨later, hlater, hlaterBuffer, hnone, hsome, herror⟩ :=
      next_of_readOne hfailed hbuffer hempty
    have hshorter : (rest.drop (packetLen rest)).length ≤ fuel := by
      rw [List.length_drop, packetLen]
      omega
    have hgoes := ih hlater hlaterBuffer hshorter
    cases hread : Engine.readOne rest with
    | error error =>
      obtain ⟨hfound, hspent⟩ := herror error hread
      cases calls with
      | zero => exact hfound
      | succ calls => exact hspent.yields calls
    | ok found =>
      cases found with
      | none => exact (yields_congr (hnone hread) calls).trans (hgoes calls)
      | some app =>
        cases calls with
        | zero => rw [yields, hsome app hread]; rfl
        | succ calls => rw [yields, hsome app hread]; exact hgoes calls

/-- The calls of `next` return the packets of the walk, one after the other. -/
theorem yields_eq_getElem? (datagram : Bytes) (calls : ℕ) :
    (appPackets datagram).yields calls = (Engine.appPackets datagram)[calls]? :=
  yields_walk rfl rfl le_rfl calls

/-- Nothing comes after an error. -/
theorem length_le_of_error {fuel calls : ℕ} {rest : Bytes} {error : RtcpError}
    (herror : (appPacketsFrom fuel rest)[calls]? = some (.error error)) :
    (appPacketsFrom fuel rest).length ≤ calls + 1 := by
  induction fuel generalizing rest calls with
  | zero => exact Nat.zero_le _
  | succ fuel ih =>
    rw [appPacketsFrom] at herror ⊢
    split_ifs at herror ⊢ with hempty
    · exact Nat.zero_le _
    cases hread : Engine.readOne rest with
    | error cause => exact Nat.succ_le_succ (Nat.zero_le calls)
    | ok found =>
      rw [hread] at herror
      cases found with
      | none => exact ih herror
      | some app =>
        cases calls with
        | zero => cases herror
        | succ calls => exact Nat.succ_le_succ (ih herror)

/-- At the front of a packet the iterator takes that packet off. -/
theorem next_append {iterator : AppPackets} {packet rest : Bytes}
    (hpacket : Media.Rtcp.IsRtcp packet) (hfailed : iterator.failed = false)
    (hbuffer : iterator.buffer.drop iterator.offset = packet ++ rest) :
    ∃ later : AppPackets, later.failed = false ∧ later.buffer.drop later.offset = rest ∧
      (Engine.readOne (packet ++ rest) = .ok none → iterator.next = later.next) ∧
      ∀ app, Engine.readOne (packet ++ rest) = .ok (some app) →
        iterator.next = (some (.ok app), later) := by
  obtain ⟨-, -, hlength, -⟩ := hpacket.head rest
  have hlength : packetLen (packet ++ rest) = packet.length := hlength
  obtain ⟨later, hlater, hdrop, hnone, hsome, -⟩ :=
    next_of_readOne hfailed hbuffer (hpacket.ne_nil rest)
  rw [hlength, List.drop_left] at hdrop
  exact ⟨later, hlater, hdrop, hnone, hsome⟩

theorem yields_interleaved {datagram : Bytes} {apps : List AppPacket}
    (hdatagram : Interleaved datagram apps) {iterator : AppPackets}
    (hfailed : iterator.failed = false)
    (hbuffer : iterator.buffer.drop iterator.offset = datagram) (calls : ℕ) :
    iterator.yields calls = apps[calls]?.map .ok := by
  induction hdatagram generalizing iterator calls with
  | done => exact Spent.yields (.inr (List.drop_eq_nil_iff.mp hbuffer)) calls
  | app hwrite hrest ih =>
    obtain ⟨hpacket, hread⟩ := readOne_of_writeApp hwrite
    obtain ⟨later, hlater, hlaterBuffer, -, hnext⟩ := next_append hpacket hfailed hbuffer
    cases calls with
    | zero => rw [yields, hnext _ (hread _)]; rfl
    | succ calls =>
      rw [yields, hnext _ (hread _), ih hlater hlaterBuffer, List.getElem?_cons_succ]
  | other hpacket htype hrest ih =>
    obtain ⟨later, hlater, hlaterBuffer, hnext, -⟩ := next_append hpacket hfailed hbuffer
    have hsame := hnext (by rw [readOne_append hpacket, if_pos htype])
    rw [yields_congr hsame, ih hlater hlaterBuffer]

/-- The APP packets of a datagram are found. Whatever other packets stand between them, the iterator
yields all of them, in order and as they were written, and then nothing. On any octets the walk
ends, and there is nothing after an error. -/
theorem app_packets_found :
    (∀ datagram apps, Interleaved datagram apps → ∀ calls,
        (appPackets datagram).yields calls = apps[calls]?.map .ok) ∧
      (∀ datagram calls error, (appPackets datagram).yields calls = some (.error error) →
        ∀ later, calls < later → (appPackets datagram).yields later = none) ∧
      ∀ datagram, ∃ calls, ∀ later, calls ≤ later → (appPackets datagram).yields later = none := by
  refine ⟨fun _ _ hdatagram ↦ yields_interleaved hdatagram rfl rfl, ?_, ?_⟩
  · intro datagram calls error herror later hlater
    rw [yields_eq_getElem?] at herror ⊢
    exact List.getElem?_eq_none ((length_le_of_error herror).trans hlater)
  · intro datagram
    refine ⟨(Engine.appPackets datagram).length, fun later hlater ↦ ?_⟩
    rw [yields_eq_getElem?]
    exact List.getElem?_eq_none hlater

/-- A packet of the writer behind a receiver report without blocks. -/
theorem app_packet_found_behind_report :
    (appPackets ([0x80, 201, 0, 1, 0, 0, 0, 9] ++
      ([0x81, 204, 0, 2, 0, 0, 0, 5, 80, 111, 67, 49] ++ []))).yields 0 =
        some (.ok ⟨1, 5, #v[80, 111, 67, 49], []⟩) :=
  app_packets_found.1 _ _ (.other ⟨by decide, by decide, by decide⟩ (by decide)
    (@Interleaved.app 12 ⟨1, 5, #v[80, 111, 67, 49], []⟩ _ _ _ (by decide) .done)) 0

end AppPackets

end SiphonRtp.Engine
