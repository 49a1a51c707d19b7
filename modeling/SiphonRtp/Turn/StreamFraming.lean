import SiphonRtp.Machine.Framing
import SiphonRtp.Stun.Turn

/-!
# TURN over a stream

Over TCP and TLS a TURN client and server send STUN messages and ChannelData back to back:
`stream_frame_len` of `siphon-rtp-stun/src/turn.rs` finds the end of the first one in the receive
buffer, and `handle_stream_connection` of `siphon-rtp-turn/src/server.rs` hands the messages to the
server as they become complete.

`streamFrameLen` reads a message's length from its head alone, so a message it finds is found
whatever follows (`streamFrameLen_append`), and it asks for more on each of its beginnings
(`streamFrameLen_beginning`). That makes every STUN message and every padded ChannelData message one
that a framer recognizes, and `stream_framing_exact` is the loop of the framing library at this
framer: however the stream is cut into reads, the server gets the messages one by one. Other
streams are cut the same way as well (`framing_ignores_cuts`).
-/

set_option autoImplicit false

namespace SiphonRtp.Turn

open Machine Stun

/-! ### The framer -/

abbrev StreamFrame := Framed

/-- `channel_data_frame_len`: the octets of a ChannelData message, with its padding over a
stream. -/
def channelDataFrameLen (dataLen : ℕ) (padToFour : Bool) : ℕ :=
  let unpadded := 4 + dataLen
  if padToFour then (unpadded + 3) / 4 * 4 else unpadded

/-- `stream_frame_len`. -/
def streamFrameLen (buffer : Bytes) : StreamFrame :=
  match buffer.head? with
  | none => .need
  | some first =>
    if isChannelData first then
      if buffer.length < 4 then .need
      else
        let length := (readU16 buffer 2).toNat
        let total := channelDataFrameLen length true
        if buffer.length < total then .need else .ready total
    else if first &&& 0xC0 = 0 then
      if buffer.length < 20 then .need
      else
        let cookie := readU32 buffer 4
        let length := (readU16 buffer 2).toNat
        if cookie ≠ magicCookie ∨ length % 4 ≠ 0 then .invalid
        else
          let total := 20 + length
          if buffer.length < total then .need else .ready total
    else .invalid

/-- What the head of a buffer has to say for a message of `total` octets to be found there. -/
inductive Declares (buffer : Bytes) (total : ℕ) : Prop
  | channelData {first : UInt8} (hfirst : buffer.head? = some first)
      (hmark : isChannelData first = true) (hhead : 4 ≤ buffer.length)
      (htotal : total = channelDataFrameLen (readU16 buffer 2).toNat true)
  | stun {first : UInt8} (hfirst : buffer.head? = some first)
      (hmark : isChannelData first = false) (hleading : first &&& 0xC0 = 0)
      (hhead : 20 ≤ buffer.length) (hcookie : readU32 buffer 4 = magicCookie)
      (haligned : (readU16 buffer 2).toNat % 4 = 0)
      (htotal : total = 20 + (readU16 buffer 2).toNat)

/-- The framer on a buffer whose head is there. -/
theorem streamFrameLen_of_declares {buffer : Bytes} {total : ℕ}
    (hdeclares : Declares buffer total) :
    streamFrameLen buffer = if buffer.length < total then .need else .ready total := by
  cases hdeclares with
  | channelData hfirst hmark hhead htotal =>
    unfold streamFrameLen
    rw [hfirst]
    dsimp only
    rw [if_pos hmark, if_neg (Nat.not_lt.mpr hhead), htotal]
  | stun hfirst hmark hleading hhead hcookie haligned htotal =>
    unfold streamFrameLen
    rw [hfirst]
    dsimp only
    rw [if_neg (by rw [hmark]; decide), if_pos hleading, if_neg (Nat.not_lt.mpr hhead),
      if_neg (by simp [hcookie, haligned]), htotal]

theorem streamFrameLen_eq_ready_iff {buffer : Bytes} {total : ℕ} :
    streamFrameLen buffer = .ready total ↔ Declares buffer total ∧ total ≤ buffer.length := by
  constructor
  · intro hready
    unfold streamFrameLen at hready
    split at hready
    · exact nomatch hready
    rename_i first hfirst
    split at hready
    · rename_i hmark
      split at hready
      · exact nomatch hready
      rename_i hhead
      dsimp only at hready
      split at hready
      · exact nomatch hready
      rename_i hlength
      obtain rfl := Framed.ready.inj hready
      exact ⟨.channelData hfirst hmark (Nat.not_lt.mp hhead) rfl, Nat.not_lt.mp hlength⟩
    rename_i hmark
    split at hready
    · rename_i hleading
      split at hready
      · exact nomatch hready
      rename_i hhead
      dsimp only at hready
      split at hready
      · exact nomatch hready
      rename_i hvalid
      obtain ⟨hcookie, haligned⟩ := not_or.mp hvalid
      split at hready
      · exact nomatch hready
      rename_i hlength
      obtain rfl := Framed.ready.inj hready
      exact ⟨.stun hfirst (Bool.not_eq_true _ ▸ hmark) hleading (Nat.not_lt.mp hhead)
        (not_not.mp hcookie) (not_not.mp haligned) rfl, Nat.not_lt.mp hlength⟩
    · exact nomatch hready
  · rintro ⟨hdeclares, hlength⟩
    rw [streamFrameLen_of_declares hdeclares, if_neg (Nat.not_lt.mpr hlength)]

theorem pos_of_declares {buffer : Bytes} {total : ℕ} (hdeclares : Declares buffer total) :
    0 < total := by
  cases hdeclares with
  | channelData hfirst hmark hhead htotal =>
    rw [htotal, channelDataFrameLen, if_pos rfl]
    omega
  | stun hfirst hmark hleading hhead hcookie haligned htotal => omega

/-! ### Buffers with one beginning -/

theorem readU16_append_left {first second : Bytes} {position : ℕ}
    (hposition : position + 2 ≤ first.length) :
    readU16 (first ++ second) position = readU16 first position := by
  unfold readU16
  rw [octet_append_left (by omega), octet_append_left (by omega)]

theorem readU32_append_left {first second : Bytes} {position : ℕ}
    (hposition : position + 4 ≤ first.length) :
    readU32 (first ++ second) position = readU32 first position := by
  unfold readU32
  rw [octet_append_left (by omega), octet_append_left (by omega), octet_append_left (by omega),
    octet_append_left (by omega)]

/-- What the head of a buffer declares does not depend on what follows. -/
theorem Declares.append {buffer : Bytes} {total : ℕ} (hdeclares : Declares buffer total)
    (tail : Bytes) : Declares (buffer ++ tail) total := by
  have hlength : buffer.length ≤ (buffer ++ tail).length := by
    rw [List.length_append]
    omega
  have hkeeps : ∀ {first : UInt8}, buffer.head? = some first →
      (buffer ++ tail).head? = some first := by
    intro first hfirst
    rw [List.head?_append, hfirst]
    rfl
  cases hdeclares with
  | channelData hfirst hmark hhead htotal =>
    refine .channelData (hkeeps hfirst) hmark (hhead.trans hlength) ?_
    rw [readU16_append_left (by omega), htotal]
  | stun hfirst hmark hleading hhead hcookie haligned htotal =>
    refine .stun (hkeeps hfirst) hmark hleading (hhead.trans hlength) ?_ ?_ ?_
    · rw [readU32_append_left (by omega), hcookie]
    · rw [readU16_append_left (by omega), haligned]
    · rw [readU16_append_left (by omega), htotal]

/-- A message that is found is found whatever follows. -/
theorem streamFrameLen_append {buffer : Bytes} {total : ℕ}
    (hready : streamFrameLen buffer = .ready total) (tail : Bytes) :
    streamFrameLen (buffer ++ tail) = .ready total := by
  obtain ⟨hdeclares, hlength⟩ := streamFrameLen_eq_ready_iff.mp hready
  refine streamFrameLen_eq_ready_iff.mpr ⟨hdeclares.append tail, hlength.trans ?_⟩
  rw [List.length_append]
  omega

/-- On a beginning of a message the framer asks for more. -/
theorem streamFrameLen_beginning {head tail : Bytes} {total : ℕ}
    (hready : streamFrameLen (head ++ tail) = .ready total) (hshort : head.length < total) :
    streamFrameLen head = .need := by
  cases head with
  | nil => rfl
  | cons octet rest =>
    obtain ⟨hdeclares, _⟩ := streamFrameLen_eq_ready_iff.mp hready
    have hfirst : (octet :: rest).head? = some octet := rfl
    cases hdeclares with
    | @channelData first hfirst' hmark _ htotal =>
      obtain rfl : octet = first := Option.some.inj hfirst'
      by_cases hhead : (octet :: rest).length < 4
      · unfold streamFrameLen
        rw [hfirst]
        dsimp only
        rw [if_pos hmark, if_pos hhead]
      · rw [readU16_append_left (by omega)] at htotal
        rw [streamFrameLen_of_declares (.channelData hfirst hmark (Nat.not_lt.mp hhead) htotal),
          if_pos hshort]
    | @stun first hfirst' hmark hleading _ hcookie haligned htotal =>
      obtain rfl : octet = first := Option.some.inj hfirst'
      by_cases hhead : (octet :: rest).length < 20
      · unfold streamFrameLen
        rw [hfirst]
        dsimp only
        rw [if_neg (by rw [hmark]; decide), if_pos hleading, if_pos hhead]
      · rw [readU32_append_left (by omega)] at hcookie
        rw [readU16_append_left (by omega)] at haligned htotal
        rw [streamFrameLen_of_declares (.stun hfirst hmark hleading (Nat.not_lt.mp hhead) hcookie
          haligned htotal), if_pos hshort]

/-- `stream_frame_len` as a framer of the library. -/
def streamFramer : Framer UInt8 where
  frame := streamFrameLen
  frame_nil := rfl
  pos_of_ready hready := pos_of_declares (streamFrameLen_eq_ready_iff.mp hready).1
  le_of_ready hready := (streamFrameLen_eq_ready_iff.mp hready).2

theorem recognizes_of_ready {message : Bytes}
    (hready : streamFrameLen message = .ready message.length) :
    streamFramer.Recognizes message := by
  refine ⟨streamFrameLen_append hready, fun head hhead hproper ↦ ?_⟩
  obtain ⟨tail, rfl⟩ := hhead
  refine streamFrameLen_beginning hready ?_
  rw [List.length_append]
  have hpos : tail ≠ [] := fun hnil ↦ hproper (by rw [hnil, List.append_nil])
  exact Nat.lt_add_of_pos_right (List.length_pos_iff.mpr hpos)

/-! ### The messages of a stream -/

/-- A STUN message: two zero bits, the cookie, and a header that declares the octets behind it, a
whole number of words. -/
structure IsStunMessage (octets : Bytes) : Prop where
  whole : headerLen ≤ octets.length
  leading : octet octets 0 &&& 0xC0 = 0
  cookie : readU32 octets 4 = magicCookie
  declared : headerLen + (readU16 octets 2).toNat = octets.length
  aligned : (readU16 octets 2).toNat % 4 = 0

/-- A ChannelData message that is padded to a whole number of words, with any octets. -/
def IsPaddedChannelData (octets : Bytes) : Prop :=
  ∃ channel data pad, validChannelNumber channel = true ∧ data.length < 2 ^ 16 ∧
    pad.length = padding data.length ∧
    octets = toBe 2 channel.toNat ++ (toBe 2 data.length ++ (data ++ pad))

/-- What either end sends over a stream. -/
def IsStreamMessage (octets : Bytes) : Prop := IsStunMessage octets ∨ IsPaddedChannelData octets

theorem isPaddedChannelData_encode {channel : UInt16} {data : Bytes}
    (hchannel : validChannelNumber channel = true) (hdata : data.length < 2 ^ 16) :
    IsPaddedChannelData (encodeChannelData channel data true) :=
  ⟨channel, data, List.replicate (padding data.length) 0, hchannel, hdata, List.length_replicate,
    rfl⟩

theorem head?_of_pos {octets : Bytes} (hpos : 0 < octets.length) :
    octets.head? = some (octet octets 0) := by
  obtain ⟨first, rest, rfl⟩ := List.exists_cons_of_length_pos hpos
  rfl

theorem ready_of_isStunMessage {octets : Bytes} (hmessage : IsStunMessage octets) :
    streamFrameLen octets = .ready octets.length := by
  obtain ⟨hwhole, hleading, hcookie, hdeclared, haligned⟩ := hmessage
  have hlen : headerLen = 20 := rfl
  refine streamFrameLen_eq_ready_iff.mpr ⟨?_, le_rfl⟩
  refine .stun (head?_of_pos (by omega)) ?_ hleading (hlen ▸ hwhole) hcookie haligned ?_
  · rw [isChannelData, hleading]
    rfl
  · rw [← hdeclared, hlen]

theorem ready_of_isPaddedChannelData {octets : Bytes} (hmessage : IsPaddedChannelData octets) :
    streamFrameLen octets = .ready octets.length := by
  obtain ⟨channel, data, pad, hchannel, hdata, hpad, rfl⟩ := hmessage
  obtain ⟨_, hlength⟩ := readU16_attribute channel hdata (data ++ pad)
  refine streamFrameLen_eq_ready_iff.mpr ⟨?_, le_rfl⟩
  refine .channelData rfl (isChannelData_of_valid hchannel) ?_ ?_
  · simp only [List.length_append, length_toBe]
    omega
  · rw [channelDataFrameLen, if_pos rfl]
    simp only [List.length_append, length_toBe, hpad, padding]
    omega

theorem ready_of_isStreamMessage {octets : Bytes} (hmessage : IsStreamMessage octets) :
    streamFrameLen octets = .ready octets.length :=
  hmessage.elim ready_of_isStunMessage ready_of_isPaddedChannelData

/-! ### The connection -/

/-- One read of the connection. A read of nothing is the end of the stream or an error, and ends the
loop; the actor behind the connection takes every message. -/
def connectionRead (buffer : Option Bytes) (chunk : Bytes) : List Bytes × Option Bytes :=
  if chunk = [] then ([], none) else streamFramer.receive buffer chunk

/-- `handle_stream_connection`: the messages handed to the server, and the receive buffer as long as
the connection is open. -/
def handleStreamConnection (reads : List Bytes) : List Bytes × Option Bytes :=
  let start := streamFramer.drain []
  (start.1 ++ (outputs connectionRead start.2 reads).flatten, final connectionRead start.2 reads)

theorem run_connectionRead {reads : List Bytes} (hreads : ∀ chunk ∈ reads, chunk ≠ [])
    (buffer : Option Bytes) :
    outputs connectionRead buffer reads = outputs streamFramer.receive buffer reads ∧
      final connectionRead buffer reads = final streamFramer.receive buffer reads := by
  induction reads generalizing buffer with
  | nil => exact ⟨rfl, rfl⟩
  | cons chunk reads ih =>
    have hstep : connectionRead buffer chunk = streamFramer.receive buffer chunk :=
      if_neg (hreads chunk List.mem_cons_self)
    obtain ⟨houtputs, hfinal⟩ :=
      ih (fun other hother ↦ hreads other (List.mem_cons_of_mem _ hother))
        (streamFramer.receive buffer chunk).2
    rw [outputs_cons, final_cons, hstep, houtputs, hfinal]
    exact ⟨rfl, rfl⟩

theorem handleStreamConnection_eq {reads : List Bytes} (hreads : ∀ chunk ∈ reads, chunk ≠ []) :
    handleStreamConnection reads =
      ((outputs streamFramer.receive (some []) reads).flatten,
        final streamFramer.receive (some []) reads) := by
  obtain ⟨houtputs, hfinal⟩ := run_connectionRead hreads (some [])
  rw [handleStreamConnection, streamFramer.drain_of_need streamFramer.frame_nil, houtputs, hfinal]
  rfl

/-- A stream of STUN messages and padded ChannelData is taken apart exactly, however it is cut into
reads: the server gets the messages in order, and at the end nothing is left in the buffer. The
framer asks for more on every beginning of a message, a length it finds lies within the buffer, and
it stays the same whatever arrives behind. -/
theorem stream_framing_exact :
    (∀ messages reads : List Bytes, (∀ message ∈ messages, IsStreamMessage message) →
      (∀ chunk ∈ reads, chunk ≠ []) → reads.flatten = messages.flatten →
        handleStreamConnection reads = (messages, some [])) ∧
      (∀ message head : Bytes, IsStreamMessage message → head <+: message → head ≠ message →
        streamFrameLen head = .need) ∧
      ∀ (buffer : Bytes) (length : ℕ), streamFrameLen buffer = .ready length →
        length ≤ buffer.length ∧ ∀ tail, streamFrameLen (buffer ++ tail) = .ready length := by
  refine ⟨fun messages reads hmessages hreads hstream ↦ ?_, fun message head hmessage ↦ ?_,
    fun buffer length hready ↦ ?_⟩
  · obtain ⟨houtputs, hfinal⟩ := Framer.run_receive_whole
      (fun message hmem ↦ recognizes_of_ready (ready_of_isStreamMessage (hmessages message hmem)))
      hstream
    rw [handleStreamConnection_eq hreads, houtputs, hfinal]
  · exact (recognizes_of_ready (ready_of_isStreamMessage hmessage)).need head
  · exact ⟨streamFramer.le_of_ready hready, streamFrameLen_append hready⟩

/-- ChannelData of five octets and of none, the first one cut in two reads. -/
theorem stream_framing_exact_cut :
    handleStreamConnection [[0x40, 0, 0, 5, 1, 2, 3], [4, 5, 0, 0, 0, 0x7F, 0xFF, 0, 0]] =
        ([[0x40, 0, 0, 5, 1, 2, 3, 4, 5, 0, 0, 0], [0x7F, 0xFF, 0, 0]], some []) ∧
      streamFrameLen [0x40, 0, 0, 5, 1, 2, 3] = .need ∧
      streamFrameLen ([0x7F, 0xFF, 0, 0] ++ [0x40]) = .ready 4 := by
  have hfive : IsStreamMessage [0x40, 0, 0, 5, 1, 2, 3, 4, 5, 0, 0, 0] :=
    Or.inr (@isPaddedChannelData_encode 0x4000 [1, 2, 3, 4, 5] (by decide) (by decide))
  have hnone : IsStreamMessage [0x7F, 0xFF, 0, 0] :=
    Or.inr (@isPaddedChannelData_encode 0x7FFF [] (by decide) (by decide))
  obtain ⟨hdelivers, hneed, hready⟩ := stream_framing_exact
  refine ⟨hdelivers _ _ ?_ (by decide) rfl, hneed _ _ hfive (by decide) (by decide),
    (hready _ 4 (by decide)).2 _⟩
  intro message hmem
  rcases List.mem_cons.mp hmem with rfl | hmem
  · exact hfive
  · exact List.mem_singleton.mp hmem ▸ hnone

/-- No octets behind change what the framer has found. -/
theorem streamFrameLen_decided (head tail : Bytes) (hfound : streamFrameLen head ≠ .need) :
    streamFrameLen (head ++ tail) = streamFrameLen head := by
  cases hframe : streamFrameLen head with
  | need => exact absurd hframe hfound
  | ready total => exact streamFrameLen_append hframe tail
  | invalid =>
    cases head with
    | nil => exact nomatch hframe
    | cons first rest =>
      have hlength := @readU16_append_left (first :: rest) tail 2
      have hcookie := @readU32_append_left (first :: rest) tail 4
      simp only [streamFrameLen, List.head?_cons] at *
      grind

/-- Framing ignores how a stream is cut. Assumes: no read is empty, which would be the end of the
stream. What a connection hands to the server, and whether it stays open, depends on the octets of
the stream only, well formed or not. -/
theorem framing_ignores_cuts {reads : List Bytes} (hreads : ∀ chunk ∈ reads, chunk ≠ []) :
    handleStreamConnection reads = streamFramer.drain reads.flatten := by
  have hrun := @Framer.run_eq_drain _ streamFramer streamFrameLen_decided [] reads
  rw [streamFramer.drain_of_need streamFramer.frame_nil] at hrun
  exact (handleStreamConnection_eq hreads).trans hrun

/-- One ChannelData message and then an octet that starts none. -/
theorem framing_ignores_cuts_invalid :
    handleStreamConnection [[0x40, 0], [0, 0, 0x80]] =
      streamFramer.drain [0x40, 0, 0, 0, 0x80] :=
  @framing_ignores_cuts [[0x40, 0], [0, 0, 0x80]] (by decide)

end SiphonRtp.Turn
