import SiphonRtp.Machine.OnesComplement
import SiphonRtp.Machine.Octets

/-!
# Checksums of rewritten headers

The incremental checksums of `siphon-rtp-ebpf-common/src/rewrite.rs` (RFC 1624), and the rewrite of
addresses, ports and the TOS octet that `forward_in_kernel` of `siphon-rtp-xdp/ebpf/src/main.rs`
commits. The full recomputation (RFC 1071) is `Ipv4Header.fullChecksum` and
`UdpDatagram.fullChecksum`, over all words of the header, or of the pseudo-header and the datagram.

An incremental update moves the sum of the old checksum by the changed words, so it stays congruent
to the sum of all words modulo `2 ^ 16 - 1` (`Tracks`). The version of an IPv4 header and the
protocol number of a pseudo-header keep the full sum from being zero, the only case in which
congruent sums fold differently.
-/

set_option autoImplicit false

namespace SiphonRtp.Xdp

open Machine

/-! ### Incremental checksums -/

/-- `fold16`. The sums that are folded are those of at most thirteen words, far below 2^32. -/
def fold16 (sum : ℕ) : UInt16 := UInt16.ofNat (onesFold sum)

def wordHi (value : UInt32) : UInt16 := UInt16.ofNat (value.toNat / 2 ^ 16)

def wordLo (value : UInt32) : UInt16 := UInt16.ofNat (value.toNat % 2 ^ 16)

/-- `accumulate`. -/
def accumulate (sum : ℕ) (oldWord newWord : UInt16) : ℕ :=
  sum + (~~~ oldWord).toNat + newWord.toNat

/-- An address that changes, as its two words. -/
def accumulateAddr (sum : ℕ) (oldAddr newAddr : UInt32) : ℕ :=
  accumulate (accumulate sum (wordHi oldAddr) (wordHi newAddr)) (wordLo oldAddr) (wordLo newAddr)

/-- `ipv4_checksum_after_addr_rewrite`. -/
def ipv4ChecksumAfterAddrRewrite (oldChecksum : UInt16) (oldSrc newSrc oldDst newDst : UInt32) :
    UInt16 :=
  ~~~ fold16 (accumulateAddr (accumulateAddr (~~~ oldChecksum).toNat oldSrc newSrc) oldDst newDst)

/-- The first word of an IPv4 header. -/
def tosWord (versionIhl tos : UInt8) : UInt16 := (versionIhl.toUInt16 <<< 8) ||| tos.toUInt16

/-- `ipv4_checksum_after_tos_rewrite`. -/
def ipv4ChecksumAfterTosRewrite (oldChecksum : UInt16) (versionIhl oldTos newTos : UInt8) :
    UInt16 :=
  if oldTos = newTos then oldChecksum
  else
    ~~~ fold16 (accumulate (~~~ oldChecksum).toNat (tosWord versionIhl oldTos)
      (tosWord versionIhl newTos))

/-- `udp_checksum_after_rewrite`. -/
def udpChecksumAfterRewrite (oldChecksum : UInt16) (oldSrcIp newSrcIp oldDstIp newDstIp : UInt32)
    (oldSrcPort newSrcPort oldDstPort newDstPort : UInt16) : UInt16 :=
  if oldChecksum = 0 then 0
  else
    let sum := accumulateAddr (accumulateAddr (~~~ oldChecksum).toNat oldSrcIp newSrcIp)
      oldDstIp newDstIp
    let computed := ~~~ fold16 (accumulate (accumulate sum oldSrcPort newSrcPort)
      oldDstPort newDstPort)
    if computed = 0 then 0xFFFF else computed

/-! ### Headers -/

/-- An IPv4 header, with its options as words. -/
structure Ipv4Header where
  versionIhl : UInt8
  tos : UInt8
  totalLength : UInt16
  identification : UInt16
  fragment : UInt16
  ttlProtocol : UInt16
  checksum : UInt16
  src : UInt32
  dst : UInt32
  options : List UInt16
  version_eq : versionIhl >>> 4 = 4

/-- The sum of words. -/
def wordSum (words : List UInt16) : ℕ := (words.map UInt16.toNat).sum

namespace Ipv4Header

/-- The words of a header but for the checksum. -/
def otherWords (header : Ipv4Header) : List UInt16 :=
  [tosWord header.versionIhl header.tos, header.totalLength, header.identification,
    header.fragment, header.ttlProtocol, wordHi header.src, wordLo header.src, wordHi header.dst,
    wordLo header.dst] ++ header.options

/-- The checksum of a header, computed from all its words. -/
def fullChecksum (header : Ipv4Header) : UInt16 := ~~~ fold16 (wordSum header.otherWords)

/-- New addresses, with the checksum that `forward_in_kernel` stores for them. -/
def rewriteAddresses (header : Ipv4Header) (newSrc newDst : UInt32) : Ipv4Header :=
  { header with
    src := newSrc
    dst := newDst
    checksum :=
      ipv4ChecksumAfterAddrRewrite header.checksum header.src newSrc header.dst newDst }

/-- A new TOS octet, with the checksum that `forward_in_kernel` stores for it. -/
def rewriteTos (header : Ipv4Header) (newTos : UInt8) : Ipv4Header :=
  { header with
    tos := newTos
    checksum :=
      ipv4ChecksumAfterTosRewrite header.checksum header.versionIhl header.tos newTos }

end Ipv4Header

/-- A UDP datagram. -/
structure UdpDatagram where
  srcPort : UInt16
  dstPort : UInt16
  length : UInt16
  checksum : UInt16
  payload : Bytes

/-- The words of octets, the last one padded with zero. -/
def payloadWords : Bytes → List UInt16
  | first :: second :: rest => readU16 [first, second] 0 :: payloadWords rest
  | [last] => [readU16 [last, 0] 0]
  | [] => []

namespace UdpDatagram

/-- The words of the pseudo-header and of a datagram, but for the checksum. -/
def otherWords (datagram : UdpDatagram) (src dst : UInt32) : List UInt16 :=
  [wordHi src, wordLo src, wordHi dst, wordLo dst, 17, datagram.length, datagram.srcPort,
    datagram.dstPort, datagram.length] ++ payloadWords datagram.payload

/-- The checksum of a datagram, computed from all its words, with zero sent as `0xFFFF`. -/
def fullChecksum (datagram : UdpDatagram) (src dst : UInt32) : UInt16 :=
  let computed := ~~~ fold16 (wordSum (datagram.otherWords src dst))
  if computed = 0 then 0xFFFF else computed

/-- New addresses and ports, with the checksum that `forward_in_kernel` stores for them. -/
def rewrite (datagram : UdpDatagram) (oldSrc newSrc oldDst newDst : UInt32)
    (newSrcPort newDstPort : UInt16) : UdpDatagram :=
  { datagram with
    srcPort := newSrcPort
    dstPort := newDstPort
    checksum :=
      udpChecksumAfterRewrite datagram.checksum oldSrc newSrc oldDst newDst datagram.srcPort
        newSrcPort datagram.dstPort newDstPort }

end UdpDatagram

/-! ### Sums -/

theorem toNat_complement (word : UInt16) : (~~~ word).toNat = 2 ^ 16 - 1 - word.toNat :=
  UInt16.toNat_not word

theorem toNat_fold16 (sum : ℕ) : (fold16 sum).toNat = onesFold sum := by
  have hlt := onesFold_lt sum
  rw [fold16, UInt16.toNat_ofNat', Nat.mod_eq_of_lt hlt]

/-- A changed word moves a sum by the difference of the words. -/
theorem accumulate_mod (sum : ℕ) (oldWord newWord : UInt16) :
    (accumulate sum oldWord newWord + oldWord.toNat) % (2 ^ 16 - 1) =
      (sum + newWord.toNat) % (2 ^ 16 - 1) := by
  have hlt := oldWord.toNat_lt
  rw [accumulate, toNat_complement]
  omega

/-- The words of an address. -/
def addrSum (addr : UInt32) : ℕ := (wordHi addr).toNat + (wordLo addr).toNat

theorem accumulateAddr_mod (sum : ℕ) (oldAddr newAddr : UInt32) :
    (accumulateAddr sum oldAddr newAddr + addrSum oldAddr) % (2 ^ 16 - 1) =
      (sum + addrSum newAddr) % (2 ^ 16 - 1) := by
  have hhi := accumulate_mod sum (wordHi oldAddr) (wordHi newAddr)
  have hlo := accumulate_mod (accumulate sum (wordHi oldAddr) (wordHi newAddr)) (wordLo oldAddr)
    (wordLo newAddr)
  unfold accumulateAddr addrSum
  omega

theorem le_accumulate (sum : ℕ) (oldWord newWord : UInt16) :
    sum ≤ accumulate sum oldWord newWord := by
  rw [accumulate]
  omega

theorem le_accumulateAddr (sum : ℕ) (oldAddr newAddr : UInt32) :
    sum ≤ accumulateAddr sum oldAddr newAddr :=
  (le_accumulate _ _ _).trans (le_accumulate _ _ _)

/-- The complement of a checksum is congruent to the sum of the words it was made from. -/
def Tracks (checksum : UInt16) (sum : ℕ) : Prop :=
  (~~~ checksum).toNat % (2 ^ 16 - 1) = sum % (2 ^ 16 - 1)

theorem tracks_fold16 (sum : ℕ) : Tracks (~~~ fold16 sum) sum := by
  rw [Tracks, UInt16.not_not, toNat_fold16, onesFold_mod]

/-- A checksum that tracks a positive sum, and is not the complement of zero, is that of the sum. -/
theorem eq_of_tracks {checksum : UInt16} {sum : ℕ} (htracks : Tracks checksum sum)
    (hpos : 0 < (~~~ checksum).toNat) (hsum : 0 < sum) : checksum = ~~~ fold16 sum := by
  have hlt : (~~~ checksum).toNat < 2 ^ 16 := (~~~ checksum).toNat_lt
  have hfold : (~~~ checksum).toNat = (fold16 sum).toNat := by
    have hself : onesFold (~~~ checksum).toNat = (~~~ checksum).toNat := by
      rw [onesFold_eq, if_neg (by omega)]
      omega
    rw [toNat_fold16, ← hself]
    exact onesFold_congr hpos hsum htracks
  rw [← UInt16.toNat_inj.mp hfold, UInt16.not_not]

/-! ### IPv4 -/

namespace Ipv4Header

/-- The words of a header that are never rewritten. -/
def restSum (header : Ipv4Header) : ℕ :=
  header.totalLength.toNat + header.identification.toNat + header.fragment.toNat +
    header.ttlProtocol.toNat + wordSum header.options

theorem wordSum_otherWords (header : Ipv4Header) :
    wordSum header.otherWords =
      (tosWord header.versionIhl header.tos).toNat + addrSum header.src + addrSum header.dst +
        header.restSum := by
  simp only [otherWords, wordSum, addrSum, restSum, List.cons_append, List.nil_append,
    List.map_cons, List.sum_cons]
  omega

theorem tosWord_pos (header : Ipv4Header) (tos : UInt8) :
    0 < (tosWord header.versionIhl tos).toNat := by
  have hversion : header.versionIhl.toNat / 2 ^ 4 = 4 := by
    have h := congrArg UInt8.toNat header.version_eq
    rwa [UInt8.toNat_shiftRight, Nat.shiftRight_eq_div_pow] at h
  have hhigh : (header.versionIhl.toUInt16 <<< 8).toNat = header.versionIhl.toNat * 2 ^ 8 := by
    have hshift : (8 : UInt16).toNat % 16 = 8 := rfl
    rw [UInt16.toNat_shiftLeft, hshift, UInt8.toNat_toUInt16, Nat.shiftLeft_eq,
      Nat.mod_eq_of_lt (by omega)]
  have hle : (header.versionIhl.toUInt16 <<< 8).toNat ≤ (tosWord header.versionIhl tos).toNat := by
    exact Nat.left_le_or
  omega

theorem wordSum_pos (header : Ipv4Header) : 0 < wordSum header.otherWords := by
  have hpos := header.tosWord_pos header.tos
  rw [wordSum_otherWords]
  omega

/-- The checksum of a header tracks the sum of its words. -/
def Tracked (header : Ipv4Header) : Prop := Tracks header.checksum (wordSum header.otherWords)

/-- The checksum is the full recomputation. -/
def Correct (header : Ipv4Header) : Prop := header.checksum = header.fullChecksum

theorem correct_iff (header : Ipv4Header) :
    header.Correct ↔ header.Tracked ∧ 0 < (~~~ header.checksum).toNat := by
  constructor
  · intro hcorrect
    rw [Tracked, hcorrect, fullChecksum, UInt16.not_not, toNat_fold16]
    exact ⟨tracks_fold16 _, onesFold_pos header.wordSum_pos⟩
  · rintro ⟨htracked, hpos⟩
    exact eq_of_tracks htracked hpos header.wordSum_pos

/-- A receiver accepts the header: all its words with the checksum add up to ones. -/
def Verifies (header : Ipv4Header) : Prop :=
  onesFold (wordSum header.otherWords + header.checksum.toNat) = 2 ^ 16 - 1

theorem verifies_iff (header : Ipv4Header) : header.Verifies ↔ header.Tracked := by
  have hpos := header.wordSum_pos
  have hlt := header.checksum.toNat_lt
  rw [Verifies, Tracked, Tracks, toNat_complement, onesFold_eq, if_neg (by omega)]
  omega

theorem tracked_rewriteAddresses {header : Ipv4Header} (htracked : header.Tracked)
    (newSrc newDst : UInt32) : (header.rewriteAddresses newSrc newDst).Tracked := by
  have hsrc := accumulateAddr_mod (~~~ header.checksum).toNat header.src newSrc
  have hdst := accumulateAddr_mod (accumulateAddr (~~~ header.checksum).toNat header.src newSrc)
    header.dst newDst
  have hfold := tracks_fold16 (accumulateAddr
    (accumulateAddr (~~~ header.checksum).toNat header.src newSrc) header.dst newDst)
  have hsum := header.wordSum_otherWords
  have hnew := (header.rewriteAddresses newSrc newDst).wordSum_otherWords
  unfold Tracked Tracks at htracked ⊢
  unfold Tracks at hfold
  rw [hnew]
  change (~~~ (ipv4ChecksumAfterAddrRewrite _ _ _ _ _)).toNat % _ =
    ((tosWord header.versionIhl header.tos).toNat + addrSum newSrc + addrSum newDst +
      header.restSum) % _
  unfold ipv4ChecksumAfterAddrRewrite
  omega

theorem tracked_rewriteTos {header : Ipv4Header} (htracked : header.Tracked) (newTos : UInt8) :
    (header.rewriteTos newTos).Tracked := by
  have hsum := header.wordSum_otherWords
  have hnew := (header.rewriteTos newTos).wordSum_otherWords
  unfold Tracked Tracks at htracked ⊢
  rw [hnew]
  rw [hsum] at htracked
  change (~~~ (ipv4ChecksumAfterTosRewrite _ _ _ _)).toNat % _ =
    ((tosWord header.versionIhl newTos).toNat + addrSum header.src + addrSum header.dst +
      header.restSum) % _
  unfold ipv4ChecksumAfterTosRewrite
  split_ifs with hsame
  · rw [← hsame]
    exact htracked
  · have hword := accumulate_mod (~~~ header.checksum).toNat
      (tosWord header.versionIhl header.tos) (tosWord header.versionIhl newTos)
    have hfold := tracks_fold16 (accumulate (~~~ header.checksum).toNat
      (tosWord header.versionIhl header.tos) (tosWord header.versionIhl newTos))
    unfold Tracks at hfold
    omega

theorem correct_rewriteAddresses {header : Ipv4Header} (hcorrect : header.Correct)
    (newSrc newDst : UInt32) : (header.rewriteAddresses newSrc newDst).Correct := by
  obtain ⟨htracked, hpos⟩ := header.correct_iff.mp hcorrect
  rw [correct_iff]
  refine ⟨tracked_rewriteAddresses htracked newSrc newDst, ?_⟩
  change 0 < (~~~ (ipv4ChecksumAfterAddrRewrite _ _ _ _ _)).toNat
  rw [ipv4ChecksumAfterAddrRewrite, UInt16.not_not, toNat_fold16]
  exact onesFold_pos (lt_of_lt_of_le hpos ((le_accumulateAddr _ _ _).trans
    (le_accumulateAddr _ _ _)))

theorem correct_rewriteTos {header : Ipv4Header} (hcorrect : header.Correct) (newTos : UInt8) :
    (header.rewriteTos newTos).Correct := by
  obtain ⟨htracked, hpos⟩ := header.correct_iff.mp hcorrect
  rw [correct_iff]
  refine ⟨tracked_rewriteTos htracked newTos, ?_⟩
  change 0 < (~~~ (ipv4ChecksumAfterTosRewrite _ _ _ _)).toNat
  unfold ipv4ChecksumAfterTosRewrite
  split_ifs with hsame
  · exact hpos
  · rw [UInt16.not_not, toNat_fold16]
    exact onesFold_pos (lt_of_lt_of_le hpos (le_accumulate _ _ _))

end Ipv4Header

/-! ### UDP -/

namespace UdpDatagram

theorem wordSum_otherWords (datagram : UdpDatagram) (src dst : UInt32) :
    wordSum (datagram.otherWords src dst) =
      addrSum src + addrSum dst + datagram.srcPort.toNat + datagram.dstPort.toNat +
        (17 + 2 * datagram.length.toNat + wordSum (payloadWords datagram.payload)) := by
  have hprotocol : (17 : UInt16).toNat = 17 := rfl
  simp only [otherWords, wordSum, addrSum, List.cons_append, List.nil_append, List.map_cons,
    List.sum_cons]
  omega

/-- A checksum with zero sent as `0xFFFF`. -/
def sentChecksum (computed : UInt16) : UInt16 := if computed = 0 then 0xFFFF else computed

/-- Zero and `0xFFFF` track the same sums. -/
theorem tracks_sentChecksum {computed : UInt16} {sum : ℕ} :
    Tracks (sentChecksum computed) sum ↔ Tracks computed sum := by
  unfold sentChecksum
  split_ifs with hzero
  · subst hzero
    have hfirst : (~~~ (0xFFFF : UInt16)).toNat = 0 := rfl
    have hsecond : (~~~ (0 : UInt16)).toNat = 2 ^ 16 - 1 := rfl
    rw [Tracks, Tracks, hfirst, hsecond, Nat.zero_mod, Nat.mod_self]
  · exact Iff.rfl

/-- Checksums that track one sum are sent alike. -/
theorem sentChecksum_congr {first second : UInt16} {sum : ℕ} (hfirst : Tracks first sum)
    (hsecond : Tracks second sum) : sentChecksum first = sentChecksum second := by
  have hfirstlt := first.toNat_lt
  have hsecondlt := second.toNat_lt
  have hmod : first.toNat % (2 ^ 16 - 1) = second.toNat % (2 ^ 16 - 1) := by
    unfold Tracks at hfirst hsecond
    rw [toNat_complement] at hfirst hsecond
    omega
  have hzero : (0 : UInt16).toNat = 0 := rfl
  have hones : (0xFFFF : UInt16).toNat = 2 ^ 16 - 1 := rfl
  unfold sentChecksum
  simp only [← UInt16.toNat_inj]
  split_ifs <;> omega

/-- The checksum is the full recomputation. -/
def Correct (datagram : UdpDatagram) (src dst : UInt32) : Prop :=
  datagram.checksum = datagram.fullChecksum src dst

theorem fullChecksum_eq (datagram : UdpDatagram) (src dst : UInt32) :
    datagram.fullChecksum src dst =
      sentChecksum (~~~ fold16 (wordSum (datagram.otherWords src dst))) := rfl

theorem sentChecksum_ne_zero (computed : UInt16) : sentChecksum computed ≠ 0 := by
  unfold sentChecksum
  split_ifs with hzero
  · decide
  · exact hzero

theorem correct_rewrite {datagram : UdpDatagram} {oldSrc oldDst : UInt32}
    (hcorrect : datagram.Correct oldSrc oldDst) (newSrc newDst : UInt32)
    (newSrcPort newDstPort : UInt16) :
    (datagram.rewrite oldSrc newSrc oldDst newDst newSrcPort newDstPort).Correct newSrc newDst := by
  have hne : datagram.checksum ≠ 0 := by
    rw [hcorrect, fullChecksum_eq]
    exact sentChecksum_ne_zero _
  have htracked : Tracks datagram.checksum (wordSum (datagram.otherWords oldSrc oldDst)) := by
    rw [hcorrect, fullChecksum_eq, tracks_sentChecksum]
    exact tracks_fold16 _
  have hsrc := accumulateAddr_mod (~~~ datagram.checksum).toNat oldSrc newSrc
  have hdst := accumulateAddr_mod (accumulateAddr (~~~ datagram.checksum).toNat oldSrc newSrc)
    oldDst newDst
  have hsrcPort := accumulate_mod (accumulateAddr
    (accumulateAddr (~~~ datagram.checksum).toNat oldSrc newSrc) oldDst newDst)
    datagram.srcPort newSrcPort
  have hdstPort := accumulate_mod (accumulate (accumulateAddr
    (accumulateAddr (~~~ datagram.checksum).toNat oldSrc newSrc) oldDst newDst)
    datagram.srcPort newSrcPort) datagram.dstPort newDstPort
  have hsum := datagram.wordSum_otherWords oldSrc oldDst
  have hnew : wordSum ((datagram.rewrite oldSrc newSrc oldDst newDst newSrcPort
      newDstPort).otherWords newSrc newDst) =
        addrSum newSrc + addrSum newDst + newSrcPort.toNat + newDstPort.toNat +
          (17 + 2 * datagram.length.toNat + wordSum (payloadWords datagram.payload)) :=
    wordSum_otherWords _ newSrc newDst
  have hfold : Tracks (~~~ fold16 (accumulate (accumulate (accumulateAddr
      (accumulateAddr (~~~ datagram.checksum).toNat oldSrc newSrc) oldDst newDst)
      datagram.srcPort newSrcPort) datagram.dstPort newDstPort))
        (wordSum ((datagram.rewrite oldSrc newSrc oldDst newDst newSrcPort newDstPort).otherWords
          newSrc newDst)) := by
    have hself := tracks_fold16 (accumulate (accumulate (accumulateAddr
      (accumulateAddr (~~~ datagram.checksum).toNat oldSrc newSrc) oldDst newDst)
      datagram.srcPort newSrcPort) datagram.dstPort newDstPort)
    unfold Tracks at hself htracked ⊢
    omega
  change udpChecksumAfterRewrite datagram.checksum oldSrc newSrc oldDst newDst datagram.srcPort
    newSrcPort datagram.dstPort newDstPort = _
  rw [udpChecksumAfterRewrite, if_neg hne]
  exact sentChecksum_congr hfold (tracks_fold16 _)

end UdpDatagram

/-- Rewriting keeps checksums. Whichever of the new addresses and the new TOS octet is stored first,
the header is the old one with those fields, its checksum is the full recomputation if the old one
was, and a receiver accepts it if it accepted the old one, whichever zero that used. A datagram gets
its new ports, its checksum is the full recomputation under the new addresses if the old one was,
and a checksum that is absent stays so. -/
theorem rewriting_keeps_checksums :
    (∀ (header : Ipv4Header) (newSrc newDst : UInt32) (newTos : UInt8),
      let rewritten : Ipv4Header := { header with tos := newTos, src := newSrc, dst := newDst }
      ∀ result ∈ [(header.rewriteAddresses newSrc newDst).rewriteTos newTos,
          (header.rewriteTos newTos).rewriteAddresses newSrc newDst],
        result = { rewritten with checksum := result.checksum } ∧
          (header.Correct → result.checksum = rewritten.fullChecksum) ∧
          (header.Verifies → result.Verifies)) ∧
    ∀ (datagram : UdpDatagram) (oldSrc newSrc oldDst newDst : UInt32)
      (newSrcPort newDstPort : UInt16),
      let rewritten : UdpDatagram := { datagram with srcPort := newSrcPort, dstPort := newDstPort }
      let result := datagram.rewrite oldSrc newSrc oldDst newDst newSrcPort newDstPort
      result = { rewritten with checksum := result.checksum } ∧
        (datagram.Correct oldSrc oldDst →
          result.checksum = rewritten.fullChecksum newSrc newDst) ∧
        (datagram.checksum = 0 → result.checksum = 0) := by
  refine ⟨?_, ?_⟩
  · intro header newSrc newDst newTos rewritten
    simp only [List.mem_cons, List.not_mem_nil, or_false, forall_eq_or_imp, forall_eq,
      Ipv4Header.verifies_iff]
    refine ⟨⟨rfl, ?_, ?_⟩, rfl, ?_, ?_⟩
    · intro hcorrect
      exact Ipv4Header.correct_rewriteTos
        (Ipv4Header.correct_rewriteAddresses hcorrect newSrc newDst) newTos
    · intro htracked
      exact Ipv4Header.tracked_rewriteTos
        (Ipv4Header.tracked_rewriteAddresses htracked newSrc newDst) newTos
    · intro hcorrect
      exact Ipv4Header.correct_rewriteAddresses
        (Ipv4Header.correct_rewriteTos hcorrect newTos) newSrc newDst
    · intro htracked
      exact Ipv4Header.tracked_rewriteAddresses
        (Ipv4Header.tracked_rewriteTos htracked newTos) newSrc newDst
  · intro datagram oldSrc newSrc oldDst newDst newSrcPort newDstPort rewritten result
    refine ⟨rfl, ?_, ?_⟩
    · intro hcorrect
      exact UdpDatagram.correct_rewrite hcorrect newSrc newDst newSrcPort newDstPort
    · intro hzero
      change udpChecksumAfterRewrite _ _ _ _ _ _ _ _ _ = 0
      rw [udpChecksumAfterRewrite, if_pos hzero]

/-- A header with one word of options. -/
def sampleHeader : Ipv4Header where
  versionIhl := 0x46
  tos := 0
  totalLength := 0x0073
  identification := 0
  fragment := 0x4000
  ttlProtocol := 0x4011
  checksum := 0xB661
  src := 0xC0A80001
  dst := 0xC0A800C7
  options := [0x0100, 0]
  version_eq := by decide

theorem sample_rewrite_keeps_checksum :
    let result := (sampleHeader.rewriteAddresses 0x0A000001 0xFFFFFFFF).rewriteTos 0xB8
    sampleHeader.Correct ∧ result.src = 0x0A000001 ∧ result.dst = 0xFFFFFFFF ∧ result.tos = 0xB8 ∧
      result.Correct := by
  intro result
  have hcorrect : sampleHeader.Correct := by
    rw [Ipv4Header.Correct]
    decide +kernel
  obtain ⟨hfields, hchecksum, -⟩ := rewriting_keeps_checksums.1 sampleHeader 0x0A000001 0xFFFFFFFF
    0xB8 result List.mem_cons_self
  exact ⟨hcorrect, congrArg Ipv4Header.src hfields, congrArg Ipv4Header.dst hfields,
    congrArg Ipv4Header.tos hfields, hchecksum hcorrect⟩

end SiphonRtp.Xdp
