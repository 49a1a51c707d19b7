import SiphonRtp.Srtp.GcmRekey
import SiphonRtp.Srtp.GcmRoundTrip

/-!
# Nonces of the AES-GCM SRTCP context

The nonce of a sealed packet is its key and its SRTCP index (RFC 7714 §9.1). `nextIndex` is the next
index a context would use, `2³¹` once it has none left. A successful `protect` seals with that index
(`sealed_of_protect`) and moves it up by one, and every other call leaves it alone, a replacement of
the keys included (`nextIndex_call`). Along any interleaving of calls the indices of the successful
ones are then strictly increasing, whichever keys come and go, and past the last index nothing is
sealed any more (`gcm_nonce_fresh`).

What an exhausted context answers depends on the packet: the length and the version are checked
before the exhaustion is (`exhausted_answers_too_short`).
-/

set_option autoImplicit false

namespace SiphonRtp.Srtp

open Machine

/-- A call that sealed a packet. -/
def GcmCall.seals : GcmCall → Except SrtpError Bytes → Bool
  | .protect _ _, .ok _ => true
  | _, _ => false

namespace SrtcpGcmContext

variable (P : Primitives) {context : SrtcpGcmContext}

/-- The next index a context would seal at, `2³¹` when it has none left. -/
def nextIndex (context : SrtcpGcmContext) : ℕ :=
  if context.exhausted then 2 ^ 31 else context.sendIndex.toNat

/-- The key and the index a context would seal with. -/
def sealsWith (context : SrtcpGcmContext) : Option (FloorMasterKey × UInt32) :=
  context.keys.getLast?.map fun entry ↦ (entry.master, context.sendIndex)

/-- A packet sealed with a key and an index: what the session of the key makes of it with that
index, and the key's MKI. -/
def SealedWith (rtcp : Bytes) (encrypt : Bool) (out : Bytes) (used : FloorMasterKey × UInt32) :
    Prop :=
  ∃ body, (GcmSession.derive P used.1).seal P rtcp encrypt used.2 = .ok body ∧
    out = body ++ toBe 4 used.1.mki.toNat

/-- The send index has 31 bits. -/
def Bounded (context : SrtcpGcmContext) : Prop := context.sendIndex.toNat < 2 ^ 31

/-- A successful `protect` uses the next index and moves it up by one. -/
theorem protect_ok_nextIndex (hbounded : context.Bounded) {rtcp out : Bytes} {encrypt : Bool}
    (hok : (context.protect P rtcp encrypt).1 = .ok out) :
    context.sendIndex.toNat = context.nextIndex ∧
      (context.protect P rtcp encrypt).2.Bounded ∧
      (context.protect P rtcp encrypt).2.nextIndex = context.nextIndex + 1 := by
  rcases context.protect_cases P rtcp encrypt with ⟨_, heq⟩ | ⟨_, _, hopen, -, -, heq⟩
  · simp [heq] at hok
  · rw [heq]
    have hnext : context.nextIndex = context.sendIndex.toNat := by
      unfold nextIndex
      rw [hopen]
      rfl
    refine ⟨hnext.symm, ?_⟩
    unfold Bounded at hbounded ⊢
    rw [hnext]
    by_cases hlastIndex : context.sendIndex = lastIndex
    · have hmax : context.sendIndex.toNat = 2 ^ 31 - 1 := by
        rw [hlastIndex]
        rfl
      simp only [hlastIndex, ↓reduceIte, nextIndex]
      rw [hlastIndex] at hmax hbounded
      exact ⟨hbounded, by omega⟩
    · have hbelow : context.sendIndex.toNat ≠ 2 ^ 31 - 1 := by
        intro hmax
        apply hlastIndex
        exact UInt32.toNat_inj.mp hmax
      have hup : (context.sendIndex + 1).toNat = context.sendIndex.toNat + 1 := by
        have hone : (1 : UInt32).toNat = 1 := rfl
        rw [UInt32.toNat_add]
        omega
      simp only [hlastIndex, ↓reduceIte, nextIndex, hopen, Bool.false_eq_true, hup]
      exact ⟨by omega, trivial⟩

/-- What a successful `protect` writes carries the send index. -/
theorem packetSrtcpIndex_of_protect (hbounded : context.Bounded) {rtcp out : Bytes} {encrypt : Bool}
    (hok : (context.protect P rtcp encrypt).1 = .ok out) :
    packetSrtcpIndex out = context.sendIndex.toNat := by
  rcases context.protect_cases P rtcp encrypt with ⟨_, heq⟩ | ⟨entry, body, -, -, hseal, heq⟩
  · simp [heq] at hok
  · rw [heq] at hok
    obtain rfl := Except.ok.inj hok
    exact packetSrtcpIndex_of_seal P hseal hbounded _

/-- A successful `protect` seals its packet with the last key and the send index. Assumes: every
held session is derived from its key. -/
theorem sealed_of_protect
    (hderived : ∀ entry ∈ context.keys, entry.session = .derive P entry.master)
    {rtcp out : Bytes} {encrypt : Bool} (hok : (context.protect P rtcp encrypt).1 = .ok out) :
    ∃ used, context.sealsWith = some used ∧ SealedWith P rtcp encrypt out used ∧
      used.2 = context.sendIndex := by
  rcases context.protect_cases P rtcp encrypt with ⟨_, heq⟩ | ⟨entry, body, -, hlast, hseal, heq⟩
  · simp [heq] at hok
  · rw [heq] at hok
    obtain rfl := Except.ok.inj hok
    refine ⟨(entry.master, context.sendIndex), by simp [sealsWith, hlast], ⟨body, ?_, rfl⟩, rfl⟩
    rw [← hderived entry (List.mem_of_getLast? hlast)]
    exact hseal

/-- What a call does to the next index: a successful `protect` moves it up by one, everything else
leaves it alone. -/
theorem nextIndex_call (hbounded : context.Bounded) (input : GcmCall) :
    (context.call P input).2.Bounded ∧ (context.call P input).2.nextIndex =
      context.nextIndex + (input.seals (context.call P input).1).toNat := by
  cases hresult : (context.call P input).1 with
  | error error =>
    rw [context.call_of_error P input hresult]
    refine ⟨hbounded, ?_⟩
    cases input with
    | protect => rfl
    | unprotect => rfl
    | replaceKeys => rfl
  | ok out =>
    cases input with
    | protect rtcp encrypt =>
      obtain ⟨-, hnext, hup⟩ := protect_ok_nextIndex P hbounded hresult
      exact ⟨hnext, hup⟩
    | unprotect srtcp =>
      simp only [call] at hresult ⊢
      rcases context.unprotect_cases P srtcp with ⟨_, heq⟩ | ⟨_, _, -, -, -, heq⟩
      · simp [heq] at hresult
      · rw [heq]
        exact ⟨hbounded, rfl⟩
    | replaceKeys keys =>
      simp only [call] at hresult ⊢
      rcases context.replaceKeys_cases P keys with ⟨_, -, heq⟩ | ⟨-, heq⟩
      · simp [heq, Except.map] at hresult
      · rw [heq]
        exact ⟨hbounded, rfl⟩

/-- A run moves the next index up by the packets it seals. -/
theorem nextIndex_final (hbounded : context.Bounded) (calls : List GcmCall) :
    (final (call P) context calls).Bounded ∧ (final (call P) context calls).nextIndex =
      context.nextIndex +
        (trace (call P) context calls).countP fun entry ↦ entry.1.seals entry.2 := by
  induction calls generalizing context with
  | nil => exact ⟨hbounded, rfl⟩
  | cons input rest ih =>
    obtain ⟨hnext, hup⟩ := nextIndex_call P hbounded input
    obtain ⟨hlast, hrest⟩ := ih hnext
    refine ⟨hlast, ?_⟩
    rw [final_cons, hrest, hup, trace_cons, List.countP_cons, Nat.add_assoc]
    congr 1
    rw [Nat.add_comm]
    congr 1
    cases input.seals (context.call P input).1 with
    | false => rfl
    | true => rfl

/-- Along a run the next index never moves down. -/
theorem nextIndex_mono (hbounded : context.Bounded) (calls : List GcmCall) {i j : ℕ} (hij : i ≤ j) :
    (final (call P) context (calls.take j)).Bounded ∧
      (final (call P) context (calls.take i)).nextIndex ≤
        (final (call P) context (calls.take j)).nextIndex := by
  have hstart := (nextIndex_final P hbounded (calls.take i)).1
  refine final_take_rel (fun before after : SrtcpGcmContext ↦ before.Bounded →
    after.Bounded ∧ before.nextIndex ≤ after.nextIndex) ?_ ?_ ?_ context calls hij hstart
  · intro state hstate
    exact ⟨hstate, le_rfl⟩
  · intro first second third hfirst hsecond hstate
    obtain ⟨hmiddle, hle⟩ := hfirst hstate
    obtain ⟨hlast, hle'⟩ := hsecond hmiddle
    exact ⟨hlast, hle.trans hle'⟩
  · intro state input hstate
    obtain ⟨hnext, hup⟩ := nextIndex_call P hstate input
    exact ⟨hnext, (Nat.le_add_right _ _).trans_eq hup.symm⟩

/-- A successful `protect` at a position of a run uses the next index of its state, which is the one
its packet carries, and leaves a higher one to every later position. -/
theorem sealed_at (hbounded : context.Bounded) {calls : List GcmCall} {i j : ℕ} {rtcp out : Bytes}
    {encrypt : Bool} (hcall : calls[i]? = some (.protect rtcp encrypt))
    (hout : (outputs (call P) context calls)[i]? = some (.ok out)) (hij : i < j) :
    (final (call P) context (calls.take i)).sendIndex.toNat =
        (final (call P) context (calls.take i)).nextIndex ∧
      packetSrtcpIndex out = (final (call P) context (calls.take i)).nextIndex ∧
      (final (call P) context (calls.take i)).nextIndex <
        (final (call P) context (calls.take j)).nextIndex := by
  have hbefore := (nextIndex_mono P hbounded calls (Nat.le_refl i)).1
  have hok := output_at (call P) hcall hout
  obtain ⟨hindex, -, hup⟩ := protect_ok_nextIndex P hbefore hok
  have hafter := (nextIndex_mono P hbounded calls (Nat.succ_le_of_lt hij)).2
  rw [final_take_succ _ hcall] at hafter
  refine ⟨hindex, (packetSrtcpIndex_of_protect P hbefore hok).trans hindex, ?_⟩
  calc (final (call P) context (calls.take i)).nextIndex
      < (final (call P) context (calls.take i)).nextIndex + 1 := Nat.lt_succ_self _
    _ = ((final (call P) context (calls.take i)).protect P rtcp encrypt).2.nextIndex := hup.symm
    _ ≤ (final (call P) context (calls.take j)).nextIndex := hafter

/-- A context without a next index is exhausted. -/
theorem exhausted_of_nextIndex (hbounded : context.Bounded) (hnext : 2 ^ 31 ≤ context.nextIndex) :
    context.exhausted = true := by
  cases hexhausted : context.exhausted with
  | true => rfl
  | false =>
    unfold Bounded at hbounded
    simp only [nextIndex, hexhausted, Bool.false_eq_true, ↓reduceIte] at hnext
    omega

/-- A context with a next index is not exhausted, and its send index is that index. -/
theorem left_of_nextIndex (hnext : context.nextIndex < 2 ^ 31) :
    context.exhausted = false ∧ context.sendIndex.toNat = context.nextIndex := by
  unfold nextIndex at hnext ⊢
  cases hexhausted : context.exhausted with
  | false => exact ⟨rfl, rfl⟩
  | true => simp [hexhausted] at hnext

/-- An exhausted context refuses every packet, and says so where the packet is well formed. -/
theorem protect_of_exhausted (hexhausted : context.exhausted = true) (rtcp : Bytes)
    (encrypt : Bool) :
    (checkRtcp rtcp = .ok () →
        (context.protect P rtcp encrypt).1 = .error .indexExhausted) ∧
      ∃ error, (context.protect P rtcp encrypt).1 = .error error := by
  unfold protect
  cases hcheck : checkRtcp rtcp with
  | error error => exact ⟨nofun, error, rfl⟩
  | ok => simp [hexhausted]

theorem bounded_of_new {keys : List FloorMasterKey}
    (hnew : SrtcpGcmContext.new P keys = .ok context) :
    context.Bounded ∧ context.nextIndex = 0 := by
  unfold SrtcpGcmContext.new at hnew
  rcases replaceKeys_cases P { keys := [], sendIndex := 0, exhausted := false } keys with
    ⟨_, -, heq⟩ | ⟨-, heq⟩
  · simp [heq] at hnew
  · rw [heq] at hnew
    obtain rfl := Except.ok.inj hnew
    exact ⟨show (0 : UInt32).toNat < 2 ^ 31 by decide, rfl⟩

end SrtcpGcmContext

/-! ### Every interleaving of calls -/

section Run

variable (P : Primitives) {context : SrtcpGcmContext}

open SrtcpGcmContext

/-- No nonce is used twice. Assumes: a context fresh from its keys, and any interleaving of calls on
it. A successful `protect` writes the packet sealed with the last key and the send index of its
state; of two of them the later one uses the higher index, which is also what its packet carries,
and so another pair of key and index. A `protect` that fails leaves the context as it was. Once the
last index has been used, every later `protect` fails, and with the exhaustion error for every
packet that passes the length and version checks. -/
theorem gcm_nonce_fresh {keys : List FloorMasterKey}
    (hnew : SrtcpGcmContext.new P keys = .ok context) (calls : List GcmCall) :
    let state := fun k ↦ final (call P) context (calls.take k)
    let results := outputs (call P) context calls
    (∀ (i j : ℕ) first second encrypt encrypt' out out', i < j →
        calls[i]? = some (.protect first encrypt) → calls[j]? = some (.protect second encrypt') →
          results[i]? = some (.ok out) → results[j]? = some (.ok out') →
            ∃ used used', (state i).sealsWith = some used ∧ (state j).sealsWith = some used' ∧
              SealedWith P first encrypt out used ∧ SealedWith P second encrypt' out' used' ∧
              used ≠ used' ∧ used.2 < used'.2 ∧ packetSrtcpIndex out = used.2.toNat ∧
              packetSrtcpIndex out' = used'.2.toNat) ∧
      (∀ (i : ℕ) rtcp encrypt error, calls[i]? = some (.protect rtcp encrypt) →
        results[i]? = some (.error error) → state (i + 1) = state i) ∧
      ∀ (i j : ℕ) first second encrypt encrypt', i < j → calls[i]? = some (.protect first encrypt) →
        (∃ out, results[i]? = some (.ok out)) → (state i).sendIndex = lastIndex →
          calls[j]? = some (.protect second encrypt') →
            (checkRtcp second = .ok () → results[j]? = some (.error .indexExhausted)) ∧
              ∃ error, results[j]? = some (.error error) := by
  intro state results
  obtain ⟨hbounded, -⟩ := bounded_of_new P hnew
  have hstate : ∀ k, (state k).Bounded := fun k ↦
    (nextIndex_mono P hbounded calls (Nat.le_refl k)).1
  have hsealed : ∀ {k : ℕ} {rtcp out : Bytes} {encrypt : Bool},
      calls[k]? = some (.protect rtcp encrypt) → results[k]? = some (.ok out) →
        ∃ used, (state k).sealsWith = some used ∧ SealedWith P rtcp encrypt out used ∧
          used.2 = (state k).sendIndex := by
    intro k rtcp out encrypt hcall hok
    have hk : k ≤ calls.length := (List.getElem?_eq_some_iff.mp hcall).1.le
    exact sealed_of_protect P (holds_run (holds_of_new hnew) hk).derived
      (output_at (call P) hcall hok)
  refine ⟨?_, ?_, ?_⟩
  · intro i j first second encrypt encrypt' out out' hij hfirst hsecond hok hok'
    obtain ⟨used, hwith, hout, hused⟩ := hsealed hfirst hok
    obtain ⟨used', hwith', hout', hused'⟩ := hsealed hsecond hok'
    obtain ⟨hindex, hcarried, hlt⟩ := sealed_at P hbounded hfirst hok hij
    obtain ⟨hindex', hcarried', -⟩ := sealed_at P hbounded hsecond hok' (Nat.lt_succ_self j)
    rw [← hused] at hindex
    rw [← hused'] at hindex'
    have hlower : used.2 < used'.2 := (hindex.trans_lt hlt).trans_eq hindex'.symm
    refine ⟨used, used', hwith, hwith', hout, hout', ?_, hlower, hcarried.trans hindex.symm,
      hcarried'.trans hindex'.symm⟩
    rintro rfl
    exact UInt32.lt_irrefl _ hlower
  · intro i rtcp encrypt error hcall herror
    have hfails := output_at (call P) hcall herror
    exact (final_take_succ (call P) hcall context).trans (call_of_error P _ _ hfails)
  · intro i j first second encrypt encrypt' hij hfirst ⟨out, hok⟩ hlast hsecond
    obtain ⟨hindex, -, hlt⟩ := sealed_at P hbounded hfirst hok hij
    have hmax : (state i).nextIndex = 2 ^ 31 - 1 :=
      hindex.symm.trans (congrArg UInt32.toNat hlast)
    have hbeyond : 2 ^ 31 ≤ (state j).nextIndex := by
      have hlater : (state i).nextIndex < (state j).nextIndex := hlt
      omega
    have hexhausted := exhausted_of_nextIndex (hstate j) hbeyond
    obtain ⟨hanswer, error, hfails⟩ := protect_of_exhausted P hexhausted second encrypt'
    have hat := getElem?_outputs_of_eq (call P) hsecond context
    refine ⟨?_, error, ?_⟩
    · intro hcheck
      exact hat.trans (congrArg some (hanswer hcheck))
    · exact hat.trans (congrArg some hfails)

end Run

/-! ### A context used up -/

/-- Two packets sealed under one key, the key replaced by itself between them. -/
theorem gcm_nonce_fresh_across_rekey :
    let calls : List GcmCall := [.protect bareRtcp true, .replaceKeys [sampleMaster],
      .protect bareRtcp true]
    let results := outputs (SrtcpGcmContext.call transparent) (sampleContext transparent) calls
    ∃ out out', results[0]? = some (.ok out) ∧ results[2]? = some (.ok out') ∧
      SrtcpGcmContext.packetSrtcpIndex out ≠ SrtcpGcmContext.packetSrtcpIndex out' := by
  intro calls results
  obtain ⟨out, hout⟩ : ∃ out, results[0]? = some (.ok out) := ⟨_, rfl⟩
  obtain ⟨out', hout'⟩ : ∃ out, results[2]? = some (.ok out) := ⟨_, rfl⟩
  obtain ⟨used, used', -, -, -, -, -, hlower, hindex, hindex'⟩ :=
    (gcm_nonce_fresh transparent (new_sampleMaster transparent) calls).1 0 2 bareRtcp bareRtcp true
      true out out' (by decide) rfl rfl hout hout'
  refine ⟨out, out', hout, hout', ?_⟩
  rw [hindex, hindex']
  exact Nat.ne_of_lt hlower

namespace SrtcpGcmContext

variable {P : Primitives} {context : SrtcpGcmContext}

/-- A context with a key and an index left protects every well-formed packet. Assumes: the cipher
seals. -/
theorem protect_of_seals (hseals : P.Seals) (hkeys : context.keys ≠ [])
    (hleft : context.exhausted = false) {rtcp : Bytes} (hcheck : checkRtcp rtcp = .ok ())
    (encrypt : Bool) :
    ∃ out, (context.protect P rtcp encrypt).1 = .ok out ∧
      (context.protect P rtcp encrypt).2.keys = context.keys := by
  obtain ⟨entry, hlast⟩ := Option.ne_none_iff_exists'.mp (mt List.getLast?_eq_none_iff.mp hkeys)
  obtain ⟨out, hout⟩ := entry.session.seal_of_seals hseals rtcp encrypt context.sendIndex
  simp only [protect, hcheck, hleft, hlast, hout, Bool.false_eq_true, ↓reduceIte]
  refine ⟨_, rfl, ?_⟩
  split_ifs
  · rfl
  · rfl

/-- Protecting one packet over and over counts the index up. Assumes: the cipher seals, and the run
starts at index zero. -/
theorem nextIndex_replicate (hseals : P.Seals) (hkeys : context.keys ≠ [])
    (hbounded : context.Bounded) (hstart : context.nextIndex = 0) {rtcp : Bytes}
    (hcheck : checkRtcp rtcp = .ok ()) (encrypt : Bool) {count k : ℕ} (hcount : count ≤ 2 ^ 31)
    (hk : k ≤ count) (rest : List GcmCall) :
    let calls := List.replicate count (GcmCall.protect rtcp encrypt) ++ rest
    let state := final (call P) context (calls.take k)
    state.keys ≠ [] ∧ state.Bounded ∧ state.nextIndex = k := by
  intro calls
  have hlength : k ≤ calls.length := by
    simp only [calls, List.length_append, List.length_replicate]
    omega
  induction k with
  | zero => exact ⟨hkeys, hbounded, hstart⟩
  | succ k ih =>
    obtain ⟨hheld, hfits, hindex⟩ := ih (by omega) (by omega)
    have hcall : calls[k]? = some (GcmCall.protect rtcp encrypt) := by
      rw [List.getElem?_append_left (by rwa [List.length_replicate]),
        List.getElem?_replicate_of_lt hk]
    generalize hstate : final (call P) context (calls.take k) = state at hheld hfits hindex
    have hleft := (left_of_nextIndex (lt_of_eq_of_lt hindex (Nat.lt_of_lt_of_le hk hcount))).1
    obtain ⟨out, hok, hkept⟩ := protect_of_seals hseals hheld hleft hcheck encrypt
    obtain ⟨-, hnext, hup⟩ := protect_ok_nextIndex P hfits hok
    have hafter : final (call P) context (calls.take (k + 1)) =
        (state.protect P rtcp encrypt).2 := by
      rw [final_take_succ _ hcall, hstate]
      rfl
    rw [hafter]
    exact ⟨hkept ▸ hheld, hnext, by rw [hup, hindex]⟩

end SrtcpGcmContext

/-- The last index of a context is used and a later `protect` does not answer that it is exhausted:
the packet is too short, and that is checked first. -/
theorem exhausted_answers_too_short :
    (∃ P : Primitives, P.Seals) ∧
      ∀ P : Primitives, P.Seals →
        let calls := List.replicate (2 ^ 31) (GcmCall.protect bareRtcp true) ++ [.protect [] true]
        let results := outputs (SrtcpGcmContext.call P) (sampleContext P) calls
        SrtcpGcmContext.new P [sampleMaster] = .ok (sampleContext P) ∧
          calls[2 ^ 31 - 1]? = some (.protect bareRtcp true) ∧
          (∃ out, results[2 ^ 31 - 1]? = some (.ok out)) ∧
          (final (SrtcpGcmContext.call P) (sampleContext P)
            (calls.take (2 ^ 31 - 1))).sendIndex = lastIndex ∧
          calls[2 ^ 31]? = some (.protect [] true) ∧
          results[2 ^ 31]? = some (.error .tooShort) := by
  refine ⟨⟨transparent, fun _ _ _ _ ↦ rfl⟩, ?_⟩
  intro P hseals calls results
  obtain ⟨hbounded, hstart⟩ := SrtcpGcmContext.bounded_of_new P (new_sampleMaster P)
  have hcheck : checkRtcp bareRtcp = .ok () := by decide
  obtain ⟨hkeys, hfits, hnext⟩ := SrtcpGcmContext.nextIndex_replicate hseals
    (List.cons_ne_nil _ _) hbounded hstart hcheck true (Nat.le_refl (2 ^ 31))
    (Nat.sub_le (2 ^ 31) 1) [.protect [] true]
  have hlength : (List.replicate (2 ^ 31) (GcmCall.protect bareRtcp true)).length = 2 ^ 31 :=
    List.length_replicate
  have hbefore : calls[2 ^ 31 - 1]? = some (.protect bareRtcp true) := by
    simp only [calls]
    rw [List.getElem?_append_left (by rw [hlength]; exact Nat.sub_lt (Nat.two_pow_pos 31) one_pos)]
    exact List.getElem?_replicate_of_lt (Nat.sub_lt (Nat.two_pow_pos 31) one_pos)
  have hafter : calls[2 ^ 31]? = some (.protect [] true) := by
    simp only [calls]
    rw [List.getElem?_append_right hlength.le, hlength, Nat.sub_self]
    rfl
  obtain ⟨hleft, hindex⟩ := SrtcpGcmContext.left_of_nextIndex
    (lt_of_eq_of_lt hnext (Nat.sub_lt (Nat.two_pow_pos 31) one_pos))
  obtain ⟨out, hok, -⟩ := SrtcpGcmContext.protect_of_seals hseals hkeys hleft hcheck true
  refine ⟨new_sampleMaster P, hbefore, ⟨out, ?_⟩, ?_, hafter, ?_⟩
  · exact (getElem?_outputs_of_eq _ hbefore _).trans (congrArg some hok)
  · exact UInt32.toNat_inj.mp (hindex.trans hnext)
  · exact getElem?_outputs_of_eq _ hafter _

end SiphonRtp.Srtp
