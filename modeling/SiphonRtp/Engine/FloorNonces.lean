import SiphonRtp.Engine.CallFloor

/-!
# Nonces of a floor stream

A protected floor packet uses one nonce: the master key, the SSRC and the SRTCP index it is sealed
with (`floorNonce`, `sealed_of_floorNonce`). The counter of the indices lives in the protection of
the leg. An empty key set drops the protection, and the next set that is not empty builds another
one, whose counter starts at zero: bringing the same key back repeats the nonces it has used
(`removed_key_repeats_nonce`). So does a second registration of the leg that resumes nothing.

`rebuilt` is the protection that an operation builds anew. Between two of those the indices go up
(`From.step`), so a nonce can only come back across one, and `floor_nonces_distinct` says that none
does if every packet under a key and an SSRC of earlier packets finds the counter resumed above
them.
-/

set_option autoImplicit false

namespace SiphonRtp.Engine

open Machine Srtp

/-- What makes the nonce of a protected floor packet. -/
structure FloorNonce where
  masterKey : Vector UInt8 16
  ssrc : UInt32
  index : UInt32
deriving DecidableEq

section Nonces

variable (P : Primitives)

/-- The nonce of the protected packet an operation sends, if it sends one. -/
def floorNonce : Option FloorLeg → FloorOp → Option FloorNonce
  | some leg, .leg (.send request) =>
    match leg.protection, (leg.build P request).1 with
    | some protection, .ok _ =>
      protection.context.keys.getLast?.map fun entry ↦
        { masterKey := entry.master.masterKey
          ssrc := request.ssrc.getD leg.ssrc
          index := protection.context.sendIndex }
    | _, _ => none
  | _, _ => none

/-- The protection an operation builds anew: that of a registration, or of keys for a leg in the
clear. -/
def rebuilt : Option FloorLeg → FloorOp → Option FloorProtection
  | _, .register config => (registerLeg P config).protection
  | some leg, .leg (.setKeys keys) =>
    if leg.protection = none then (leg.setKeys P keys).2.protection else none
  | _, _ => none

/-- The stream before position `k` of a run. -/
def streamAt (ops : List FloorOp) (k : ℕ) : Option FloorLeg := final (floorStep P) none (ops.take k)

/-- The nonce used at a position of a run. -/
def nonceAt (ops : List FloorOp) (k : ℕ) : Option FloorNonce :=
  ops[k]?.bind (floorNonce P (streamAt P ops k))

/-- The protection built anew at a position of a run. -/
def rebuiltAt (ops : List FloorOp) (k : ℕ) : Option FloorProtection :=
  ops[k]?.bind (rebuilt P (streamAt P ops k))

/-- A packet with a nonce is sealed under it, and leaves. -/
theorem sealed_of_floorNonce {stream : Option FloorLeg} {op : FloorOp} {used : FloorNonce}
    (hused : floorNonce P stream op = some used) :
    ∃ leg held packet out entry next, stream = some leg ∧ leg.protection = some held ∧
      held.context.keys.getLast? = some entry ∧ entry.master.masterKey = used.masterKey ∧
      rtcpSsrc packet = used.ssrc ∧ held.context.sendIndex = used.index ∧
      entry.session.seal P packet true used.index = .ok out ∧
      held.seal P packet = (.ok (out ++ toBe 4 entry.master.mki.toNat), next) ∧
      floorStep P stream op =
        (.sent (.ok (leg.destination, out ++ toBe 4 entry.master.mki.toNat)),
          some { leg with protection := some next }) := by
  cases stream with
  | none => exact nomatch hused
  | some leg =>
    rcases op with config | _ | keys | packet | request
    · exact nomatch hused
    · exact nomatch hused
    · exact nomatch hused
    · exact nomatch hused
    · rcases leg.build_cases P request with
        ⟨error, hbuild⟩ | ⟨packet, wire, protection, hwrite, hwrites, hbuild⟩
      · cases hprotection : leg.protection with
        | none => simp [floorNonce, hprotection] at hused
        | some held => simp [floorNonce, hbuild] at hused
      · cases hprotection : leg.protection with
        | none => simp [floorNonce, hprotection] at hused
        | some held =>
          rw [hprotection] at hwrites
          cases hwrites with
          | sealed hseal =>
            rename_i next
            rcases held.context.protect_cases P packet true with
              ⟨error, hprotect⟩ | ⟨entry, out, -, hlast, hsealed, hprotect⟩
            · simp [FloorProtection.seal, hprotect] at hseal
            · have hwire : wire = out ++ toBe 4 entry.master.mki.toNat := by
                simp only [FloorProtection.seal, hprotect, Prod.mk.injEq, Except.ok.injEq] at hseal
                exact hseal.1.symm
              subst hwire
              simp only [floorNonce, hprotection, hbuild, hlast, Option.map_some,
                Option.some.injEq] at hused
              subst hused
              refine ⟨leg, held, packet, out, entry, next, rfl, hprotection, hlast, rfl,
                rtcpSsrc_of_writeApp hwrite, rfl, hsealed, hseal, ?_⟩
              simp only [floorStep, FloorLeg.step, hbuild]

/-! ### The counter -/

/-- The next packet the stream protects has an index from `index` on. -/
def From (index : ℕ) (stream : Option FloorLeg) : Prop :=
  ∀ leg held, stream = some leg → leg.protection = some held →
    held.context.Bounded ∧ index ≤ held.context.nextIndex

/-- A leg whose protection is that of another one after a call on it. -/
theorem From.call {index : ℕ} {leg : FloorLeg} {held : FloorProtection}
    (hfrom : From index (some leg)) (hheld : leg.protection = some held) (input : FloorCall)
    (next : FloorLeg) (hnext : next.protection = some (held.call P input).2) :
    From index (some next) := by
  intro leg' held' hleg' hheld'
  obtain rfl := Option.some.inj hleg'
  obtain rfl := Option.some.inj (hnext.symm.trans hheld')
  obtain ⟨hbounded, hindex⟩ := hfrom leg held rfl hheld
  have hcontext := FloorProtection.call_context P held input
  obtain ⟨hbounded', hindex'⟩ := SrtcpGcmContext.nextIndex_call P hbounded input.onContext
  rw [hcontext] at hbounded' hindex'
  refine ⟨hbounded', ?_⟩
  have hup : (held.call P input).2.context.nextIndex = held.context.nextIndex + _ := hindex'
  omega

variable {P}

/-- A leg with the protection of another one. -/
theorem From.congr {index : ℕ} {leg next : FloorLeg} (hfrom : From index (some leg))
    (hsame : next.protection = leg.protection) : From index (some next) := by
  intro leg' held' hleg' hheld'
  obtain rfl := Option.some.inj hleg'
  exact hfrom leg held' rfl (hsame.symm.trans hheld')

theorem from_none (index : ℕ) : From index none := fun _ _ hleg _ ↦ nomatch hleg

theorem from_clear (index : ℕ) {leg : FloorLeg} (hclear : leg.protection = none) :
    From index (some leg) := by
  intro leg' held hleg' hheld
  obtain rfl := Option.some.inj hleg'
  exact nomatch hclear.symm.trans hheld

/-- What an operation builds anew is the protection of the leg after it, and starts in the index
space. -/
theorem floorStep_rebuilt {stream : Option FloorLeg} {op : FloorOp} {built : FloorProtection}
    (hbuilt : rebuilt P stream op = some built) :
    built.context.Bounded ∧ ∃ leg, (floorStep P stream op).2 = some leg ∧
      leg.protection = some built := by
  cases op with
  | register config => exact ⟨(sound_of_register hbuilt).bounded, _, rfl, hbuilt⟩
  | deregister => cases stream <;> exact nomatch hbuilt
  | leg input =>
    cases stream with
    | none => cases input <;> exact nomatch hbuilt
    | some leg =>
      cases input with
      | ingest packet => exact nomatch hbuilt
      | send request => exact nomatch hbuilt
      | setKeys keys =>
        simp only [rebuilt] at hbuilt
        split_ifs at hbuilt with hclear
        refine ⟨?_, _, rfl, hbuilt⟩
        rcases leg.setKeys_cases P keys with
          ⟨-, heq⟩ | ⟨_, heq⟩ | ⟨_, _, -, hheld, -, -⟩ | ⟨next, -, -, hnew, heq⟩
        · rw [heq] at hbuilt
          exact nomatch hbuilt
        · rw [heq, hclear] at hbuilt
          exact nomatch hbuilt
        · exact nomatch hclear.symm.trans hheld
        · rw [heq] at hbuilt
          obtain rfl := Option.some.inj hbuilt
          exact (FloorProtection.sound_of_new hnew).1.bounded

theorem from_rebuilt {stream : Option FloorLeg} {op : FloorOp} {built : FloorProtection}
    (hbuilt : rebuilt P stream op = some built) {index : ℕ}
    (hindex : index ≤ built.context.nextIndex) : From index (floorStep P stream op).2 := by
  obtain ⟨hbounded, leg, hleg, hprotection⟩ := floorStep_rebuilt hbuilt
  intro leg' held hleg' hheld
  obtain rfl := Option.some.inj (hleg.symm.trans hleg')
  obtain rfl := Option.some.inj (hprotection.symm.trans hheld)
  exact ⟨hbounded, hindex⟩

/-- No operation takes the counter back, unless it builds the protection anew below it. -/
theorem From.step {index : ℕ} {stream : Option FloorLeg} (hfrom : From index stream) (op : FloorOp)
    (hrebuilt : ∀ built, rebuilt P stream op = some built → index ≤ built.context.nextIndex) :
    From index (floorStep P stream op).2 := by
  cases hbuilt : rebuilt P stream op with
  | some built => exact from_rebuilt hbuilt (hrebuilt built hbuilt)
  | none => ?_
  cases op with
  | register config => exact from_clear index hbuilt
  | deregister => exact from_none index
  | leg input =>
    cases stream with
    | none => exact from_none index
    | some leg =>
      rcases leg.protection_step P input with
        hsame | ⟨-, hnone⟩ | ⟨held, call, hheld, hcall⟩ | ⟨keys, next, rfl, -, hclear, -, hnext⟩
      · exact hfrom.congr hsame
      · exact from_clear index hnone
      · exact hfrom.call P hheld call _ hcall
      · rw [rebuilt, if_pos hclear] at hbuilt
        exact nomatch hnext.symm.trans hbuilt

/-- A protected packet has the next index of the counter, and moves it up. -/
theorem From.sent {index : ℕ} {stream : Option FloorLeg} (hfrom : From index stream) {op : FloorOp}
    {used : FloorNonce} (hused : floorNonce P stream op = some used) :
    index ≤ used.index.toNat ∧ From (used.index.toNat + 1) (floorStep P stream op).2 := by
  obtain ⟨leg, held, packet, out, entry, next, rfl, hheld, -, -, -, hindex, -, hseal, hstep⟩ :=
    sealed_of_floorNonce P hused
  obtain ⟨hbounded, hle⟩ := hfrom leg held rfl hheld
  have hprotect : (held.context.protect P packet true).1 =
      .ok (out ++ toBe 4 entry.master.mki.toNat) := congrArg Prod.fst hseal
  obtain ⟨hat, hbounded', hup⟩ := SrtcpGcmContext.protect_ok_nextIndex P hbounded hprotect
  rw [show (held.context.protect P packet true).2 = next.context from
    congrArg (fun result ↦ result.2.context) hseal] at hbounded' hup
  rw [hindex] at hat
  refine ⟨hat ▸ hle, ?_⟩
  rw [hstep]
  intro leg' held' hleg' hheld'
  obtain rfl := Option.some.inj hleg'
  obtain rfl := Option.some.inj hheld'
  refine ⟨hbounded', ?_⟩
  rw [hup, hat]

/-! ### A run -/

theorem from_streamAt (ops : List FloorOp) (k : ℕ) : From 0 (streamAt P ops k) :=
  final_invariant (From 0) (fun _ op _ hfrom ↦ hfrom.step op fun _ _ ↦ Nat.zero_le _) (from_none 0)

/-- Before position `k` the counter stands above the packet of position `i`, or it goes up from
where the last protection built since then started. -/
theorem counter_since {ops : List FloorOp} {i : ℕ} {used : FloorNonce}
    (hused : nonceAt P ops i = some used) {k : ℕ} (hk : k ≤ ops.length) (hik : i < k) :
    From (used.index.toNat + 1) (streamAt P ops k) ∨
      ∃ r built, i < r ∧ r < k ∧ rebuiltAt P ops r = some built ∧
        (∀ m, r < m → m < k → rebuiltAt P ops m = none) ∧
        From built.context.nextIndex (streamAt P ops k) := by
  refine @final_take_induction _ _ _ (floorStep P)
    (fun k stream ↦ i < k → From (used.index.toNat + 1) stream ∨
      ∃ r built, i < r ∧ r < k ∧ rebuiltAt P ops r = some built ∧
        (∀ m, r < m → m < k → rebuiltAt P ops m = none) ∧ From built.context.nextIndex stream)
    none ops (fun h ↦ nomatch h) ?_ k hk hik
  intro k op hop ih hik
  have hrebuiltAt : rebuiltAt P ops k = rebuilt P (streamAt P ops k) op := by
    rw [rebuiltAt, hop, Option.bind_some]
  rcases Nat.eq_or_lt_of_le (Nat.le_of_lt_succ hik) with rfl | hlt
  · rw [nonceAt, hop] at hused
    exact Or.inl ((from_streamAt ops i).sent hused).2
  cases hrebuilt : rebuilt P (streamAt P ops k) op with
  | some built =>
    refine Or.inr ⟨k, built, hlt, Nat.lt_succ_self k, hrebuiltAt.trans hrebuilt, ?_, ?_⟩
    · intro m hkm hmk
      omega
    · exact from_rebuilt hrebuilt le_rfl
  | none =>
    have hkept : ∀ {index : ℕ}, From index (streamAt P ops k) →
        From index (floorStep P (streamAt P ops k) op).2 := by
      intro index hfrom
      exact hfrom.step op fun built hbuilt ↦ nomatch hrebuilt.symm.trans hbuilt
    rcases ih hlt with hfrom | ⟨r, built, hir, hrk, hr, hlast, hfrom⟩
    · exact Or.inl (hkept hfrom)
    · refine Or.inr ⟨r, built, hir, Nat.lt_succ_of_lt hrk, hr, ?_, hkept hfrom⟩
      intro m hrm hmk
      rcases Nat.eq_or_lt_of_le (Nat.le_of_lt_succ hmk) with rfl | hmk
      · exact hrebuiltAt.trans hrebuilt
      · exact hlast m hrm hmk

variable (P)

/-- When a packet is sent under the key and the SSRC of an earlier one, and the protection was built
anew in between, its counter was resumed above the index of the earlier one. -/
def ResumesAbove (ops : List FloorOp) : Prop :=
  ∀ i r j used reused built, i < r → r < j → nonceAt P ops i = some used →
    nonceAt P ops j = some reused → reused.masterKey = used.masterKey → reused.ssrc = used.ssrc →
    rebuiltAt P ops r = some built → (∀ m, r < m → m < j → rebuiltAt P ops m = none) →
      used.index.toNat < built.context.nextIndex

variable {P}

/-- No two protected packets of a floor stream have the same master key, SSRC and SRTCP index,
whatever is registered, received, sent and keyed on it. Assumes: a key and an SSRC that were in use
before the protection was last built anew are used again only above the indices they have used. -/
theorem floor_nonces_distinct {ops : List FloorOp} (hresumes : ResumesAbove P ops) {i j : ℕ}
    {used reused : FloorNonce} (hij : i < j) (hused : nonceAt P ops i = some used)
    (hreused : nonceAt P ops j = some reused) : used ≠ reused := by
  rintro rfl
  cases hop : ops[j]? with
  | none => simp [nonceAt, hop] at hreused
  | some op =>
    have hj : j < ops.length := (List.getElem?_eq_some_iff.mp hop).1
    have hat : floorNonce P (streamAt P ops j) op = some used := by
      rwa [nonceAt, hop] at hreused
    rcases counter_since hused hj.le hij with hfrom | ⟨r, built, hir, hrj, hr, hlast, hfrom⟩
    · have hle := (hfrom.sent hat).1
      omega
    · have habove := hresumes i r j used used built hir hrj hused hreused rfl rfl hr hlast
      have hle := (hfrom.sent hat).1
      omega

end Nonces

/-! ### Keys that come back -/

/-- A stream toward one party, keyed from its registration. -/
def sampleFloorLeg (restore : Option LegRestore) : CallFloorLeg where
  destination := .v4 0x0A000001 4000
  acceptedSource := .any
  ssrc := 9
  keys := [sampleMaster]
  restore

/-- A packet for the party. -/
def sampleRequest : AppRequest where
  ssrc := none
  name := Vector.replicate 4 0x41
  subtype := 1
  payload := []

/-- A registration that resumes above the packets already sent repeats none of their nonces. -/
theorem floor_nonces_distinct_resumed :
    let ops : List FloorOp :=
      [.register (sampleFloorLeg none), .leg (.send sampleRequest),
        .register (sampleFloorLeg (some { sendIndex := 5, received := [], latched := none })),
        .leg (.send sampleRequest)]
    nonceAt transparent ops 1 ≠ nonceAt transparent ops 3 := by
  intro ops hsame
  have hfirst : nonceAt transparent ops 1 =
      some { masterKey := sampleMaster.masterKey, ssrc := 9, index := 0 } := by decide
  refine floor_nonces_distinct ?_ (by decide : 1 < 3) hfirst (hsame.symm.trans hfirst) rfl
  have hpositions : ∀ j < 4, ∀ r < j, ∀ i < r, ∀ used ∈ nonceAt transparent ops i,
      ∀ built ∈ rebuiltAt transparent ops r, used.index.toNat < built.context.nextIndex := by
    decide
  intro i r j used reused built hir hrj hused hreused _ _ hbuilt _
  have hj : j < 4 := by
    by_contra hge
    have hnone : ops[j]? = none := List.getElem?_eq_none (Nat.le_of_not_lt hge)
    simp [nonceAt, hnone] at hreused
  exact hpositions j hj r hrj i hir used hused built hbuilt

/-- An empty key set and then the key that was in use before: the first packet of the stream and the
first one after that have the same nonce. -/
theorem removed_key_repeats_nonce :
    let ops : List FloorOp :=
      [.register (sampleFloorLeg none), .leg (.send sampleRequest), .leg (.setKeys []),
        .leg (.setKeys [sampleMaster]),
        .leg (.send sampleRequest)]
    nonceAt transparent ops 1 = nonceAt transparent ops 4 ∧
      (nonceAt transparent ops 1).isSome = true := by
  decide

end SiphonRtp.Engine
