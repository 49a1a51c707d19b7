import SiphonRtp.Engine.CallFloor

/-!
# Whom a keyed floor stream replies to

The latch of a floor stream learns one source and keeps it. A keyed stream opens a datagram before
its latch sees it, so what it learns is authenticated. The latch outlives the keys, though: a stream
that is keyed after it has learned a source in the clear replies to that source from then on
(`keyed_after_clear_latch`), and refuses the authenticated party.

`Authentic` is what one would want of a keyed stream, and `authentic_iff` says when a run has it:
whenever keys are set on a stream in the clear that has learned a source, some earlier datagram from
that source was authenticated. The other parts hold of every run: what is raised from a keyed stream
was opened, and a refused datagram changes a counter at most.
-/

set_option autoImplicit false

namespace SiphonRtp.Engine

open Machine Datapath Srtp

section Latch

variable (P : Primitives)

/-- A leg that starts afresh, and is then keyed, receives and sends. -/
def legAt (config : CallFloorLeg) (inputs : List LegInput) (k : ℕ) : FloorLeg :=
  final (FloorLeg.step P) (registerLeg P { config with restore := none }) (inputs.take k)

/-- The input is a datagram from the source, and the leg takes it because it opened it under the
keys it holds. -/
def Authenticates (leg : FloorLeg) (input : LegInput) (source : SocketAddr) : Prop :=
  ∃ packet held plain next, input = .ingest packet ∧ packet.source = source ∧
    leg.protection = some held ∧ held.open P packet.data = (.ok plain, next) ∧
    (leg.ingest P packet).1.1 = .accepted

/-- A datagram from the source was authenticated before position `k`. -/
def AuthenticatedBefore (config : CallFloorLeg) (inputs : List LegInput) (k : ℕ)
    (source : SocketAddr) : Prop :=
  ∃ i < k, ∃ input, inputs[i]? = some input ∧ Authenticates P (legAt P config inputs i) input source

/-- A keyed stream replies to an authenticated source only, raises only what was authenticated, and
is not moved by what it refuses. -/
structure Authentic (config : CallFloorLeg) (inputs : List LegInput) : Prop where
  learned : ∀ k ≤ inputs.length, (legAt P config inputs k).protection.isSome = true →
    ∀ source, (legAt P config inputs k).latch.latched = some source →
      (legAt P config inputs k).destination = source ∧ AuthenticatedBefore P config inputs k source
  raised : ∀ k packet, inputs[k]? = some (.ingest packet) →
    (legAt P config inputs k).protection.isSome = true →
    ((legAt P config inputs k).ingest P packet).1.2 ≠ [] →
      Authenticates P (legAt P config inputs k) (.ingest packet) packet.source
  refused : ∀ k packet, inputs[k]? = some (.ingest packet) →
    ((legAt P config inputs k).ingest P packet).1.1 = .refused →
      ((legAt P config inputs k).ingest P packet).2.latch = (legAt P config inputs k).latch ∧
      ((legAt P config inputs k).ingest P packet).2.destination =
        (legAt P config inputs k).destination ∧
      ((legAt P config inputs k).ingest P packet).2.protection =
        (legAt P config inputs k).protection

/-! ### One input -/

/-- The latch and the destination stay, or a datagram is taken and both are its source. -/
theorem latch_step (leg : FloorLeg) (input : LegInput) :
    ((leg.step P input).2.latch = leg.latch ∧
        (leg.step P input).2.destination = leg.destination) ∨
      ∃ packet, input = .ingest packet ∧ (leg.ingest P packet).1.1 = .accepted ∧
        (leg.step P input).2.latch.latched = some packet.source ∧
        (leg.step P input).2.destination = packet.source := by
  cases input with
  | setKeys keys =>
    simp only [FloorLeg.step]
    rcases leg.setKeys_cases P keys with
      ⟨-, heq⟩ | ⟨_, heq⟩ | ⟨_, _, -, -, -, heq⟩ | ⟨_, -, -, -, heq⟩
    all_goals exact Or.inl ⟨by rw [heq], by rw [heq]⟩
  | ingest packet =>
    simp only [FloorLeg.step]
    rcases leg.ingest_cases P packet with ⟨_, heq⟩ | ⟨_, _, _, _, _, -, -, hlatched, heq⟩
    · exact Or.inl ⟨by rw [heq], by rw [heq]⟩
    · refine Or.inr ⟨packet, rfl, ?_⟩
      rw [heq]
      exact ⟨rfl, hlatched, rfl⟩
  | send request =>
    simp only [FloorLeg.step]
    rcases leg.build_cases P request with ⟨_, heq⟩ | ⟨_, _, _, -, -, heq⟩
    all_goals exact Or.inl ⟨by rw [heq], by rw [heq]⟩

variable {P}

/-- A keyed leg authenticates what it takes. -/
theorem authenticates_of_taken {leg : FloorLeg} (hkeyed : leg.protection.isSome = true)
    {packet : RxPacket} (htaken : (leg.ingest P packet).1 ≠ (.refused, [])) :
    Authenticates P leg (.ingest packet) packet.source := by
  obtain ⟨held, hheld⟩ := Option.isSome_iff_exists.mp hkeyed
  obtain ⟨plain, next, hopen, houtcome, -⟩ := FloorLeg.ingest_of_keyed P hheld htaken
  exact ⟨packet, held, plain, next, rfl, rfl, hheld, hopen, by rw [houtcome]⟩

theorem refused_unchanged {leg : FloorLeg} {packet : RxPacket}
    (hrefused : (leg.ingest P packet).1.1 = .refused) :
    (leg.ingest P packet).2.latch = leg.latch ∧
      (leg.ingest P packet).2.destination = leg.destination ∧
      (leg.ingest P packet).2.protection = leg.protection := by
  rcases leg.ingest_cases P packet with ⟨_, heq⟩ | ⟨_, _, _, _, _, -, -, -, heq⟩
  · rw [heq]
    exact ⟨rfl, rfl, rfl⟩
  · rw [heq] at hrefused
    exact nomatch hrefused

/-- A leg that is keyed after an input has learned a source it had learned before, when it was keyed
or in the clear and is given keys, or one it authenticates now. -/
theorem learned_step {leg : FloorLeg} {input : LegInput}
    (hkeyed : (leg.step P input).2.protection.isSome = true) {source : SocketAddr}
    (hlatched : (leg.step P input).2.latch.latched = some source) :
    (leg.latch.latched = some source ∧ (leg.protection.isSome = true ∨
        ∃ keys, input = .setKeys keys ∧ leg.protection = none)) ∨
      Authenticates P leg input source := by
  have hbefore : leg.protection.isSome = true ∨
      ∃ keys, input = .setKeys keys ∧ leg.protection = none := by
    rcases leg.protection_step P input with
      hsame | ⟨-, hnone⟩ | ⟨_, _, hheld, -⟩ | ⟨keys, _, hinput, -, hclear, -, -⟩
    · exact Or.inl (hsame ▸ hkeyed)
    · rw [hnone] at hkeyed
      exact nomatch hkeyed
    · rw [hheld]
      exact Or.inl rfl
    · exact Or.inr ⟨keys, hinput, hclear⟩
  rcases latch_step P leg input with ⟨hlatch, -⟩ | ⟨packet, rfl, houtcome, hsource, -⟩
  · exact Or.inl ⟨hlatch ▸ hlatched, hbefore⟩
  · rcases hbefore with hheld | ⟨_, hinput, -⟩
    · obtain rfl := Option.some.inj (hsource.symm.trans hlatched)
      refine Or.inr (authenticates_of_taken hheld fun hrefused ↦ ?_)
      rw [hrefused] at houtcome
      exact nomatch houtcome
    · exact nomatch hinput

/-! ### A run -/

variable (P) in
theorem legAt_succ (config : CallFloorLeg) {inputs : List LegInput} {k : ℕ} {input : LegInput}
    (hinput : inputs[k]? = some input) :
    legAt P config inputs (k + 1) = ((legAt P config inputs k).step P input).2 :=
  final_take_succ (FloorLeg.step P) hinput _

/-- A stream that has learned a source sends there. -/
theorem destination_of_latched (config : CallFloorLeg) (inputs : List LegInput) (k : ℕ) :
    ∀ source, (legAt P config inputs k).latch.latched = some source →
      (legAt P config inputs k).destination = source := by
  refine final_invariant (fun leg : FloorLeg ↦ ∀ source, leg.latch.latched = some source →
    leg.destination = source) (fun leg input _ hleg source hsource ↦ ?_)
    (fun source hsource ↦ nomatch hsource)
  rcases latch_step P leg input with ⟨hlatch, hdestination⟩ | ⟨packet, -, -, hlatched, hreply⟩
  · rw [hdestination]
    exact hleg source (hlatch ▸ hsource)
  · rw [hreply]
    exact Option.some.inj (hlatched.symm.trans hsource)

theorem AuthenticatedBefore.succ {config : CallFloorLeg} {inputs : List LegInput} {k : ℕ}
    {source : SocketAddr} (hbefore : AuthenticatedBefore P config inputs k source) :
    AuthenticatedBefore P config inputs (k + 1) source := by
  obtain ⟨i, hik, input, hinput, hauthenticates⟩ := hbefore
  exact ⟨i, Nat.lt_succ_of_lt hik, input, hinput, hauthenticates⟩

/-- A stream in the clear is keyed by a set exactly if the checks on the kept keys pass. -/
theorem keyed_iff {leg : FloorLeg} (hclear : leg.protection = none) (keys : List FloorMasterKey) :
    (leg.setKeys P keys).2.protection.isSome = true ↔
      SrtcpGcmContext.checkKeys (SrtcpGcmContext.keptKeys keys) = .ok () := by
  unfold FloorLeg.setKeys
  rw [hclear]
  by_cases hempty : keys = []
  · subst hempty
    simp [SrtcpGcmContext.checkKeys, SrtcpGcmContext.keptKeys]
  · rw [if_neg hempty]
    unfold FloorProtection.new SrtcpGcmContext.new SrtcpGcmContext.replaceKeys
    rw [if_neg hempty]
    cases SrtcpGcmContext.checkKeys (SrtcpGcmContext.keptKeys keys) with
    | error error => simp [hclear]
    | ok => simp

/-- A run of datagrams, key changes and sends on a floor stream that starts afresh is authentic,
exactly when a set that the checks on keys accept is given to the stream in the clear only while it
has learned nothing, or a source that was authenticated before. -/
theorem authentic_iff (config : CallFloorLeg) (inputs : List LegInput) :
    Authentic P config inputs ↔
      ∀ k keys source, inputs[k]? = some (.setKeys keys) →
        (legAt P config inputs k).protection = none →
        SrtcpGcmContext.checkKeys (SrtcpGcmContext.keptKeys keys) = .ok () →
        (legAt P config inputs k).latch.latched = some source →
          AuthenticatedBefore P config inputs k source := by
  constructor
  · intro hauthentic k keys source hinput hclear hcheck hlatched
    have hkeyed := (keyed_iff (P := P) hclear keys).mpr hcheck
    have hk : k < inputs.length := (List.getElem?_eq_some_iff.mp hinput).1
    have hafter := legAt_succ P config hinput
    have hsame : (legAt P config inputs (k + 1)).latch.latched = some source := by
      rw [hafter]
      rcases latch_step P (legAt P config inputs k) (.setKeys keys) with
        ⟨hlatch, -⟩ | ⟨_, hingest, -⟩
      · rw [hlatch]
        exact hlatched
      · exact nomatch hingest
    obtain ⟨-, i, hik, input, hi, hauthenticates⟩ :=
      hauthentic.learned (k + 1) hk (by rw [hafter]; exact hkeyed) source hsame
    refine ⟨i, ?_, input, hi, hauthenticates⟩
    -- the input at `k` itself is no datagram
    rcases Nat.eq_or_lt_of_le (Nat.le_of_lt_succ hik) with rfl | hlt
    · obtain ⟨packet, -, -, -, hpacket, -⟩ := hauthenticates
      rw [hinput, hpacket] at hi
      exact nomatch hi
    · exact hlt
  · intro hkeys
    refine ⟨fun k hk hkeyed source hlatched ↦ ?_, fun k packet _ hkeyed hraised ↦ ?_,
      fun k packet _ hrefused ↦ refused_unchanged hrefused⟩
    · refine ⟨destination_of_latched config inputs k source hlatched, ?_⟩
      refine @final_take_induction _ _ _ (FloorLeg.step P)
        (fun k leg ↦ leg.protection.isSome = true → ∀ source, leg.latch.latched = some source →
          AuthenticatedBefore P config inputs k source)
        (registerLeg P { config with restore := none }) inputs
        (fun _ source hsource ↦ nomatch hsource) ?_ k hk hkeyed source hlatched
      intro k input hinput ih hkeyed source hlatched
      rcases learned_step hkeyed hlatched with ⟨hlearned, hheld | ⟨keys, rfl, hclear⟩⟩ | hnow
      · exact (ih hheld source hlearned).succ
      · have hcheck := (keyed_iff hclear keys).mp hkeyed
        exact AuthenticatedBefore.succ (hkeys k keys source hinput hclear hcheck hlearned)
      · exact ⟨k, Nat.lt_succ_self k, input, hinput, hnow⟩
    · refine authenticates_of_taken hkeyed fun houtcome ↦ hraised ?_
      rw [houtcome]

end Latch

/-- A stream in the clear with one key to come. -/
def clearFloorLeg : CallFloorLeg where
  destination := .v4 0x0A000001 4000
  acceptedSource := .any
  ssrc := 9
  keys := []
  restore := none

/-- An empty datagram from somewhere. -/
def strayDatagram : RxPacket where
  endpoint := 1
  source := .v4 0x0A000063 9999
  arrival := 0
  data := []

/-- The stream takes an empty datagram from anyone while it is in the clear. The keys that are set
next do not make it forget that source, and nothing was ever authenticated. -/
theorem keyed_after_clear_latch :
    ¬ Authentic transparent clearFloorLeg
      [.ingest strayDatagram, .setKeys [sampleMaster]] := by
  intro hauthentic
  obtain ⟨-, i, hi, input, hinput, packet, held, _, _, -, -, hheld, -⟩ :=
    hauthentic.learned 2 (by decide) (by decide) (.v4 0x0A000063 9999) (by decide)
  have hclear : ∀ i < 2, (legAt transparent clearFloorLeg
      [.ingest strayDatagram, .setKeys [sampleMaster]] i).protection = none := by
    decide
  exact nomatch (hclear i hi).symm.trans hheld

end SiphonRtp.Engine
