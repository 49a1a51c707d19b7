import SiphonRtp.Datapath.Backend
import SiphonRtp.Engine.ReplyLatch
import SiphonRtp.Srtp.GcmContext
import SiphonRtp.Srtp.SecureLeg

/-!
# The SRTP bridge

`SrtpBridge` of `siphon-rtp-engine/src/srtp_bridge.rs`: the flows of the redirected endpoints of a
call, the secure legs they decrypt and encrypt with, and the table of learned reply addresses, with
`register`, `deregister` and `handle`. A leg is shared by the flows of a call, so flows name it by a
handle into a store of legs.

Calls are taken one after the other. Endpoints of the DTLS bridge, the interception and recording
taps, the liveness stamps and drop counters of the datapath, and the outcome of its send are left
out.

`SrtpBridge.handled` lists what a datagram can do. The chain gates the source, decrypts, encrypts,
and only then asks the latch, so a datagram that the latch refuses has already moved the state of
the legs.
-/

set_option autoImplicit false

namespace SiphonRtp.Engine

open Machine Datapath Srtp

/-! ### Plans and flows -/

/-- Whose contexts one side of a flow uses. -/
inductive BridgeLeg
  | near
  | far
deriving DecidableEq

/-- The plan of one redirected endpoint. -/
structure BridgeFlowPlan where
  endpoint : EndpointId
  ingressLeg : Option BridgeLeg
  egressLeg : Option BridgeLeg
  acceptedSource : SourceFilter
  /-- Whether accepted ingress may re-point the reply. -/
  latch : Bool
  outEndpoint : EndpointId
  outDst : SocketAddr
deriving DecidableEq

/-- The plan of a whole call. -/
structure BridgeCallPlan where
  nearLeg : Option SecureLeg
  farLeg : Option SecureLeg
  flows : List BridgeFlowPlan

/-- One side of an installed flow: the party, and its contexts in the store. -/
structure FlowLeg where
  party : BridgeLeg
  handle : ℕ
deriving DecidableEq

/-- An installed flow. -/
structure Flow where
  acceptedSource : SourceFilter
  latch : Option SymmetricLatch
  outEndpoint : EndpointId
  outDst : SocketAddr
  ingressLeg : Option FlowLeg
  egressLeg : Option FlowLeg
deriving DecidableEq

/-- The reply latch of a flow, for a datagram in the clear. A flow without one accepts everything
and adopts nothing. -/
def Flow.admits (flow : Flow) (source : SocketAddr) (plaintext : Bytes) : ReplyLatch × Flow :=
  match flow.latch with
  | none => (.accept none, flow)
  | some latch =>
    let (verdict, latch) := latch.admits source (rtpMediaSsrc plaintext)
    (verdict, { flow with latch := some latch })

structure SrtpBridge where
  flows : EndpointId → Option Flow
  /-- Where the peer of an endpoint sends from. -/
  latched : EndpointId → Option SocketAddr
  /-- The secure legs. A handle without one is a leg whose lock cannot be taken. -/
  legs : ℕ → Option SecureLeg
  nextHandle : ℕ

/-- Why a datagram is refused. -/
inductive Refusal
  | unsignalledSource
  | undecryptable
  | newSource
deriving DecidableEq

/-- What became of a datagram. -/
inductive BridgeOutcome
  | notOwned
  | refused (refusal : Refusal)
  /-- The egress encryption failed, or a leg could not be locked. -/
  | dropped
  | forwarded (endpoint : EndpointId) (destination : SocketAddr) (out : Bytes)
deriving DecidableEq

namespace SrtpBridge

/-- `SrtpBridge::new`. -/
def new : SrtpBridge where
  flows _ := none
  latched _ := none
  legs _ := none
  nextHandle := 0

/-! ### Registration -/

/-- The contexts a side names, nothing when the plan does not carry them. -/
def resolve (bridge : SrtpBridge) (plan : BridgeCallPlan) :
    Option BridgeLeg → Option (Option FlowLeg)
  | none => some none
  | some .near => plan.nearLeg.map fun _ ↦ some { party := .near, handle := bridge.nextHandle }
  | some .far => plan.farLeg.map fun _ ↦ some { party := .far, handle := bridge.nextHandle + 1 }

/-- One flow of a plan with its sides resolved and a latch of its own. -/
def resolveFlow (bridge : SrtpBridge) (plan : BridgeCallPlan) (flow : BridgeFlowPlan) :
    Option (EndpointId × Flow) :=
  (bridge.resolve plan flow.ingressLeg).bind fun ingressLeg ↦
    (bridge.resolve plan flow.egressLeg).map fun egressLeg ↦
      (flow.endpoint,
        { acceptedSource := flow.acceptedSource
          latch := if flow.latch then some {} else none
          outEndpoint := flow.outEndpoint
          outDst := flow.outDst
          ingressLeg
          egressLeg })

/-- Every flow of a plan, nothing when one names contexts that the plan does not carry. -/
def resolved (bridge : SrtpBridge) (plan : BridgeCallPlan) : Option (List (EndpointId × Flow)) :=
  plan.flows.mapM (bridge.resolveFlow plan)

/-- The learned address of the endpoint is one the new flow does not accept. -/
def rejectsLearned (bridge : SrtpBridge) (entry : EndpointId × Flow) : Bool :=
  (bridge.latched entry.1).any fun latched ↦ !entry.2.acceptedSource.accepts latched.ip

/-- The new flow sends to another address on the endpoint it sent from before. -/
def movesPeer (bridge : SrtpBridge) (entry : EndpointId × Flow) : Bool :=
  (bridge.flows entry.1).any fun previous ↦
    decide (previous.outEndpoint = entry.2.outEndpoint) &&
      signalledPeerMoved (some previous.outDst) (some entry.2.outDst)

/-- The endpoints whose learned address the new flows make stale. -/
def stale (bridge : SrtpBridge) (installed : List (EndpointId × Flow)) : List EndpointId :=
  installed.flatMap fun entry ↦
    (if bridge.rejectsLearned entry then [entry.1] else []) ++
      (if bridge.movesPeer entry then [entry.2.outEndpoint] else [])

/-- `SrtpBridge::register`. -/
def register (bridge : SrtpBridge) (plan : BridgeCallPlan) : SrtpBridge :=
  match bridge.resolved plan with
  | none => bridge
  | some installed =>
    { flows := installed.foldl (fun flows entry ↦ setAt flows entry.1 (some entry.2)) bridge.flows
      latched := fun endpoint ↦
        if endpoint ∈ bridge.stale installed then none else bridge.latched endpoint
      legs := Function.update (Function.update bridge.legs bridge.nextHandle plan.nearLeg)
        (bridge.nextHandle + 1) plan.farLeg
      nextHandle := bridge.nextHandle + 2 }

/-- `SrtpBridge::deregister`. -/
def deregister (bridge : SrtpBridge) (endpoints : List EndpointId) : SrtpBridge :=
  { bridge with
    flows := fun endpoint ↦ if endpoint ∈ endpoints then none else bridge.flows endpoint
    latched := fun endpoint ↦ if endpoint ∈ endpoints then none else bridge.latched endpoint }

/-! ### Datagrams -/

/-- One side's transform of a datagram, nothing when its leg cannot be locked. A plain side passes
the datagram on. -/
def transform (bridge : SrtpBridge)
    (apply : SecureLeg → Bytes → Except SrtpError (PacketKind × Bytes) × SecureLeg)
    (side : Option FlowLeg) (data : Bytes) : Option (Except SrtpError Bytes × SrtpBridge) :=
  match side with
  | none => some (.ok data, bridge)
  | some side =>
    (bridge.legs side.handle).map fun leg ↦
      ((apply leg data).1.map (·.2),
        { bridge with legs := Function.update bridge.legs side.handle (some (apply leg data).2) })

section Datagrams

variable (P : Primitives)

/-- `SrtpBridge::handle`. -/
def handle (bridge : SrtpBridge) (packet : RxPacket) : BridgeOutcome × SrtpBridge :=
  match bridge.flows packet.endpoint with
  | none => (.notOwned, bridge)
  | some flow =>
    if flow.acceptedSource.accepts packet.source.ip = false then
      (.refused .unsignalledSource, bridge)
    else
      match bridge.transform (SecureLeg.unprotect P) flow.ingressLeg packet.data with
      | none => (.dropped, bridge)
      | some (.error _, bridge) => (.refused .undecryptable, bridge)
      | some (.ok plaintext, bridge) =>
        match bridge.transform (SecureLeg.protect P) flow.egressLeg plaintext with
        | none => (.dropped, bridge)
        | some (.error _, bridge) => (.dropped, bridge)
        | some (.ok out, bridge) =>
          match flow.admits packet.source plaintext with
          | (.reject, flow) =>
            (.refused .newSource,
              { bridge with flows := setAt bridge.flows packet.endpoint (some flow) })
          | (.accept adopted, flow) =>
            -- the adopted address is recorded before the destination is read
            let latched := match adopted with
              | none => bridge.latched
              | some adopted => setAt bridge.latched packet.endpoint (some adopted)
            (.forwarded flow.outEndpoint ((latched flow.outEndpoint).getD flow.outDst) out,
              { bridge with
                flows := setAt bridge.flows packet.endpoint (some flow)
                latched })

/-! ### What a datagram can do -/

variable {P}

theorem setAt_eq_self {α : Type} (table : EndpointId → α) (endpoint : EndpointId) :
    setAt table endpoint (table endpoint) = table := by
  funext other
  by_cases hother : other = endpoint
  · rw [hother, setAt_self]
  · rw [setAt_of_ne table hother]

/-- A transform changes the legs only, and nothing on a plain side. -/
theorem transform_cases (bridge : SrtpBridge)
    (apply : SecureLeg → Bytes → Except SrtpError (PacketKind × Bytes) × SecureLeg)
    (side : Option FlowLeg) (data : Bytes) :
    bridge.transform apply side data = none ∨
      ∃ result legs, bridge.transform apply side data = some (result, { bridge with legs }) ∧
        (side = none → legs = bridge.legs) := by
  cases side with
  | none => exact Or.inr ⟨.ok data, bridge.legs, rfl, fun _ ↦ rfl⟩
  | some side =>
    cases hleg : bridge.legs side.handle with
    | none =>
      refine Or.inl ?_
      rw [transform, hleg]
      rfl
    | some leg =>
      refine Or.inr ⟨(apply leg data).1.map (·.2),
        Function.update bridge.legs side.handle (some (apply leg data).2), ?_, fun h ↦ nomatch h⟩
      rw [transform, hleg]
      rfl

/-- A failed decryption changes nothing. -/
theorem transform_unprotect_of_error {bridge next : SrtpBridge} {side : Option FlowLeg}
    {data : Bytes} {error : SrtpError}
    (hfailed : bridge.transform (SecureLeg.unprotect P) side data = some (.error error, next)) :
    next = bridge := by
  cases side with
  | none => exact nomatch hfailed
  | some side =>
    cases hleg : bridge.legs side.handle with
    | none =>
      rw [transform, hleg] at hfailed
      exact nomatch hfailed
    | some leg =>
      rw [transform, hleg] at hfailed
      obtain ⟨hresult, rfl⟩ := Prod.mk.inj (Option.some.inj hfailed)
      cases hunprotect : (leg.unprotect P data).1 with
      | error cause =>
        rw [SecureLeg.unprotect_of_error P hunprotect, ← hleg, Function.update_eq_self]
      | ok plain =>
        rw [hunprotect] at hresult
        exact nomatch hresult

end Datagrams

end SrtpBridge

/-- Only the latch of a flow is touched, and a refusal leaves it alone. -/
theorem Flow.admits_cases (flow : Flow) (source : SocketAddr) (plaintext : Bytes) :
    (flow.latch.isSome = true ∧ flow.admits source plaintext = (.reject, flow)) ∨
      (flow.latch = none ∧ flow.admits source plaintext = (.accept none, flow)) ∨
      ∃ reply latch, flow.latch.isSome = true ∧ (reply = none ∨ reply = some source) ∧
        flow.admits source plaintext = (.accept reply, { flow with latch := some latch }) := by
  cases hlatch : flow.latch with
  | none =>
    refine Or.inr (Or.inl ⟨rfl, ?_⟩)
    rw [admits, hlatch]
  | some latch =>
    cases hverdict : sourceLatchVerdict latch.latch source (rtpMediaSsrc plaintext) with
    | keep =>
      refine Or.inr (Or.inr ⟨some source, latch, rfl, Or.inr rfl, ?_⟩)
      simp only [admits, hlatch, SymmetricLatch.admits, hverdict]
    | learn learned =>
      by_cases hssrc : learned.ssrc = none
      · refine Or.inr (Or.inr ⟨none, latch, rfl, Or.inl rfl, ?_⟩)
        simp only [admits, hlatch, SymmetricLatch.admits, hverdict, hssrc, if_true]
      · refine Or.inr (Or.inr ⟨some source, { latch := some learned }, rfl, Or.inr rfl, ?_⟩)
        simp only [admits, hlatch, SymmetricLatch.admits, hverdict, hssrc, if_false]
    | reject =>
      refine Or.inl ⟨rfl, ?_⟩
      simp only [admits, hlatch, SymmetricLatch.admits, hverdict]
      rw [← hlatch]

namespace SrtpBridge

/-- What `handle` can do with a datagram. -/
inductive Handled (bridge : SrtpBridge) (packet : RxPacket) : BridgeOutcome × SrtpBridge → Prop
  | notOwned : Handled bridge packet (.notOwned, bridge)
  | unsignalled : Handled bridge packet (.refused .unsignalledSource, bridge)
  | undecryptable : Handled bridge packet (.refused .undecryptable, bridge)
  | dropped (legs : ℕ → Option SecureLeg) : Handled bridge packet (.dropped, { bridge with legs })
  /-- The latch refuses the datagram, after the transforms of the flow. -/
  | newSource {flow : Flow} (hflow : bridge.flows packet.endpoint = some flow)
      (legs : ℕ → Option SecureLeg)
      (hplain : flow.ingressLeg = none → flow.egressLeg = none → legs = bridge.legs) :
      Handled bridge packet (.refused .newSource, { bridge with legs })
  /-- The datagram is forwarded by a flow that does not latch. -/
  | relayed {flow : Flow} (hflow : bridge.flows packet.endpoint = some flow)
      (hlatch : flow.latch = none) (legs : ℕ → Option SecureLeg) (destination : SocketAddr)
      (out : Bytes) :
      Handled bridge packet (.forwarded flow.outEndpoint destination out, { bridge with legs })
  /-- The datagram is forwarded by a flow that latches, and its source may be adopted. -/
  | latched {flow : Flow} (hflow : bridge.flows packet.endpoint = some flow)
      (hsource : flow.acceptedSource.accepts packet.source.ip = true)
      (hlatch : flow.latch.isSome = true) (latch : SymmetricLatch)
      (learned : EndpointId → Option SocketAddr)
      (hlearned : learned = bridge.latched ∨
        learned = setAt bridge.latched packet.endpoint (some packet.source))
      (legs : ℕ → Option SecureLeg) (destination : SocketAddr) (out : Bytes) :
      Handled bridge packet (.forwarded flow.outEndpoint destination out,
        { bridge with
          flows := setAt bridge.flows packet.endpoint (some { flow with latch := some latch })
          latched := learned
          legs })

theorem handled (P : Primitives) (bridge : SrtpBridge) (packet : RxPacket) :
    Handled bridge packet (bridge.handle P packet) := by
  unfold handle
  cases hflow : bridge.flows packet.endpoint with
  | none => exact .notOwned
  | some flow =>
    dsimp only
    cases hsource : flow.acceptedSource.accepts packet.source.ip with
    | false =>
      rw [if_pos rfl]
      exact .unsignalled
    | true =>
      rcases bridge.transform_cases (SecureLeg.unprotect P) flow.ingressLeg packet.data with
        hnone | ⟨result, ingressLegs, hingress, hplain⟩
      · rw [hnone]
        exact .dropped bridge.legs
      rw [hingress]
      cases result with
      | error error =>
        rw [transform_unprotect_of_error hingress]
        exact .undecryptable
      | ok plaintext =>
        dsimp only
        rcases transform_cases { bridge with legs := ingressLegs } (SecureLeg.protect P)
            flow.egressLeg plaintext with hnone | ⟨result, legs, hegress, hplain'⟩
        · rw [hnone]
          exact .dropped ingressLegs
        rw [hegress]
        cases result with
        | error error => exact .dropped legs
        | ok out =>
          have hsame : setAt bridge.flows packet.endpoint (some flow) = bridge.flows := by
            rw [← hflow, setAt_eq_self]
          rcases flow.admits_cases packet.source plaintext with
            ⟨-, hadmits⟩ | ⟨hlatch, hadmits⟩ | ⟨reply, latch, hlatch, hreply, hadmits⟩
          · rw [hadmits]
            dsimp only
            rw [hsame]
            refine .newSource hflow legs fun hin hout ↦ ?_
            rw [hplain' hout, hplain hin]
          · rw [hadmits]
            dsimp only
            rw [hsame]
            exact .relayed hflow hlatch legs _ _
          · rw [hadmits]
            rcases hreply with rfl | rfl
            · exact .latched hflow hsource hlatch latch _ (Or.inl rfl) legs _ _
            · exact .latched hflow hsource hlatch latch _ (Or.inr rfl) legs _ _

end SrtpBridge

/-- What a datagram does to the flows and the learned addresses: nothing, or it is forwarded by a
flow that latches, and its source may be adopted. -/
theorem SrtpBridge.tables_handle (P : Primitives) (bridge : SrtpBridge) (packet : RxPacket) :
    ((bridge.handle P packet).2.flows = bridge.flows ∧
        (bridge.handle P packet).2.latched = bridge.latched) ∨
      ∃ flow latch, bridge.flows packet.endpoint = some flow ∧
        flow.acceptedSource.accepts packet.source.ip = true ∧ flow.latch.isSome = true ∧
        (∃ out destination wire, (bridge.handle P packet).1 = .forwarded out destination wire) ∧
        (bridge.handle P packet).2.flows =
          setAt bridge.flows packet.endpoint (some { flow with latch := some latch }) ∧
        ((bridge.handle P packet).2.latched = bridge.latched ∨
          (bridge.handle P packet).2.latched =
            setAt bridge.latched packet.endpoint (some packet.source)) := by
  have hhandled := bridge.handled P packet
  generalize bridge.handle P packet = outcome at hhandled ⊢
  cases hhandled with
  | notOwned => exact Or.inl ⟨rfl, rfl⟩
  | unsignalled => exact Or.inl ⟨rfl, rfl⟩
  | undecryptable => exact Or.inl ⟨rfl, rfl⟩
  | dropped legs => exact Or.inl ⟨rfl, rfl⟩
  | newSource _ legs => exact Or.inl ⟨rfl, rfl⟩
  | relayed _ _ legs => exact Or.inl ⟨rfl, rfl⟩
  | latched hflow hsource hlatch latch learned hlearned legs destination out =>
    exact Or.inr ⟨_, latch, hflow, hsource, hlatch, ⟨_, destination, out, rfl⟩, rfl, hlearned⟩

/-! ### A sample call -/

/-- The contexts of a secure peer. -/
def sampleSecureLeg : SecureLeg :=
  let material : SrtpKeyMaterial :=
    { masterKey := Vector.replicate 16 1, masterSalt := Vector.replicate 14 2, mki := none }
  SecureLeg.new transparent material material

/-- A call whose offerer, on endpoint 1, is secure, and may latch or not. -/
def samplePlan (latch : Bool) : BridgeCallPlan where
  nearLeg := some sampleSecureLeg
  farLeg := none
  flows :=
    [{ endpoint := 1
       ingressLeg := some .near
       egressLeg := none
       acceptedSource := .any
       latch
       outEndpoint := 2
       outDst := .v4 0x0A000001 4000 }]

/-- A protected datagram on endpoint 1. The tag is the one of the primitives that take every tag. -/
def securePacket (source : SocketAddr) (portion : Bytes) : RxPacket where
  endpoint := 1
  source
  arrival := 0
  data := portion ++ List.replicate 10 0

/-- An RTP packet of the offerer. -/
def rtpPortion : Bytes := [0x80, 0, 0, 1, 0, 0, 0, 0, 0, 0, 0, 9]

/-- An SRTCP packet of the offerer, with its index. -/
def rtcpPortion : Bytes := [0x80, 0xC9, 0, 1, 0, 0, 0, 9, 0x80, 0, 0, 1]

end SiphonRtp.Engine
