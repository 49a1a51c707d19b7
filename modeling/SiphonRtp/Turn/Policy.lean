import SiphonRtp.Turn.Messages

/-!
# The TURN server's configuration

The types of `siphon-rtp-turn/src/lib.rs`: the key of an allocation, the way back to a client, the
policy on peer addresses and the configuration. `PeerIpPolicy.permits` tests an address by the
ranges of its own family and by an explicit list.

An IPv4 address also has a form in IPv6 (`mapped`). The ranges of IPv6 never hold it, so the policy
denies it only when it is listed itself (`permits_mapped`), whatever it says of the IPv4 address.
-/

set_option autoImplicit false

namespace SiphonRtp.Turn

open Machine Datapath

/-! ### Keys and transports -/

inductive TransportProtocol
  | udp
  | tcp
  | tls
deriving DecidableEq

/-- The key of an allocation. -/
structure FiveTuple where
  client : SocketAddr
  server : SocketAddr
  transport : TransportProtocol
deriving DecidableEq

/-- The way back to a client: the shared socket and its address, or the writer of its stream. -/
inductive ClientTransport
  | udp (peer : SocketAddr)
  | stream (writer : ℕ)
deriving DecidableEq

def ClientTransport.isStream : ClientTransport → Bool
  | .udp _ => false
  | .stream _ => true

/-- An endpoint of the datapath: its id and the address its socket is bound to. -/
structure Endpoint where
  id : EndpointId
  localAddr : SocketAddr
deriving DecidableEq

/-! ### Peer addresses -/

def IpAddr.isUnspecified : IpAddr → Bool
  | .v4 ip => decide (ip = 0)
  | .v6 ip => decide (ip = 0)

/-- `127.0.0.0/8`. -/
def v4IsLoopback (ip : BitVec 32) : Bool := decide (ip >>> 24 = 127)

/-- `10.0.0.0/8`, `172.16.0.0/12` and `192.168.0.0/16`. -/
def v4IsPrivate (ip : BitVec 32) : Bool :=
  decide (ip >>> 24 = 10 ∨ ip >>> 20 = 0xAC1 ∨ ip >>> 16 = 0xC0A8)

/-- `169.254.0.0/16`. -/
def v4IsLinkLocal (ip : BitVec 32) : Bool := decide (ip >>> 16 = 0xA9FE)

/-- `224.0.0.0/4`. -/
def v4IsMulticast (ip : BitVec 32) : Bool := decide (ip >>> 28 = 0xE)

def v4IsBroadcast (ip : BitVec 32) : Bool := decide (ip = 0xFFFFFFFF)

def v6IsLoopback (ip : BitVec 128) : Bool := decide (ip = 1)

/-- `fc00::/7`. -/
def v6IsUniqueLocal (ip : BitVec 128) : Bool := decide ((ip >>> 120) &&& 0xFE = 0xFC)

/-- `fe80::/10`. -/
def v6IsLinkLocal (ip : BitVec 128) : Bool := decide ((ip >>> 112) &&& 0xFFC0 = 0xFE80)

/-- `ff00::/8`. -/
def v6IsMulticast (ip : BitVec 128) : Bool := decide (ip >>> 120 = 0xFF)

/-- Which peers an allocation may exchange traffic with. -/
structure PeerIpPolicy where
  denyLoopback : Bool
  denyPrivate : Bool
  denyLinkLocal : Bool
  denyMulticast : Bool
  denied : List IpAddr

/-- `PeerIpPolicy::default`. -/
def PeerIpPolicy.default : PeerIpPolicy := ⟨true, true, true, true, []⟩

/-- `PeerIpPolicy::permits`. -/
def PeerIpPolicy.permits (policy : PeerIpPolicy) (peer : IpAddr) : Bool :=
  if policy.denied.contains peer then false
  else if IpAddr.isUnspecified peer then false
  else
    match peer with
    | .v4 ip =>
      !(policy.denyLoopback && v4IsLoopback ip) && !(policy.denyPrivate && v4IsPrivate ip) &&
        !(policy.denyLinkLocal && v4IsLinkLocal ip) &&
        !(policy.denyMulticast && (v4IsMulticast ip || v4IsBroadcast ip))
    | .v6 ip =>
      !(policy.denyLoopback && v6IsLoopback ip) && !(policy.denyPrivate && v6IsUniqueLocal ip) &&
        !(policy.denyLinkLocal && v6IsLinkLocal ip) && !(policy.denyMulticast && v6IsMulticast ip)

/-! ### IPv4 in IPv6 -/

/-- The IPv4-mapped form of an address, `::ffff:a.b.c.d`. -/
def mapped (ip : BitVec 32) : BitVec 128 := BitVec.ofNat 128 (0xFFFF * 2 ^ 32 + ip.toNat)

theorem toNat_mapped (ip : BitVec 32) : (mapped ip).toNat = 0xFFFF * 2 ^ 32 + ip.toNat := by
  rw [mapped, BitVec.toNat_ofNat]
  omega

/-- The leading bits of a mapped address are zero. -/
theorem mapped_shift (ip : BitVec 32) {count : ℕ} (hcount : 48 ≤ count) :
    mapped ip >>> count = 0 := by
  apply BitVec.eq_of_toNat_eq
  rw [BitVec.toNat_ushiftRight, toNat_mapped, Nat.shiftRight_eq_div_pow]
  refine Nat.div_eq_of_lt (lt_of_lt_of_le ?_ (Nat.pow_le_pow_right Nat.two_pos hcount))
  omega

/-- The policy denies a mapped address only by listing it. -/
theorem permits_mapped (policy : PeerIpPolicy) (ip : BitVec 32) :
    policy.permits (.v6 (mapped ip)) = !policy.denied.contains (.v6 (mapped ip)) := by
  have hvalue := toNat_mapped ip
  have hne : ∀ {value : ℕ}, value < 2 → mapped ip ≠ BitVec.ofNat 128 value := by
    intro value hsmall heq
    rw [heq, BitVec.toNat_ofNat] at hvalue
    omega
  have hunspecified : IpAddr.isUnspecified (.v6 (mapped ip)) = false :=
    decide_eq_false (hne (by decide))
  have hloopback : v6IsLoopback (mapped ip) = false := decide_eq_false (hne (by decide))
  have hlocal : v6IsUniqueLocal (mapped ip) = false := by
    rw [v6IsUniqueLocal, mapped_shift ip (by decide)]
    decide
  have hlink : v6IsLinkLocal (mapped ip) = false := by
    rw [v6IsLinkLocal, mapped_shift ip (by decide)]
    decide
  have hmulticast : v6IsMulticast (mapped ip) = false := by
    rw [v6IsMulticast, mapped_shift ip (by decide)]
    decide
  unfold PeerIpPolicy.permits
  dsimp only
  rw [hunspecified, hloopback, hlocal, hlink, hmulticast]
  cases policy.denied.contains (.v6 (mapped ip)) <;> simp

/-! ### Configuration -/

structure TurnConfig where
  realm : Bytes
  staticAuthSecret : Bytes
  software : Option Bytes
  relayAddress : Option IpAddr
  defaultLifetime : UInt32
  maxLifetime : UInt32
  permissionLifetime : UInt32
  channelLifetime : UInt32
  nonceLifetime : ℕ
  maxAllocationsPerUser : ℕ
  maxBytesPerAllocation : Option ℕ
  deniedPeers : PeerIpPolicy
  includeFingerprint : Bool

/-- The octets of an ASCII text. -/
def text (string : String) : Bytes := string.toList.map fun letter ↦ UInt8.ofNat letter.toNat

/-- `TurnConfig::new`, with the text of SOFTWARE a parameter: it names the package's version. -/
def TurnConfig.new (realm staticAuthSecret software : Bytes) : TurnConfig where
  realm := realm
  staticAuthSecret := staticAuthSecret
  software := some software
  relayAddress := none
  defaultLifetime := 600
  maxLifetime := 3600
  permissionLifetime := 300
  channelLifetime := 600
  nonceLifetime := 3600
  maxAllocationsPerUser := 16
  maxBytesPerAllocation := none
  deniedPeers := .default
  includeFingerprint := true

end SiphonRtp.Turn
