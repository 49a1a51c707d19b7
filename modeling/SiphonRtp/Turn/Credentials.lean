import SiphonRtp.Turn.Policy

/-!
# Credentials of the TURN server

`siphon-rtp-turn/src/credentials.rs`: long-term credentials whose password is computed from the
username, which starts with the time it expires, and nonces that carry the tick they were issued at
under a stamp for the client's address. `authenticate` accepts the username of a request that is
signed with the key of that username.
-/

set_option autoImplicit false

namespace SiphonRtp.Turn

open Machine Datapath Stun

/-! ### Nonces -/

/-- Verdict of a nonce check. -/
inductive NonceStatus
  | valid
  | stale
  | invalid
deriving DecidableEq

structure NonceFactory where
  secret : Bytes
  lifetime : ℕ

def ipOctets : IpAddr → Bytes
  | .v4 ip => toBe 4 ip.toNat
  | .v6 ip => toBe 16 ip.toNat

/-- `NonceFactory::stamp`: the tick and the client's address under the secret. -/
def NonceFactory.stamp (crypto : Crypto) (nonce : NonceFactory) (payload : Bytes)
    (client : SocketAddr) : Bytes :=
  (crypto.hmacSha1 nonce.secret (payload ++ ipOctets client.ip)).toList

/-- `NonceFactory::issue`. -/
def NonceFactory.issue (crypto : Crypto) (nonce : NonceFactory) (client : SocketAddr)
    (nowTick : ℕ) : Bytes :=
  let payload := toBe 8 nowTick
  base64Encode (payload ++ (nonce.stamp crypto payload client).take 8)

/-- `NonceFactory::check`. -/
def NonceFactory.check (crypto : Crypto) (nonce : NonceFactory) (value : Bytes)
    (client : SocketAddr) (nowTick : ℕ) : NonceStatus :=
  if isUtf8 value = false then .invalid
  else
    match base64Decode value with
    | none => .invalid
    | some raw =>
      if raw.length ≠ 16 then .invalid
      else
        let payload := raw.take 8
        if raw.drop 8 ≠ (nonce.stamp crypto payload client).take 8 then .invalid
        else if nonce.lifetime < nowTick - fromBe payload then .stale
        else .valid

/-! ### Requests -/

/-- The outcome of authenticating a request. -/
inductive AuthResult
  | ok (username key : Bytes)
  | unauthorized
  | staleNonce
deriving DecidableEq

structure CredentialVerifier where
  secret : Bytes
  realm : Bytes

/-- A decimal digit. -/
def digit (letter : UInt8) : Option ℕ :=
  if 0x30 ≤ letter ∧ letter ≤ 0x39 then some (letter.toNat - 0x30) else none

/-- The value of a run of digits, none past the largest `u64`. -/
def digits (letters : Bytes) : Option ℕ :=
  letters.foldlM (fun value letter ↦ (digit letter).bind fun digit ↦
    if value * 10 + digit ≤ u64Max then some (value * 10 + digit) else none) 0

/-- `str::parse::<u64>`: digits, with a plus sign in front of them or none. -/
def parseU64 (letters : Bytes) : Option ℕ :=
  match letters with
  | [] => none
  | first :: rest =>
    if first = 0x2B then (if rest = [] then none else digits rest) else digits letters

/-- The password of a username. -/
def CredentialVerifier.password (crypto : Crypto) (verifier : CredentialVerifier)
    (username : Bytes) : Bytes :=
  base64Encode (crypto.hmacSha1 verifier.secret username).toList

/-- The key of a username. -/
def CredentialVerifier.key (crypto : Crypto) (verifier : CredentialVerifier) (username : Bytes) :
    Bytes :=
  longTermKey crypto username verifier.realm (verifier.password crypto username)

/-- The tail of `authenticate`, once the nonce is valid: the expiry in the username and the
signature. -/
def CredentialVerifier.verify (crypto : Crypto) (verifier : CredentialVerifier) (raw : Bytes)
    (username : Bytes) (unixNow : ℕ) : AuthResult :=
  match parseU64 (username.takeWhile (· ≠ 0x3A)) with
  | none => .unauthorized
  | some expiry =>
    if expiry < unixNow then .unauthorized
    else
      let key := verifier.key crypto username
      if verifyMessageIntegrity crypto.toDigests raw key then .ok username key else .unauthorized

/-- `CredentialVerifier::authenticate`. -/
def CredentialVerifier.authenticate (crypto : Crypto) (verifier : CredentialVerifier)
    (message : StunMessage) (raw : Bytes) (unixNow : ℕ) (nonce : NonceFactory) (nowTick : ℕ)
    (client : SocketAddr) : AuthResult :=
  match message.username, Turn.realm message, Turn.nonce message with
  | some username, some realm, some nonceValue =>
    if (message.attribute attrMessageIntegrity).isNone then .unauthorized
    else if realm ≠ verifier.realm then .unauthorized
    else
      match nonce.check crypto nonceValue client nowTick with
      | .invalid => .unauthorized
      | .stale => .staleNonce
      | .valid => verifier.verify crypto raw username unixNow
  | _, _, _ => .unauthorized

end SiphonRtp.Turn
