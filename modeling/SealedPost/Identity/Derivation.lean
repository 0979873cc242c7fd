import SealedPost.Signature
import SealedPost.Identity.Seed
import SealedPost.Identity.KeyPair

/-!
# Identities

Everything is derived from the seed: a signing key, and from it a pair for receiving. The pair's
secret is hashed out of the signing seed, its public key is the Montgomery form of the signing
public key, and the two ways have to meet. A fresh identity takes a few draws before it gives up. A
draw fails if the random source does, or gives another number of bytes than were asked for.

`Identity.ofSeed` is `from_seed`; `receivingPublic` and `receivingSecret` are
`ed25519_public_to_x25519` and `ed25519_secret_to_x25519`.
-/

namespace SealedPost

/-! ## Draws from a random source -/

/-- What a random source answers, draw by draw. -/
abbrev Entropy := List (Option Bytes)

namespace Entropy

/-- Draws `n` bytes; answers them, if the draw succeeds, and the draws still to come. -/
def draw (n : Nat) : Entropy → Option (Octets n) × Entropy
  | [] => (none, [])
  | answer :: rest => (answer.bind (Octets.ofBytes? n), rest)

end Entropy

/-! ## Derivation -/

/-- An identity: its seed and the keys derived from it. -/
structure Identity [Curve] where
  seed : Seed
  signing : SigningKey
  pair : KeyPair

namespace Identity
variable [Curve]

/-- How many draws a fresh identity may take. -/
def attemptLimit : Nat := 8

/-- The secret for receiving that goes with a signing seed. -/
def receivingSecret (signingSeed : Octets 32) : Octets 32 :=
  Curve.clamp (Signature.secretHalf signingSeed)

/-- The Montgomery form of a signing public key. -/
def receivingPublic (signingPublic : Octets 32) : Except IdentityError (Octets 32) :=
  match Curve.montgomery? signingPublic with
  | some key => .ok key
  | none => .error .publicKey

def ofSeed (seed : Seed) : Except IdentityError Identity := do
  let signing := SigningKey.ofSeed seed.signingSeed
  let publicKey ← receivingPublic signing.publicKey
  let pair ← KeyPair.ofParts (receivingSecret signing.seed) publicKey
  return ⟨seed, signing, pair⟩

/-- Draws seeds until one gives an identity, at most `attempts` times; answers the draws still to
come as well. -/
def draw : (attempts : Nat) → Entropy → Option Identity × Entropy
  | 0, source => (none, source)
  | attempts + 1, source =>
    let (drawn, rest) := source.draw 16
    match drawn with
    | none => draw attempts rest
    | some octets =>
      match ofSeed ⟨octets⟩ with
      | .ok identity => (some identity, rest)
      | .error _ => draw attempts rest

/-- A fresh identity, and the draws still to come. -/
def generate (source : Entropy) : Except IdentityError Identity × Entropy :=
  match draw attemptLimit source with
  | (some identity, rest) => (.ok identity, rest)
  | (none, rest) => (.error (.derivation attemptLimit), rest)

def sessionId (identity : Identity) : String := identity.pair.sessionId

/-- How an identity shows in logs: its session id alone. -/
def redacted (identity : Identity) : String :=
  "IdentityKeyMaterial \x7b session_id: \"" ++ identity.sessionId ++ "\", .. \x7d"

end Identity

end SealedPost
