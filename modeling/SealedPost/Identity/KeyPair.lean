import SealedPost.Curve.Basic
import SealedPost.Identity.Seed
import SealedPost.Identity.KeyText

/-!
# Key pairs for receiving

A secret key and its public key in Montgomery form. The public key is always the one that belongs to
the secret; a pair given in two parts is refused if it is not. The secret is kept as it was given
and clamped when used.
-/

namespace SealedPost

def publicKeyOf [Curve] (secret : Octets 32) : Octets 32 :=
  Curve.ladder (Curve.clampNat secret.toNat) Curve.baseCoordinate

/-- A secret key with its public key. -/
structure KeyPair [Curve] where
  secret : Octets 32
  publicKey : Octets 32
  publicKey_eq : publicKey = publicKeyOf secret

namespace KeyPair
variable [Curve]

def ofSecret (secret : Octets 32) : KeyPair := ⟨secret, publicKeyOf secret, rfl⟩

/-- The pair with these two keys. -/
def ofParts (secret publicKey : Octets 32) : Except IdentityError KeyPair :=
  let pair := ofSecret secret
  if pair.publicKey = publicKey then .ok pair else .error .keyPairMismatch

/-- The session id of the pair's owner. -/
def sessionId (pair : KeyPair) : String := KeyText.sessionId pair.publicKey

/-- How a pair shows in logs: its public key alone. -/
def redacted (pair : KeyPair) : String :=
  "X25519KeyPair \x7b public: \"" ++ Text.Hex.encode pair.publicKey.bytes ++ "\", .. \x7d"

@[ext] theorem ext {a b : KeyPair} (h : a.secret = b.secret) : a = b := by
  cases a; cases b; cases h; simp_all

theorem ofParts_eq_ok_iff {secret publicKey : Octets 32} {pair : KeyPair} :
    ofParts secret publicKey = .ok pair ↔
      pair = ofSecret secret ∧ publicKey = publicKeyOf secret := by
  by_cases h : publicKeyOf secret = publicKey
  · simp [ofParts, ofSecret, h, eq_comm]
  · have h' : publicKey ≠ publicKeyOf secret := fun e => h e.symm
    simp [ofParts, ofSecret, h, h']

end KeyPair

end SealedPost
