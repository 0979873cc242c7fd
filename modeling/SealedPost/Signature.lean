import SealedPost.Hash.Sha512
import SealedPost.Curve.Basic

/-!
# Signatures

Ed25519. A 32-byte seed is hashed; one half of the digest is the secret factor, the other half makes
the one-time factor of each signature. Verification is strict: the second half of a signature is
below the order of the base point, neither point is of small order, and the first half is exactly
the encoding that the equation gives, without a factor for the cofactor.
-/

namespace SealedPost

namespace Signature

/-- The number that a digest stands for, modulo the order of the base point. -/
def challenge (message : Bytes) : Nat := (Sha512.hash message).toNat % Curve.order

/-- The first half of a seed's digest. -/
def secretHalf (seed : Octets 32) : Octets 32 := Octets.front (n := 32) 32 (Sha512.hash seed.bytes)

/-- The half of a seed's digest that makes one-time factors. -/
def nonceHalf (seed : Octets 32) : Octets 32 := Octets.back (n := 32) 32 (Sha512.hash seed.bytes)

/-- The secret factor of a seed. -/
def factor (seed : Octets 32) : Nat := Curve.clampNat (secretHalf seed).toNat

variable [Curve]

def publicOf (seed : Octets 32) : Octets 32 := Curve.encode (Curve.mul (factor seed) Curve.base)

/-- Whether a signature is that of the message under the public key. -/
def verify (key : Octets 32) (message : Bytes) (signature : Octets 64) : Bool :=
  let point := Octets.front (n := 32) 32 signature
  let s := (Octets.back (n := 32) 32 signature).toNat
  match Curve.decode? key, Curve.decode? point with
  | some a, some r =>
    let k := challenge (point.bytes ++ key.bytes ++ message)
    decide (s < Curve.order) && !Curve.smallOrder r && !Curve.smallOrder a &&
      Curve.encode (Curve.add (Curve.mul s Curve.base) (Curve.mul k (Curve.neg a))) == point
  | _, _ => false

end Signature

/-- A seed that signs, with its public key. -/
structure SigningKey [Curve] where
  seed : Octets 32
  publicKey : Octets 32
  publicKey_eq : publicKey = Signature.publicOf seed

namespace SigningKey
variable [Curve]

def ofSeed (seed : Octets 32) : SigningKey := ⟨seed, Signature.publicOf seed, rfl⟩

/-- The seed followed by the public key. -/
def toBytes (key : SigningKey) : Octets 64 :=
  Octets.append (m := 32) (n := 32) key.seed key.publicKey

/-- Reads a seed followed by its public key; `none` if the second half is not the public key
of the first. -/
def ofBytes? (b : Octets 64) : Option SigningKey :=
  let key := ofSeed (Octets.front (n := 32) 32 b)
  if key.publicKey = Octets.back (n := 32) 32 b then some key else none

/-- The signature of a message. -/
def sign (key : SigningKey) (message : Bytes) : Octets 64 :=
  let r := Signature.challenge ((Signature.nonceHalf key.seed).bytes ++ message)
  let point := Curve.encode (Curve.mul r Curve.base)
  let k := Signature.challenge (point.bytes ++ key.publicKey.bytes ++ message)
  Octets.append (m := 32) (n := 32) point
    (Octets.ofNat 32 ((r + k * Signature.factor key.seed) % Curve.order))

@[ext] theorem ext {a b : SigningKey} (h : a.seed = b.seed) : a = b := by
  cases a; cases b; cases h; simp_all

theorem ofBytes?_toBytes (key : SigningKey) : ofBytes? key.toBytes = some key := by
  have h : key = ofSeed key.seed := SigningKey.ext rfl
  rw [h]
  simp [ofBytes?, toBytes, ofSeed]

theorem ofBytes?_eq_some_iff {b : Octets 64} {key : SigningKey} :
    ofBytes? b = some key ↔ b = key.toBytes := by
  constructor
  · intro h
    simp only [ofBytes?, Option.ite_none_right_eq_some, Option.some.injEq] at h
    obtain ⟨fits, rfl⟩ := h
    rw [toBytes, fits]
    exact (Octets.append_front_back (m := 32) (n := 32) b).symm
  · rintro rfl
    exact ofBytes?_toBytes key

end SigningKey

end SealedPost
