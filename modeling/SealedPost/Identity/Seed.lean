import SealedPost.Text.Hex

/-!
# Seeds

Sixteen bytes from which a whole identity can be recovered. As text they are 32 hexadecimal digits;
white space around them is passed over.
-/

namespace SealedPost

/-- Why a seed, a key pair or an identity could not be made. -/
inductive IdentityError
  | seedLength (got : Nat)
  | seedEncoding
  | publicKey
  | keyPairMismatch
  /-- None of that many draws gave an identity. -/
  | derivation (attempts : Nat)
deriving DecidableEq, Repr

/-- The wording of a failure. -/
def IdentityError.message : IdentityError → String
  | .seedLength got => "invalid seed length: expected 16, got " ++ toString got
  | .seedEncoding => "invalid seed encoding"
  | .publicKey => "invalid public key"
  | .keyPairMismatch => "public key does not match secret key"
  | .derivation attempts => "key derivation failed after " ++ toString attempts ++ " attempts"

/-- The secret that an identity is recovered from. -/
structure Seed where
  octets : Octets 16
deriving DecidableEq

namespace Seed

/-- Reads sixteen bytes. -/
def ofBytes (b : Bytes) : Except IdentityError Seed :=
  match Octets.ofBytes? 16 b with
  | some octets => .ok ⟨octets⟩
  | none => .error (.seedLength b.length)

/-- Reads hexadecimal digits with white space around them. -/
def ofHex (s : String) : Except IdentityError Seed :=
  match Text.Hex.decode (Text.trim s) with
  | .ok b => ofBytes b
  | .error _ => .error .seedEncoding

/-- The lower-case digits of a seed. -/
def toHex (seed : Seed) : String := Text.Hex.encode seed.octets.bytes

/-- The seed that signs: the sixteen bytes and as many zeros. -/
def signingSeed (seed : Seed) : Octets 32 :=
  Octets.append (m := 16) (n := 16) seed.octets (Octets.zero 16)

/-- How a seed shows in logs: not at all. -/
def redacted (_ : Seed) : String := "Seed(..)"

end Seed

end SealedPost
