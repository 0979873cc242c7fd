import SealedPost.Octets

/-!
# The curve, as its users see it

Signatures and key agreement need points of one curve in two forms: in Edwards form they are
added and encoded in 32 bytes, in Montgomery form only one coordinate is kept and multiplied.
What is built on the curve is written over this interface; `Curve25519` is the curve that the
program runs on.
-/

namespace SealedPost

/-- A curve with its two forms. -/
class Curve where
  /-- Points in Edwards form. -/
  Point : Type
  /-- The point that 32 bytes stand for, if they stand for one. -/
  decode? : Octets 32 → Option Point
  encode : Point → Octets 32
  /-- The point whose multiples public keys are. -/
  base : Point
  add : Point → Point → Point
  neg : Point → Point
  mul : Nat → Point → Point
  /-- Whether eight times the point is the neutral one. -/
  smallOrder : Point → Bool
  /-- The Montgomery coordinate of a point. -/
  montgomery : Point → Octets 32
  /-- The multiple of a Montgomery coordinate. -/
  ladder : Nat → Octets 32 → Octets 32

namespace Curve

/-- The order of the base point. -/
def order : Nat := 0x1000000000000000000000000000000014def9dea2f79cd65812631a5cf5d3ed

/-- The Montgomery coordinate of the base point. -/
def baseCoordinate : Octets 32 := Octets.ofNat 32 9

/-- The number whose only bit is bit 254. -/
def topBit : Nat := 0x4000000000000000000000000000000000000000000000000000000000000000

/-- A number made fit to multiply points with: a multiple of eight whose highest bit is bit 254. -/
def clampNat (n : Nat) : Nat := topBit + n % topBit / 8 * 8

/-- The 32 bytes of a clamped number. -/
def clamp (secret : Octets 32) : Octets 32 := Octets.ofNat 32 (clampNat secret.toNat)

theorem clampNat_lt (n : Nat) : clampNat n < 2 * topBit := by
  have h : n % topBit < topBit := Nat.mod_lt _ (by decide)
  unfold clampNat
  omega

theorem eight_dvd_clampNat (n : Nat) : 8 ∣ clampNat n := by
  unfold clampNat topBit
  omega

theorem toNat_clamp (secret : Octets 32) : (clamp secret).toNat = clampNat secret.toNat := by
  have h := clampNat_lt secret.toNat
  rw [clamp, Octets.toNat_ofNat, Nat.mod_eq_of_lt]
  exact Nat.lt_of_lt_of_le h (by decide)

variable [Curve]

/-- The Montgomery coordinate of an encoded point; `none` if the bytes stand for no point, or for
one of small order. -/
def montgomery? (encoded : Octets 32) : Option (Octets 32) :=
  match decode? encoded with
  | some point => if smallOrder point then none else some (montgomery point)
  | none => none

end Curve

/-- The binary digits of the numbers below `2 ^ width`, the highest first. -/
def binaryDigits : (width : Nat) → Nat → List Bool
  | 0, _ => []
  | width + 1, n => n.testBit width :: binaryDigits width n

/-- The binary digits of a number, the highest first. -/
def binary (n : Nat) : List Bool := binaryDigits (n.log2 + 1) n

end SealedPost
