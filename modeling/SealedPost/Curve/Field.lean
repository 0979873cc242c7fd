import SealedPost.Curve.Basic

/-!
# The field of the curve

Integers modulo `2^255 - 19`. They are read from 32 bytes without regard to the highest bit, also
where the number is not below the prime, and are written in lowest terms.
-/

namespace SealedPost

/-- The prime that the field is taken modulo. -/
def fieldPrime : Nat := 0x7fffffffffffffffffffffffffffffffffffffffffffffffffffffffffffffed

instance : @NeZero Nat Zero.ofOfNat0 fieldPrime := @NeZero.mk _ _ _ (by decide)

/-- An element of the field. -/
abbrev Field := Fin fieldPrime

namespace Field

/-- The element that a number stands for. -/
def ofNat (n : Nat) : Field := Fin.ofNat fieldPrime n

/-- The element that the low 255 bits of 32 bytes stand for. -/
def ofOctets (b : Octets 32) : Field := ofNat (b.toNat % (2 * Curve.topBit))

/-- The bytes of an element in lowest terms. -/
def toOctets (x : Field) : Octets 32 := Octets.ofNat 32 x.val

/-- A power, by squaring. -/
def pow (x : Field) (n : Nat) : Field :=
  (binary n).foldl (fun r bit => if bit then r * r * x else r * r) 1

/-- The inverse; that of zero is zero. -/
def inv (x : Field) : Field := pow x (fieldPrime - 2)

def rootOfMinusOne : Field :=
  ofNat 19681161376707505956807079304988542015446066515923890162744021073123829784752

/-- The one of a root and its negation that is even in lowest terms. -/
def even (x : Field) : Field := if x.val % 2 = 1 then -x else x

/-- The even square root of `u / v`, if there is a root. -/
def rootOfRatio? (u v : Field) : Option Field :=
  let v3 := v * v * v
  let r := u * v3 * pow (u * v3 * v3 * v) ((fieldPrime - 5) / 8)
  let square := v * r * r
  if square = u then some (even r)
  else if square = -u then some (even (r * rootOfMinusOne))
  else none

end Field

end SealedPost
