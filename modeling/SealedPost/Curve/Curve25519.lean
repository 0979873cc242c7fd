import SealedPost.Curve.Edwards

/-!
# Curve25519

The curve that the program runs on. Of its Montgomery form only the first coordinate is kept, as a
fraction. A ladder holds two neighbouring multiples of one coordinate and doubles one of them and
adds both at each binary digit of the factor; their difference never changes.
-/

namespace SealedPost

namespace Montgomery

/-- A coordinate `x / z`. -/
structure Ratio where
  x : Field
  z : Field
deriving DecidableEq, Repr

/-- A quarter of the curve's constant, less a half. -/
def quarter : Field := 121665

/-- The coordinate of twice a point. -/
def Ratio.double (p : Ratio) : Ratio :=
  let s := p.x + p.z
  let m := p.x - p.z
  let a := s * s
  let b := m * m
  let e := a - b
  ⟨a * b, e * (a + quarter * e)⟩

/-- The coordinate of a sum of two points, given that of their difference. -/
def Ratio.addWith (difference : Field) (p q : Ratio) : Ratio :=
  let f := (p.x + p.z) * (q.x - q.z)
  let g := (p.x - p.z) * (q.x + q.z)
  ⟨(f + g) * (f + g), difference * ((f - g) * (f - g))⟩

/-- One digit of the ladder. -/
def rung (u : Field) (s : Ratio × Ratio) (bit : Bool) : Ratio × Ratio :=
  let sum := s.1.addWith u s.2
  if bit then (sum, s.2.double) else (s.1.double, sum)

/-- The multiple of a coordinate. -/
def ladder (n : Nat) (coordinate : Octets 32) : Octets 32 :=
  let u := Field.ofOctets coordinate
  let r := ((binary n).foldl (rung u) (⟨1, 0⟩, ⟨u, 1⟩)).1
  Field.toOctets (r.x * Field.inv r.z)

end Montgomery

/-- The Edwards and Montgomery forms of Curve25519. -/
instance curve25519 : Curve where
  Point := Edwards.Point
  decode? := Edwards.Point.decode?
  encode := Edwards.Point.encode
  base := Edwards.Point.base
  add := Edwards.Point.add
  neg := Edwards.Point.neg
  mul := Edwards.Point.mul
  smallOrder := Edwards.Point.smallOrder
  montgomery := Edwards.Point.montgomery
  ladder := Montgomery.ladder

end SealedPost
