import SealedPost.Curve.Field

/-!
# The curve in Edwards form

Points of `-x² + y² = 1 + d x² y²`, with a common denominator `z` and the product `t = x y / z` kept
beside the coordinates. One formula adds any two points, equal ones too. A point is encoded as its
`y` with the parity of `x` in the highest bit.
-/

namespace SealedPost.Edwards

/-- The constant of the curve. -/
def d : Field :=
  Field.ofNat 37095705934669439343138083508754565189542113879843219016388785533085940283555

/-- A point: `x / z` and `y / z` are its coordinates and `t / z` is their product. -/
structure Point where
  x : Field
  y : Field
  z : Field
  t : Field
deriving DecidableEq, Repr

namespace Point

def ofAffine (x y : Field) : Point := ⟨x, y, 1, x * y⟩

def zero : Point := ofAffine 0 1

def base : Point :=
  ofAffine
    (Field.ofNat 15112221349535400772501151409588531511454012693041857206046113283949847762202)
    (Field.ofNat 46316835694926478169428394003475163141307993866256225615783033603165251855960)

def add (p q : Point) : Point :=
  let a := (p.y - p.x) * (q.y - q.x)
  let b := (p.y + p.x) * (q.y + q.x)
  let c := p.t * (d + d) * q.t
  let e := p.z * (q.z + q.z)
  ⟨(b - a) * (e - c), (e + c) * (b + a), (e - c) * (e + c), (b - a) * (b + a)⟩

/-- The point on the other side of the `y` axis. -/
def neg (p : Point) : Point := ⟨-p.x, p.y, p.z, -p.t⟩

def double (p : Point) : Point := p.add p

/-- The multiple of a point, by doubling. -/
def mul (n : Nat) (p : Point) : Point :=
  (binary n).foldl (fun q bit => if bit then q.double.add p else q.double) zero

def isZero (p : Point) : Bool := p.x = 0 && p.y = p.z

/-- Whether eight times a point is the neutral one. -/
def smallOrder (p : Point) : Bool := p.double.double.double.isZero

def encode (p : Point) : Octets 32 :=
  let w := Field.inv p.z
  let x := p.x * w
  let y := p.y * w
  Octets.ofNat 32 (y.val + x.val % 2 * (2 * Curve.topBit))

/-- The point that 32 bytes stand for. The number in them need not be below the prime, and the sign
bit may be set where `x` is zero. -/
def decode? (b : Octets 32) : Option Point :=
  let y := Field.ofOctets b
  let square := y * y
  (Field.rootOfRatio? (square - 1) (d * square + 1)).map fun x =>
    ofAffine (if b.toNat.testBit 255 then -x else x) y

/-- The Montgomery coordinate `(1 + y) / (1 - y)` of a point. -/
def montgomery (p : Point) : Octets 32 := Field.toOctets ((p.z + p.y) * Field.inv (p.z - p.y))

end Point

end SealedPost.Edwards
