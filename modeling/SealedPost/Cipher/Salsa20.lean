import SealedPost.Octets

/-!
# The Salsa20 key stream

Twenty rounds mix a four by four table of words made of a constant, a key and sixteen bytes of
input. The table is kept as four quads, each a column read from the diagonal downwards; turning the
table takes such columns to the rows read from the diagonal, and back, so that all rounds are alike.
`subkey` is the hash of that name, which makes a 24-byte nonce possible: a key from the first
sixteen of them, and a stream under it for the other eight.
-/

namespace SealedPost.Salsa20

/-- Four words. -/
structure Quad where
  a : UInt32
  b : UInt32
  c : UInt32
  d : UInt32
deriving DecidableEq, Repr

/-- Turns the bits of a word to the left. -/
def rotate (w : UInt32) (n : UInt32) : UInt32 := (w <<< n) ||| (w >>> (32 - n))

/-- Mixes four words. -/
def Quad.mix (q : Quad) : Quad :=
  let b := q.b ^^^ rotate (q.a + q.d) 7
  let c := q.c ^^^ rotate (b + q.a) 9
  let d := q.d ^^^ rotate (c + b) 13
  let a := q.a ^^^ rotate (d + c) 18
  ⟨a, b, c, d⟩

/-- The table of sixteen words. -/
structure Table where
  p : Quad
  q : Quad
  r : Quad
  s : Quad
deriving DecidableEq, Repr

/-- Mixes every quad, then turns columns into rows or rows into columns. -/
def Table.round (t : Table) : Table :=
  let p := t.p.mix
  let q := t.q.mix
  let r := t.r.mix
  let s := t.s.mix
  ⟨⟨p.a, q.d, r.c, s.b⟩, ⟨q.a, r.d, s.c, p.b⟩, ⟨r.a, s.d, p.c, q.b⟩, ⟨s.a, p.d, q.c, r.b⟩⟩

def Table.rounds : (count : Nat) → Table → Table
  | 0, t => t
  | count + 1, t => t.round.rounds count

/-- The words row by row. -/
def Table.words (t : Table) : List UInt32 :=
  [t.p.a, t.q.d, t.r.c, t.s.b, t.p.b, t.q.a, t.r.d, t.s.c, t.p.c, t.q.b, t.r.a, t.s.d, t.p.d, t.q.c,
    t.r.b, t.s.a]

/-- The word at place `i` of a byte string, its least significant byte first. -/
def word (b : Bytes) (i : Nat) : UInt32 :=
  UInt32.ofNat (LittleEndian.toNat ((b.drop (4 * i)).take 4))

/-- The table for a key and sixteen bytes of input; the constant on the diagonal is
`expand 32-byte k`. -/
def Table.ofKey (key : Octets 32) (input : Octets 16) : Table :=
  let k := word key.bytes
  let n := word input.bytes
  ⟨⟨0x61707865, k 3, n 2, k 5⟩, ⟨0x3320646e, n 3, k 6, k 0⟩, ⟨0x79622d32, k 7, k 1, n 0⟩,
    ⟨0x6b206574, k 2, n 1, k 4⟩⟩

def bytesOf (ws : List UInt32) : Bytes := ws.flatMap fun w => LittleEndian.ofNat 4 w.toNat

/-- The block of the stream for an input: the mixed table added to the table itself. -/
def block (key : Octets 32) (input : Octets 16) : Bytes :=
  let t := Table.ofKey key input
  bytesOf (List.zipWith (· + ·) t.words (t.rounds 20).words)

/-- A key made of a key and sixteen bytes: the words of the mixed table where the constant and
the input stood. -/
def subkey (key : Octets 32) (input : Octets 16) : Octets 32 :=
  let t := (Table.ofKey key input).rounds 20
  Octets.ofNat 32
    (LittleEndian.toNat (bytesOf [t.p.a, t.q.a, t.r.a, t.s.a, t.r.d, t.s.c, t.p.c, t.q.b]))

/-- Blocks of the stream under an 8-byte nonce, from the one numbered `first`. -/
def blocks (key : Octets 32) (nonce : Octets 8) (first : Nat) : (count : Nat) → Bytes
  | 0 => []
  | count + 1 =>
    block key (nonce.append (Octets.ofNat 8 first)) ++ blocks key nonce (first + 1) count

/-- At least `size` bytes of the stream under a 24-byte nonce. -/
def stream (key : Octets 32) (nonce : Octets 24) (size : Nat) : Bytes :=
  blocks (subkey key (Octets.front (n := 8) 16 nonce)) (Octets.back (n := 8) 16 nonce) 0
    (size / 64 + 1)

end SealedPost.Salsa20
