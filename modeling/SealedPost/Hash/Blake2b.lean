import SealedPost.Octets

/-!
# BLAKE2b

The unkeyed hash with a digest of chosen length, at most 64 bytes. A block of 128 bytes is sixteen
words; twelve rounds mix them into sixteen working words, in an order that changes from round to
round. Words have their least significant byte first.
-/

namespace SealedPost.Blake2b

/-- The eight words that a chain starts from, before the digest length is mixed in. -/
def start : List UInt64 :=
  [0x6a09e667f3bcc908, 0xbb67ae8584caa73b, 0x3c6ef372fe94f82b, 0xa54ff53a5f1d36f1,
   0x510e527fade682d1, 0x9b05688c2b3e6c1f, 0x1f83d9abfb41bd6b, 0x5be0cd19137e2179]

/-- The order in which each round takes the words of the block. -/
def orders : List (List Nat) :=
  [[0, 1, 2, 3, 4, 5, 6, 7, 8, 9, 10, 11, 12, 13, 14, 15],
   [14, 10, 4, 8, 9, 15, 13, 6, 1, 12, 0, 2, 11, 7, 5, 3],
   [11, 8, 12, 0, 5, 2, 15, 13, 10, 14, 3, 6, 7, 1, 9, 4],
   [7, 9, 3, 1, 13, 12, 11, 14, 2, 6, 5, 10, 4, 0, 15, 8],
   [9, 0, 5, 7, 2, 4, 10, 15, 14, 1, 11, 12, 6, 8, 3, 13],
   [2, 12, 6, 10, 0, 11, 8, 3, 4, 13, 7, 5, 15, 14, 1, 9],
   [12, 5, 1, 15, 14, 13, 4, 10, 0, 7, 6, 3, 9, 2, 8, 11],
   [13, 11, 7, 14, 12, 1, 3, 9, 5, 0, 15, 4, 8, 6, 2, 10],
   [6, 15, 14, 9, 11, 3, 0, 8, 12, 2, 13, 7, 1, 4, 10, 5],
   [10, 2, 8, 4, 7, 6, 1, 5, 15, 11, 9, 14, 3, 12, 13, 0],
   [0, 1, 2, 3, 4, 5, 6, 7, 8, 9, 10, 11, 12, 13, 14, 15],
   [14, 10, 4, 8, 9, 15, 13, 6, 1, 12, 0, 2, 11, 7, 5, 3]]

/-- Turns the bits of a word to the right. -/
def rotate (w : UInt64) (n : UInt64) : UInt64 := (w >>> n) ||| (w <<< (64 - n))

/-- Four working words. -/
structure Column where
  a : UInt64
  b : UInt64
  c : UInt64
  d : UInt64
deriving DecidableEq, Repr

/-- Mixes two words of the block into a column. -/
def Column.mix (q : Column) (x y : UInt64) : Column :=
  let a := q.a + q.b + x
  let d := rotate (q.d ^^^ a) 32
  let c := q.c + d
  let b := rotate (q.b ^^^ c) 24
  let a := a + b + y
  let d := rotate (d ^^^ a) 16
  let c := c + d
  let b := rotate (b ^^^ c) 63
  ⟨a, b, c, d⟩

/-- The sixteen working words, as four columns. -/
structure Grid where
  p : Column
  q : Column
  r : Column
  s : Column
deriving DecidableEq, Repr

/-- One round: the columns, then the diagonals. -/
def Grid.round (block : List UInt64) (g : Grid) (order : List Nat) : Grid :=
  let word (i : Nat) := block.getD (order.getD i 0) 0
  let p := g.p.mix (word 0) (word 1)
  let q := g.q.mix (word 2) (word 3)
  let r := g.r.mix (word 4) (word 5)
  let s := g.s.mix (word 6) (word 7)
  let p' := Column.mix ⟨p.a, q.b, r.c, s.d⟩ (word 8) (word 9)
  let q' := Column.mix ⟨q.a, r.b, s.c, p.d⟩ (word 10) (word 11)
  let r' := Column.mix ⟨r.a, s.b, p.c, q.d⟩ (word 12) (word 13)
  let s' := Column.mix ⟨s.a, p.b, q.c, r.d⟩ (word 14) (word 15)
  ⟨⟨p'.a, s'.b, r'.c, q'.d⟩, ⟨q'.a, p'.b, s'.c, r'.d⟩, ⟨r'.a, q'.b, p'.c, s'.d⟩,
    ⟨s'.a, r'.b, q'.c, p'.d⟩⟩

/-- Words of eight bytes each, the least significant byte first; a short last word is filled
up with zeros. -/
def wordsOf (count : Nat) (b : Bytes) : List UInt64 :=
  (List.range count).map fun i => UInt64.ofNat (LittleEndian.toNat ((b.drop (8 * i)).take 8))

/-- Mixes a block into the chain; `total` bytes have been taken up to its end. -/
def compress (chain : List UInt64) (block : Bytes) (total : Nat) (last : Bool) : List UInt64 :=
  let h (i : Nat) := chain.getD i 0
  let k (i : Nat) := start.getD i 0
  let flag : UInt64 := if last then 0xffffffffffffffff else 0
  let grid : Grid :=
    ⟨⟨h 0, h 4, k 0, k 4 ^^^ UInt64.ofNat total⟩,
      ⟨h 1, h 5, k 1, k 5 ^^^ UInt64.ofNat (total / UInt64.size)⟩,
      ⟨h 2, h 6, k 2, k 6 ^^^ flag⟩, ⟨h 3, h 7, k 3, k 7⟩⟩
  let g := orders.foldl (Grid.round (wordsOf 16 block)) grid
  [h 0 ^^^ g.p.a ^^^ g.p.c, h 1 ^^^ g.q.a ^^^ g.q.c,
    h 2 ^^^ g.r.a ^^^ g.r.c, h 3 ^^^ g.s.a ^^^ g.s.c,
    h 4 ^^^ g.p.b ^^^ g.p.d, h 5 ^^^ g.q.b ^^^ g.q.d,
    h 6 ^^^ g.r.b ^^^ g.r.d, h 7 ^^^ g.s.b ^^^ g.s.d]

/-- Mixes `full` whole blocks and then the last one, which may be short, into the chain. -/
def absorb : (full : Nat) → (taken : Nat) → List UInt64 → Bytes → List UInt64
  | 0, taken, chain, rest => compress chain rest (taken + rest.length) true
  | full + 1, taken, chain, rest =>
    absorb full (taken + 128) (compress chain (rest.take 128) (taken + 128) false) (rest.drop 128)

def hash (size : Nat) (message : Bytes) : Octets size :=
  let chain := match start with
    | h :: more => (h ^^^ 0x01010000 ^^^ UInt64.ofNat size) :: more
    | [] => []
  let words := absorb ((message.length - 1) / 128) 0 chain message
  Octets.ofNat size (LittleEndian.toNat (words.flatMap fun w => LittleEndian.ofNat 8 w.toNat))

end SealedPost.Blake2b
