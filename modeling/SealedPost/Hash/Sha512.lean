import SealedPost.Octets

/-!
# SHA-512

The message is filled up to whole blocks of 128 bytes; each block is stretched to eighty words,
and eighty rounds mix them into a state of eight words. Words are written with their most
significant byte first.
-/

namespace SealedPost.Sha512

/-- The eight words between two rounds. -/
structure State where
  a : UInt64
  b : UInt64
  c : UInt64
  d : UInt64
  e : UInt64
  f : UInt64
  g : UInt64
  h : UInt64
deriving DecidableEq, Repr

/-- The word added in each round: the first 64 bits of the fraction of the cube root of each of the
first eighty primes. -/
def roundWords : List UInt64 :=
  [0x428a2f98d728ae22, 0x7137449123ef65cd, 0xb5c0fbcfec4d3b2f, 0xe9b5dba58189dbbc,
   0x3956c25bf348b538, 0x59f111f1b605d019, 0x923f82a4af194f9b, 0xab1c5ed5da6d8118,
   0xd807aa98a3030242, 0x12835b0145706fbe, 0x243185be4ee4b28c, 0x550c7dc3d5ffb4e2,
   0x72be5d74f27b896f, 0x80deb1fe3b1696b1, 0x9bdc06a725c71235, 0xc19bf174cf692694,
   0xe49b69c19ef14ad2, 0xefbe4786384f25e3, 0x0fc19dc68b8cd5b5, 0x240ca1cc77ac9c65,
   0x2de92c6f592b0275, 0x4a7484aa6ea6e483, 0x5cb0a9dcbd41fbd4, 0x76f988da831153b5,
   0x983e5152ee66dfab, 0xa831c66d2db43210, 0xb00327c898fb213f, 0xbf597fc7beef0ee4,
   0xc6e00bf33da88fc2, 0xd5a79147930aa725, 0x06ca6351e003826f, 0x142929670a0e6e70,
   0x27b70a8546d22ffc, 0x2e1b21385c26c926, 0x4d2c6dfc5ac42aed, 0x53380d139d95b3df,
   0x650a73548baf63de, 0x766a0abb3c77b2a8, 0x81c2c92e47edaee6, 0x92722c851482353b,
   0xa2bfe8a14cf10364, 0xa81a664bbc423001, 0xc24b8b70d0f89791, 0xc76c51a30654be30,
   0xd192e819d6ef5218, 0xd69906245565a910, 0xf40e35855771202a, 0x106aa07032bbd1b8,
   0x19a4c116b8d2d0c8, 0x1e376c085141ab53, 0x2748774cdf8eeb99, 0x34b0bcb5e19b48a8,
   0x391c0cb3c5c95a63, 0x4ed8aa4ae3418acb, 0x5b9cca4f7763e373, 0x682e6ff3d6b2b8a3,
   0x748f82ee5defb2fc, 0x78a5636f43172f60, 0x84c87814a1f0ab72, 0x8cc702081a6439ec,
   0x90befffa23631e28, 0xa4506cebde82bde9, 0xbef9a3f7b2c67915, 0xc67178f2e372532b,
   0xca273eceea26619c, 0xd186b8c721c0c207, 0xeada7dd6cde0eb1e, 0xf57d4f7fee6ed178,
   0x06f067aa72176fba, 0x0a637dc5a2c898a6, 0x113f9804bef90dae, 0x1b710b35131c471b,
   0x28db77f523047d84, 0x32caab7b40c72493, 0x3c9ebe0a15c9bebc, 0x431d67c49c100d4c,
   0x4cc5d4becb3e42b6, 0x597f299cfc657e2a, 0x5fcb6fab3ad6faec, 0x6c44198c4a475817]

/-- The state before the first block: the same bits of the square roots of the
first eight primes. -/
def initial : State :=
  ⟨0x6a09e667f3bcc908, 0xbb67ae8584caa73b, 0x3c6ef372fe94f82b, 0xa54ff53a5f1d36f1,
   0x510e527fade682d1, 0x9b05688c2b3e6c1f, 0x1f83d9abfb41bd6b, 0x5be0cd19137e2179⟩

/-- Turns the bits of a word to the right. -/
def rotate (w : UInt64) (n : UInt64) : UInt64 := (w >>> n) ||| (w <<< (64 - n))

def smallSigma0 (w : UInt64) : UInt64 := rotate w 1 ^^^ rotate w 8 ^^^ (w >>> 7)
def smallSigma1 (w : UInt64) : UInt64 := rotate w 19 ^^^ rotate w 61 ^^^ (w >>> 6)
def bigSigma0 (w : UInt64) : UInt64 := rotate w 28 ^^^ rotate w 34 ^^^ rotate w 39
def bigSigma1 (w : UInt64) : UInt64 := rotate w 14 ^^^ rotate w 18 ^^^ rotate w 41

/-- Takes the bit of `f` where `e` has a one, else that of `g`. -/
def choose (e f g : UInt64) : UInt64 := (e &&& f) ^^^ (~~~e &&& g)

/-- The bit that two of the three words have. -/
def majority (a b c : UInt64) : UInt64 := (a &&& b) ^^^ (a &&& c) ^^^ (b &&& c)

/-- One round with its constant and its word of the message. -/
def round (s : State) (kw : UInt64 × UInt64) : State :=
  let t1 := s.h + bigSigma1 s.e + choose s.e s.f s.g + kw.1 + kw.2
  let t2 := bigSigma0 s.a + majority s.a s.b s.c
  ⟨t1 + t2, s.a, s.b, s.c, s.d + t1, s.e, s.f, s.g⟩

/-- The next `count` words of the message, from a window of the sixteen words to come. -/
def schedule : (count : Nat) → (window : List UInt64) → List UInt64
  | 0, _ => []
  | count + 1, window =>
    let word (i : Nat) := window.getD i 0
    let next := word 0 + smallSigma0 (word 1) + word 9 + smallSigma1 (word 14)
    word 0 :: schedule count (window.tail ++ [next])

/-- Words of eight bytes each, the most significant byte first. -/
def wordsOf : Bytes → List UInt64
  | b0 :: b1 :: b2 :: b3 :: b4 :: b5 :: b6 :: b7 :: rest =>
    [b0, b1, b2, b3, b4, b5, b6, b7].foldl (fun w b => (w <<< 8) ||| b.toUInt64) 0 :: wordsOf rest
  | _ => []

/-- The eight bytes of a word. -/
def bytesOf (w : UInt64) : Bytes :=
  [56, 48, 40, 32, 24, 16, 8, 0].map fun (n : UInt64) => (w >>> n).toUInt8

/-- Mixes one block into the state. -/
def compress (s : State) (block : Bytes) : State :=
  let t := (roundWords.zip (schedule 80 (wordsOf block))).foldl round s
  ⟨s.a + t.a, s.b + t.b, s.c + t.c, s.d + t.d, s.e + t.e, s.f + t.f, s.g + t.g, s.h + t.h⟩

/-- The message with a one bit after it, zeros, and its length in bits in the last sixteen bytes. -/
def filled (message : Bytes) : Bytes :=
  let zeros := (239 - message.length % 128) % 128
  message ++ 0x80 :: List.replicate zeros 0 ++ (LittleEndian.ofNat 16 (8 * message.length)).reverse

/-- Mixes the first `count` blocks of `bytes` into the state. -/
def absorb : (count : Nat) → State → (bytes : Bytes) → State
  | 0, s, _ => s
  | count + 1, s, bytes => absorb count (compress s (bytes.take 128)) (bytes.drop 128)

def State.bytes (s : State) : Bytes :=
  [s.a, s.b, s.c, s.d, s.e, s.f, s.g, s.h].flatMap bytesOf

theorem State.length_bytes (s : State) : s.bytes.length = 64 := rfl

/-- The digest of a message. -/
def hash (message : Bytes) : Octets 64 :=
  let bytes := filled message
  let s := absorb (bytes.length / 128) initial bytes
  ⟨s.bytes, s.length_bytes⟩

end SealedPost.Sha512
