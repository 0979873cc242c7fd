import SealedPost.Octets

/-!
# Base64 text

The standard alphabet, three bytes as four digits, the last group filled up with `=`. Reading
accepts only what writing produces: the filling is required, and the bits that it leaves
unused are zero.
-/

namespace SealedPost.Text.Base64

/-- The digit of a number below 64. -/
def digit (n : Nat) : Char :=
  if n < 26 then Char.ofNat (65 + n)
  else if n < 52 then Char.ofNat (71 + n)
  else if n < 62 then Char.ofNat (n - 4)
  else if n = 62 then '+' else '/'

def value? (c : Char) : Option Nat :=
  let n := c.toNat
  if 65 ≤ n ∧ n ≤ 90 then some (n - 65)
  else if 97 ≤ n ∧ n ≤ 122 then some (n - 71)
  else if 48 ≤ n ∧ n ≤ 57 then some (n + 4)
  else if c = '+' then some 62
  else if c = '/' then some 63
  else none

/-- Digits of bytes, group by group. -/
def encodeChars : Bytes → List Char
  | [] => []
  | [a] => [digit (a.toNat / 4), digit (a.toNat % 4 * 16), '=', '=']
  | [a, b] =>
    [digit (a.toNat / 4), digit (a.toNat % 4 * 16 + b.toNat / 16), digit (b.toNat % 16 * 4), '=']
  | a :: b :: c :: rest =>
    digit (a.toNat / 4) :: digit (a.toNat % 4 * 16 + b.toNat / 16) ::
      digit (b.toNat % 16 * 4 + c.toNat / 64) :: digit (c.toNat % 64) :: encodeChars rest

/-- Bytes of a last group that holds one byte. -/
def decodeOne (p q : Char) : Option Bytes := do
  let x ← value? p
  let y ← value? q
  if y % 16 = 0 then some [UInt8.ofNat (x * 4 + y / 16)] else none

/-- Bytes of a last group that holds two. -/
def decodeTwo (p q r : Char) : Option Bytes := do
  let x ← value? p
  let y ← value? q
  let z ← value? r
  if z % 4 = 0 then some [UInt8.ofNat (x * 4 + y / 16), UInt8.ofNat (y % 16 * 16 + z / 4)] else none

/-- Bytes of a full group. -/
def decodeThree (p q r s : Char) : Option Bytes := do
  let x ← value? p
  let y ← value? q
  let z ← value? r
  let w ← value? s
  some [UInt8.ofNat (x * 4 + y / 16), UInt8.ofNat (y % 16 * 16 + z / 4),
    UInt8.ofNat (z % 4 * 64 + w)]

/-- Reads digits group by group; only the last group may be filled up. -/
def decodeChars : List Char → Option Bytes
  | [] => some []
  | p :: q :: r :: s :: rest =>
    if s = '=' then
      match rest with
      | [] => if r = '=' then decodeOne p q else decodeTwo p q r
      | _ :: _ => none
    else do
      let group ← decodeThree p q r s
      let more ← decodeChars rest
      return group ++ more
  | _ => none

def encode (b : Bytes) : String := String.ofList (encodeChars b)

/-- The bytes that a base64 text stands for, if it is one. -/
def decode? (s : String) : Option Bytes := decodeChars s.toList

end SealedPost.Text.Base64
