import SealedPost.Text.Utf8

/-!
# Hexadecimal text

Bytes are written as two lower-case digits each. Reading takes digits of either case and works on
the bytes of the text: an odd number of them is refused first, then the first byte that is no digit,
with its place.
-/

namespace SealedPost.Text.Hex

/-- Why a text is not hexadecimal. -/
inductive Error
  | oddLength
  /-- The byte at `position` is no digit; `byte` is that byte. -/
  | invalidCharacter (byte : UInt8) (position : Nat)
deriving DecidableEq, Repr

/-- The lower-case digit of a number below sixteen. -/
def digit (n : Nat) : Char := if n < 10 then Char.ofNat (48 + n) else Char.ofNat (87 + n)

def byteDigits (b : UInt8) : List Char := [digit (b.toNat / 16), digit (b.toNat % 16)]

/-- Bytes as lower-case digits. -/
def encode (b : Bytes) : String := String.ofList (b.flatMap byteDigits)

/-- The value of a digit of either case, given as a byte. -/
def value? (b : UInt8) : Option Nat :=
  if 48 ≤ b ∧ b ≤ 57 then some (b.toNat - 48)
  else if 65 ≤ b ∧ b ≤ 70 then some (b.toNat - 55)
  else if 97 ≤ b ∧ b ≤ 102 then some (b.toNat - 87)
  else none

/-- Reads pairs of digits; `position` is the place of the first byte. -/
def decodePairs (position : Nat) : Bytes → Except Error Bytes
  | [] => .ok []
  | [_] => .error .oddLength
  | hi :: lo :: rest =>
    match value? hi, value? lo with
    | none, _ => .error (.invalidCharacter hi position)
    | some _, none => .error (.invalidCharacter lo (position + 1))
    | some h, some l =>
      match decodePairs (position + 2) rest with
      | .ok b => .ok (UInt8.ofNat (16 * h + l) :: b)
      | .error e => .error e

/-- Reads a text of hexadecimal digits. -/
def decode (s : String) : Except Error Bytes :=
  let b := utf8 s
  if b.length % 2 = 1 then .error .oddLength else decodePairs 0 b

/-- Shows a code point below 256 between single quotes, escaping what does not print. -/
def quoteLatin (n : Nat) : String :=
  let escaped : String :=
    if n = 0 then "\\0"
    else if n = 9 then "\\t"
    else if n = 10 then "\\n"
    else if n = 13 then "\\r"
    else if n = 39 then "\\'"
    else if n = 92 then "\\\\"
    else if n < 32 ∨ (127 ≤ n ∧ n ≤ 160) ∨ n = 173 then
      "\\u\x7b" ++ String.ofList ((Nat.toDigits 16 n)) ++ "\x7d"
    else String.singleton (Char.ofNat n)
  "'" ++ escaped ++ "'"

/-- The wording of a failed reading. -/
def Error.message : Error → String
  | .oddLength => "Odd number of digits"
  | .invalidCharacter b position =>
    "Invalid character " ++ quoteLatin b.toNat ++ " at position " ++ toString position

end SealedPost.Text.Hex
