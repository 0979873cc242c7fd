import SealedPost.Octets

/-!
# Texts as bytes, and white space

The bytes of a text, the order of texts by their bytes, and the two ways back: the strict reading
refuses bytes that are not UTF-8, the forgiving one puts a replacement character for each longest
run of bytes that starts a character and cannot be continued. White space is what Unicode calls so.
-/

namespace SealedPost.Text

/-- The UTF-8 bytes of a text. -/
def utf8 (s : String) : Bytes := s.toList.flatMap String.utf8EncodeChar

/-- Texts compared by their bytes: `a` comes before `b` or is equal to it. -/
def bytesLe (a b : String) : Bool := !decide (utf8 b < utf8 a)

theorem bytesLe_iff {a b : String} : bytesLe a b = true ↔ utf8 a ≤ utf8 b := by
  simp [bytesLe]

/-- The character that stands for unreadable bytes. -/
def replacement : Char := '\uFFFD'

/-- What a leading byte announces: the bits it contributes, and for each continuation byte
the range in which it has to lie. `none` for a byte that cannot lead. -/
def announce (b : UInt8) : Option (Nat × List (UInt8 × UInt8)) :=
  if b < 0x80 then some (b.toNat, [])
  else if b < 0xC2 then none
  else if b < 0xE0 then some (b.toNat % 32, [(0x80, 0xBF)])
  else if b = 0xE0 then some (0, [(0xA0, 0xBF), (0x80, 0xBF)])
  else if b = 0xED then some (13, [(0x80, 0x9F), (0x80, 0xBF)])
  else if b < 0xF0 then some (b.toNat % 16, [(0x80, 0xBF), (0x80, 0xBF)])
  else if b = 0xF0 then some (0, [(0x90, 0xBF), (0x80, 0xBF), (0x80, 0xBF)])
  else if b < 0xF4 then some (b.toNat % 8, [(0x80, 0xBF), (0x80, 0xBF), (0x80, 0xBF)])
  else if b = 0xF4 then some (4, [(0x80, 0x8F), (0x80, 0xBF), (0x80, 0xBF)])
  else none

/-- Collects the announced continuation bytes onto `bits`. Answers the code point, or `none` where
a byte is missing or out of its range, and how many bytes were taken. -/
def collect (bits taken : Nat) : List (UInt8 × UInt8) → Bytes → Option Nat × Nat
  | [], _ => (some bits, taken)
  | _ :: _, [] => (none, taken)
  | (lo, hi) :: more, c :: rest =>
    if lo ≤ c ∧ c ≤ hi then collect (bits * 64 + c.toNat % 64) (taken + 1) more rest
    else (none, taken)

/-- The character that starts with `b`, if the bytes after it complete one, and how many of
those bytes belong to it or to the unreadable run. -/
def character (b : UInt8) (rest : Bytes) : Option Char × Nat :=
  match announce b with
  | none => (none, 0)
  | some (bits, ranges) =>
    let (code, taken) := collect bits 0 ranges rest
    (code.map Char.ofNat, taken)

/-- Reads UTF-8, with the replacement character for each unreadable run. -/
def readLossy : Bytes → List Char
  | [] => []
  | b :: rest =>
    (character b rest).1.getD replacement :: readLossy (rest.drop (character b rest).2)
termination_by b => b.length
decreasing_by simp only [List.length_drop, List.length_cons]; omega

/-- Reads UTF-8; `none` if some byte belongs to no character. -/
def readUtf8? : Bytes → Option (List Char)
  | [] => some []
  | b :: rest => do
    let c ← (character b rest).1
    let cs ← readUtf8? (rest.drop (character b rest).2)
    return c :: cs
termination_by b => b.length
decreasing_by simp only [List.length_drop, List.length_cons]; omega

/-! ## White space -/

/-- The Unicode property White_Space, as ranges of code points. -/
def blankRanges : List (Nat × Nat) :=
  [(0x09, 0x0D), (0x20, 0x20), (0x85, 0x85), (0xA0, 0xA0), (0x1680, 0x1680), (0x2000, 0x200A),
   (0x2028, 0x2029), (0x202F, 0x202F), (0x205F, 0x205F), (0x3000, 0x3000)]

/-- Whether a character is white space. -/
def isBlank (c : Char) : Bool := blankRanges.any fun r => r.1 ≤ c.toNat && c.toNat ≤ r.2

/-- Characters without white space at the front. -/
def dropBlank (cs : List Char) : List Char := cs.dropWhile isBlank

/-- Characters without white space at either end. -/
def trimChars (cs : List Char) : List Char := (dropBlank (dropBlank cs).reverse).reverse

/-- A text without white space at either end. -/
def trim (s : String) : String := String.ofList (trimChars s.toList)

@[simp] theorem toList_trim (s : String) : (trim s).toList = trimChars s.toList := by
  simp [trim]

end SealedPost.Text
