import SealedPost.Json.Basic

/-!
# Reading JSON text

A text is one value with blanks around it. Nesting is limited, as a guard against a text that is
nothing but opening brackets; of two members with one name the later counts; a text with half of a
surrogate pair, a bare control character or a number beyond the range of doubles is refused.
-/

namespace SealedPost.Json.Reader

/-- How many arrays and objects may stand inside one another. -/
def nestingLimit : Nat := 127

/-- Without the blanks at the front. -/
def skipBlank (cs : List Char) : List Char :=
  cs.dropWhile fun c => c = ' ' || c = '\n' || c = '\r' || c = '\t'

/-- The rest after the characters of `word`, if they stand at the front. -/
def word? (word : List Char) (cs : List Char) : Option (List Char) :=
  if word.isPrefixOf cs then some (cs.drop word.length) else none

/-! ## Quoted text -/

/-- The value of a hexadecimal digit. -/
def hexValue? (c : Char) : Option Nat :=
  if '0' ≤ c ∧ c ≤ '9' then some (c.toNat - 48)
  else if 'a' ≤ c ∧ c ≤ 'f' then some (c.toNat - 87)
  else if 'A' ≤ c ∧ c ≤ 'F' then some (c.toNat - 55)
  else none

/-- Four hexadecimal digits and the rest. -/
def fourDigits? : List Char → Option (Nat × List Char)
  | a :: b :: c :: d :: rest => do
    let a ← hexValue? a
    let b ← hexValue? b
    let c ← hexValue? c
    let d ← hexValue? d
    return (4096 * a + 256 * b + 16 * c + d, rest)
  | _ => none

/-- The character of a `\u` escape, after its `u`: a pair of escapes where the first one is half
of a pair. -/
def unicodeEscape? (cs : List Char) : Option (Char × List Char) := do
  let (high, rest) ← fourDigits? cs
  if 0xDC00 ≤ high ∧ high < 0xE000 then none
  else if 0xD800 ≤ high ∧ high < 0xDC00 then
    match rest with
    | '\\' :: 'u' :: rest => do
      let (low, rest) ← fourDigits? rest
      if 0xDC00 ≤ low ∧ low < 0xE000 then
        return (Char.ofNat (0x10000 + (high - 0xD800) * 0x400 + (low - 0xDC00)), rest)
      else none
    | _ => none
  else return (Char.ofNat high, rest)

/-- The character of an escape, after its backslash. -/
def escape? : List Char → Option (Char × List Char)
  | '"' :: rest => some ('"', rest)
  | '\\' :: rest => some ('\\', rest)
  | '/' :: rest => some ('/', rest)
  | 'b' :: rest => some (Char.ofNat 8, rest)
  | 'f' :: rest => some (Char.ofNat 12, rest)
  | 'n' :: rest => some ('\n', rest)
  | 'r' :: rest => some ('\r', rest)
  | 't' :: rest => some ('\t', rest)
  | 'u' :: rest => unicodeEscape? rest
  | _ => none

/-- The characters up to the closing quote, put before `read` in reverse, and the rest
after the quote. -/
def quoted? (fuel : Nat) (read : List Char) (cs : List Char) : Option (String × List Char) :=
  match fuel, cs with
  | 0, _ | _, [] => none
  | _ + 1, '"' :: rest => some (String.ofList read.reverse, rest)
  | fuel + 1, '\\' :: rest => do
    let (c, rest) ← escape? rest
    quoted? fuel (c :: read) rest
  | fuel + 1, c :: rest => if c.toNat < 32 then none else quoted? fuel (c :: read) rest

/-! ## Numbers -/

/-- The digits at the front, as characters, and the rest. -/
def digits (cs : List Char) : List Char × List Char := cs.span Char.isDigit

/-- The number that decimal digits stand for. -/
def decimal (ds : List Char) : Nat := ds.foldl (fun n c => 10 * n + (c.toNat - 48)) 0

/-- Whether `m · 10^e` rounds to no finite double. -/
def beyondDoubles (m : Nat) (e : Int) : Bool :=
  let bound := Nat.pow 2 1024 - Nat.pow 2 970
  let places : Int := (toString m).length + e
  if m = 0 ∨ places < 300 then false
  else if 400 < places then true
  else if 0 ≤ e then decide (bound ≤ m * Nat.pow 10 e.toNat)
  else decide (bound * Nat.pow 10 (-e).toNat ≤ m)

/-- The whole digits: a single zero, or digits that start with none. -/
def whole? (cs : List Char) : Option (List Char × List Char) :=
  match digits cs with
  | ([], _) => none
  | ('0' :: _ :: _, _) => none
  | found => some found

/-- The digits after a point, if there is one. -/
def fraction? : List Char → Option (Option (List Char) × List Char)
  | '.' :: rest =>
    match digits rest with
    | ([], _) => none
    | (ds, rest) => some (some ds, rest)
  | cs => some (none, cs)

/-- The exponent, if there is one: its sign and digits. -/
def exponent? : List Char → Option (Option (Bool × List Char) × List Char)
  | c :: rest =>
    if c = 'e' ∨ c = 'E' then
      let (negative, rest) :=
        match rest with
        | '-' :: r => (true, r)
        | '+' :: r => (false, r)
        | r => (false, r)
      match digits rest with
      | ([], _) => none
      | (ds, rest) => some (some (negative, ds), rest)
    else some (none, c :: rest)
  | [] => some (none, [])

def number? (cs : List Char) : Option (Json × List Char) := do
  let (negative, unsigned) :=
    match cs with
    | '-' :: rest => (true, rest)
    | rest => (false, rest)
  let (ds, rest) ← whole? unsigned
  let (fractionDigits, rest) ← fraction? rest
  let (exponentDigits, rest) ← exponent? rest
  let n := decimal ds
  let literal := String.ofList (cs.take (cs.length - rest.length))
  let fd := fractionDigits.getD []
  let e : Int := match exponentDigits with
    | some (true, ds) => -(decimal ds : Int)
    | some (false, ds) => decimal ds
    | none => 0
  if fractionDigits.isNone ∧ exponentDigits.isNone ∧ !negative ∧ n < UInt64.size then
    return (.int n, rest)
  else if fractionDigits.isNone ∧ exponentDigits.isNone ∧ negative ∧ 0 < n ∧
      Int64.minValue.toInt ≤ -(n : Int) then
    return (.int (-(n : Int)), rest)
  else if beyondDoubles (decimal (ds ++ fd)) (e - fd.length) then none
  else return (.real literal, rest)

/-! ## Values -/

mutual
/-- A value and the rest. Every call passes on less fuel; as much as there are
characters is enough. -/
def value? (fuel depth : Nat) (cs : List Char) : Option (Json × List Char) :=
  match fuel with
  | 0 => none
  | fuel + 1 =>
    match skipBlank cs with
    | 'n' :: rest => (word? ['u', 'l', 'l'] rest).map fun rest => (.null, rest)
    | 't' :: rest => (word? ['r', 'u', 'e'] rest).map fun rest => (.bool true, rest)
    | 'f' :: rest => (word? ['a', 'l', 's', 'e'] rest).map fun rest => (.bool false, rest)
    | '"' :: rest => (quoted? (rest.length + 1) [] rest).map fun (s, rest) => (.str s, rest)
    | '[' :: rest =>
      if depth = 0 then none
      else
        match skipBlank rest with
        | ']' :: rest => some (.arr [], rest)
        | rest => (items? fuel (depth - 1) [] rest).map fun (items, rest) => (.arr items, rest)
    | '\x7b' :: rest =>
      if depth = 0 then none
      else
        match skipBlank rest with
        | '\x7d' :: rest => some (.obj [], rest)
        | rest => (members? fuel (depth - 1) [] rest).map fun (ms, rest) => (.obj ms, rest)
    | rest => number? rest

/-- Items up to the closing bracket, put after `read`, which is reversed. -/
def items? (fuel depth : Nat) (read : List Json) (cs : List Char) :
    Option (List Json × List Char) :=
  match fuel with
  | 0 => none
  | fuel + 1 => do
    let (v, rest) ← value? fuel depth cs
    match skipBlank rest with
    | ',' :: rest => items? fuel depth (v :: read) rest
    | ']' :: rest => return ((v :: read).reverse, rest)
    | _ => none

/-- Members up to the closing brace, put into `read`. -/
def members? (fuel depth : Nat) (read : List (String × Json)) (cs : List Char) :
    Option (List (String × Json) × List Char) :=
  match fuel with
  | 0 => none
  | fuel + 1 =>
    match skipBlank cs with
    | '"' :: rest => do
      let (name, rest) ← quoted? (rest.length + 1) [] rest
      match skipBlank rest with
      | ':' :: rest => do
        let (v, rest) ← value? fuel depth rest
        match skipBlank rest with
        | ',' :: rest => members? fuel depth (setMember name v read) rest
        | '\x7d' :: rest => return (setMember name v read, rest)
        | _ => none
      | _ => none
    | _ => none
end

end Reader

def ofText? (s : String) : Option Json := do
  let cs := s.toList
  let (v, rest) ← Reader.value? (2 * cs.length + 2) Reader.nestingLimit cs
  match Reader.skipBlank rest with
  | [] => return v
  | _ => none

end SealedPost.Json
