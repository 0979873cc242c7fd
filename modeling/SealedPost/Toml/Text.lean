/-!
# TOML text: blanks, comments, keys and strings

Every reader takes characters from the front and answers what it read together with the rest. Of the
control characters only the tab may stand in a comment or a string; a line ends with a line feed,
with a carriage return in front of it or not.
-/

namespace SealedPost.Toml

/-- Whether a character may stand in a comment. -/
def isPlain (c : Char) : Bool := c = '\t' || (32 ≤ c.toNat && c.toNat ≠ 127)

/-- Without the spaces and tabs at the front. -/
def skipBlank (cs : List Char) : List Char := cs.dropWhile fun c => c = ' ' || c = '\t'

/-- The rest after a line end, if one stands at the front. -/
def lineEnd? : List Char → Option (List Char)
  | '\n' :: rest => some rest
  | '\r' :: '\n' :: rest => some rest
  | _ => none

/-- Without a comment at the front. -/
def skipComment : List Char → List Char
  | '#' :: rest => rest.dropWhile isPlain
  | cs => cs

/-- The rest after blanks, a comment and the end of the line or of the text. -/
def lineRest? (cs : List Char) : Option (List Char) :=
  match skipComment (skipBlank cs) with
  | [] => some []
  | rest => lineEnd? rest

/-- Without blanks, comments and line ends at the front, all of which may stand between the items
of an array. -/
def skipLines : (fuel : Nat) → List Char → List Char
  | 0, cs => cs
  | fuel + 1, cs =>
    let rest := skipComment (skipBlank cs)
    match lineEnd? rest with
    | some rest => skipLines fuel rest
    | none => if (skipBlank cs).head? = some '#' then cs else rest

/-! ## Strings -/

/-- The value of a hexadecimal digit. -/
def hexValue? (c : Char) : Option Nat :=
  if '0' ≤ c ∧ c ≤ '9' then some (c.toNat - 48)
  else if 'a' ≤ c ∧ c ≤ 'f' then some (c.toNat - 87)
  else if 'A' ≤ c ∧ c ≤ 'F' then some (c.toNat - 55)
  else none

/-- The character whose code point the next `count` hexadecimal digits give, after `code`. -/
def codePoint? : (count : Nat) → (code : Nat) → List Char → Option (Char × List Char)
  | 0, code, cs => if Nat.isValidChar code then some (Char.ofNat code, cs) else none
  | count + 1, code, c :: rest => do
    let d ← hexValue? c
    codePoint? count (16 * code + d) rest
  | _ + 1, _, [] => none

/-- The character of an escape, after its backslash. -/
def escape? : List Char → Option (Char × List Char)
  | 'b' :: rest => some (Char.ofNat 8, rest)
  | 't' :: rest => some ('\t', rest)
  | 'n' :: rest => some ('\n', rest)
  | 'f' :: rest => some (Char.ofNat 12, rest)
  | 'r' :: rest => some ('\r', rest)
  | '"' :: rest => some ('"', rest)
  | '\\' :: rest => some ('\\', rest)
  | 'u' :: rest => codePoint? 4 0 rest
  | 'U' :: rest => codePoint? 8 0 rest
  | _ => none

/-- Which marks a string stands between: the double one with escapes, or the single one without. -/
inductive Quote
  | basic
  | literal
deriving DecidableEq, Repr

def Quote.mark : Quote → Char
  | .basic => '"'
  | .literal => '\''

/-- The characters of a string on one line, up to its closing mark; those in `read` come
before, in reverse. -/
def shortString? (q : Quote) :
    (fuel : Nat) → (read : List Char) → List Char → Option (String × List Char)
  | 0, _, _ => none
  | _ + 1, _, [] => none
  | fuel + 1, read, c :: rest =>
    if c = q.mark then some (String.ofList read.reverse, rest)
    else if q = .basic ∧ c = '\\' then do
      let (c, rest) ← escape? rest
      shortString? q fuel (c :: read) rest
    else if isPlain c then shortString? q fuel (c :: read) rest
    else none

/-- Without blanks and line ends at the front. -/
def skipBlankLines (fuel : Nat) (cs : List Char) : List Char :=
  match fuel with
  | 0 => cs
  | fuel + 1 =>
    match lineEnd? (skipBlank cs) with
    | some rest => skipBlankLines fuel rest
    | none => skipBlank cs

/-- The characters of a string over several lines, up to its three closing marks, with one or two
marks of its own in front of them. A backslash at the end of a line takes away the line end and all
blanks after it. -/
def longString? (q : Quote) :
    (fuel : Nat) → (read : List Char) → List Char → Option (String × List Char)
  | 0, _, _ => none
  | _ + 1, _, [] => none
  | fuel + 1, read, c :: rest =>
    if c = q.mark then
      let marks := (c :: rest).takeWhile (· = q.mark)
      let after := (c :: rest).drop marks.length
      if marks.length < 3 then longString? q fuel (marks ++ read) after
      else if marks.length ≤ 5 then some (String.ofList ((marks.drop 3) ++ read).reverse, after)
      else none
    else if q = .basic ∧ c = '\\' then
      match lineEnd? (skipBlank rest) with
      | some rest => longString? q fuel read (skipBlankLines (rest.length + 1) rest)
      | none => do
        let (c, rest) ← escape? rest
        longString? q fuel (c :: read) rest
    else
      match lineEnd? (c :: rest) with
      | some rest => longString? q fuel ('\n' :: read) rest
      | none => if isPlain c then longString? q fuel (c :: read) rest else none

/-- A string of either kind, after its first mark. A line end right after three opening marks
is left out. -/
def string? (q : Quote) (cs : List Char) : Option (String × List Char) :=
  match cs with
  | a :: b :: rest =>
    if a = q.mark ∧ b = q.mark then
      longString? q (rest.length + 1) [] ((lineEnd? rest).getD rest)
    else shortString? q (cs.length + 1) [] cs
  | _ => shortString? q (cs.length + 1) [] cs

/-! ## Keys -/

/-- Whether a character may stand in a key without marks. -/
def isBare (c : Char) : Bool := c.isAlphanum || c = '_' || c = '-'

def keyPart? : List Char → Option (String × List Char)
  | '"' :: rest => shortString? .basic (rest.length + 1) [] rest
  | '\'' :: rest => shortString? .literal (rest.length + 1) [] rest
  | cs =>
    let part := cs.takeWhile isBare
    if part.isEmpty then none else some (String.ofList part, cs.drop part.length)

/-- How many parts a key may have. -/
def keyLimit : Nat := 79

/-- The parts of a key with dots between them, and blanks around every part. -/
def key? : (fuel : Nat) → List Char → Option (List String × List Char)
  | 0, _ => none
  | fuel + 1, cs => do
    let (part, rest) ← keyPart? (skipBlank cs)
    match skipBlank rest with
    | '.' :: rest => do
      let (parts, rest) ← key? fuel rest
      return (part :: parts, rest)
    | rest => return ([part], rest)

end SealedPost.Toml
