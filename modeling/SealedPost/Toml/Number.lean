import SealedPost.Json.Reader

/-!
# TOML numbers, dates and times

Whole numbers fit 64 bits with a sign, and may be written in four bases; digits may be set apart by
single low lines. A fraction keeps its text. A date or time is read for its form and range alone and
keeps its text, too.
-/

namespace SealedPost.Toml

/-- The value of a digit below `base`. -/
def digit? (base : Nat) (c : Char) : Option Nat := (Json.Reader.hexValue? c).filter (· < base)

/-- Digits set apart by single low lines, of which the first comes at once; they are answered
without the lines. -/
def digitRun? (base : Nat) : List Char → Option (List Char × List Char)
  | [] => none
  | c :: rest =>
    if (digit? base c).isNone then none
    else
      match rest with
      | '_' :: rest => do
        let (more, rest) ← digitRun? base rest
        return (c :: more, rest)
      | rest =>
        match digitRun? base rest with
        | some (more, rest) => some (c :: more, rest)
        | none => if (rest.head?.bind (digit? base)).isSome then none else some ([c], rest)

/-- The number that digits stand for. -/
def numeral (base : Nat) (ds : List Char) : Nat :=
  ds.foldl (fun n c => base * n + ((digit? base c).getD 0)) 0

/-- A sign, if there is one: whether it is the negative one, and the rest. -/
def sign : List Char → Bool × List Char
  | '-' :: rest => (true, rest)
  | '+' :: rest => (false, rest)
  | cs => (false, cs)

/-- The digits of a decimal whole number: a zero alone, or digits that start with none. -/
def wholeDigits? : List Char → Option (List Char × List Char)
  | '0' :: rest => some (['0'], rest)
  | cs => digitRun? 10 cs

/-- A whole number in another base than ten, after its zero and letter. -/
def inBase? (base : Nat) (cs : List Char) : Option (Json × List Char) := do
  let (ds, rest) ← digitRun? base cs
  let n := numeral base ds
  if n ≤ Int64.maxValue.toInt then some (.int n, rest) else none

def whole? : List Char → Option (Json × List Char)
  | '0' :: 'x' :: rest => inBase? 16 rest
  | '0' :: 'o' :: rest => inBase? 8 rest
  | '0' :: 'b' :: rest => inBase? 2 rest
  | cs => do
    let (negative, unsigned) := sign cs
    let (ds, rest) ← wholeDigits? unsigned
    let n := numeral 10 ds
    if negative then
      if Int64.minValue.toInt ≤ -(n : Int) then some (.int (-(n : Int)), rest) else none
    else if n ≤ Int64.maxValue.toInt then some (.int n, rest)
    else none

/-- The digits after a point. -/
def fraction? : List Char → Option (List Char × List Char)
  | '.' :: rest => digitRun? 10 rest
  | _ => none

/-- The exponent after its letter. -/
def exponent? : List Char → Option (Int × List Char)
  | c :: rest => do
    if c ≠ 'e' ∧ c ≠ 'E' then none
    let (negative, rest) := sign rest
    let (ds, rest) ← digitRun? 10 rest
    let n : Int := numeral 10 ds
    return (if negative then -n else n, rest)
  | [] => none

/-- A number with a fraction, an exponent or both; `none` also for a positive one that is beyond the
range of doubles. -/
def fractional? (cs : List Char) : Option (Json × List Char) := do
  let (negative, unsigned) := sign cs
  let (ds, rest) ← wholeDigits? unsigned
  let (fd, e, after) ← match fraction? rest with
    | some (fd, rest) =>
      match exponent? rest with
      | some (e, rest) => some (fd, e, rest)
      | none => some (fd, (0 : Int), rest)
    | none => (exponent? rest).map fun (e, rest) => (([] : List Char), e, rest)
  if !negative && Json.Reader.beyondDoubles (numeral 10 (ds ++ fd)) (e - fd.length) then none
  else return (.real (String.ofList (cs.take (cs.length - after.length))), after)

/-- Infinity or no number, with or without a sign. -/
def special? (cs : List Char) : Option (Json × List Char) :=
  match (sign cs).2 with
  | 'i' :: 'n' :: 'f' :: rest => some (.real "inf", rest)
  | 'n' :: 'a' :: 'n' :: rest => some (.real "nan", rest)
  | _ => none

/-! ## Dates and times -/

/-- A number of exactly `count` decimal digits from `lo` to `hi`. -/
def field? (count lo hi : Nat) (cs : List Char) : Option (Nat × List Char) :=
  let ds := cs.take count
  let n := numeral 10 ds
  if ds.length = count ∧ ds.all Char.isDigit ∧ lo ≤ n ∧ n ≤ hi then some (n, cs.drop count)
  else none

def char? (c : Char) : List Char → Option (List Char)
  | d :: rest => if c = d then some rest else none
  | [] => none

def daysIn (year month : Nat) : Nat :=
  if month = 2 then
    if year % 4 = 0 ∧ (year % 100 ≠ 0 ∨ year % 400 = 0) then 29 else 28
  else if month = 4 ∨ month = 6 ∨ month = 9 ∨ month = 11 then 30
  else 31

def date? (cs : List Char) : Option (List Char) := do
  let (year, rest) ← field? 4 0 9999 cs
  let rest ← char? '-' rest
  let (month, rest) ← field? 2 1 12 rest
  let rest ← char? '-' rest
  let (_, rest) ← field? 2 1 (daysIn year month) rest
  return rest

/-- The rest after the time of a day; a second may be a leap second. -/
def time? (cs : List Char) : Option (List Char) := do
  let (_, rest) ← field? 2 0 23 cs
  let rest ← char? ':' rest
  let (_, rest) ← field? 2 0 59 rest
  let rest ← char? ':' rest
  let (_, rest) ← field? 2 0 60 rest
  match rest with
  | '.' :: more =>
      if (more.head?.map Char.isDigit).getD false then some (more.dropWhile Char.isDigit)
      else some rest
  | _ => return rest

/-- The rest after a distance from universal time, if there is one. -/
def offset (cs : List Char) : List Char :=
  match cs with
  | 'Z' :: rest | 'z' :: rest => rest
  | '+' :: rest | '-' :: rest =>
    let found : Option (List Char) := do
      let (_, rest) ← field? 2 0 23 rest
      let rest ← char? ':' rest
      let (_, rest) ← field? 2 0 59 rest
      return rest
    found.getD cs
  | _ => cs

/-- The rest after a date with or without a time, or a time alone. -/
def momentRest? (cs : List Char) : Option (List Char) :=
  match date? cs with
  | some rest =>
    match rest with
    | c :: more =>
      if c = 'T' ∨ c = 't' ∨ c = ' ' then
        match time? more with
        | some after => some (offset after)
        | none => some rest
      else some rest
    | [] => some []
  | none => time? cs

/-- The name under which the text of a date or time stands in the object that it is read as. -/
def momentName : String := "date or time"

/-- A date or time, as an object with its text in it: where a record is wanted, it has none
of the fields. -/
def moment? (cs : List Char) : Option (Json × List Char) :=
  (momentRest? cs).map fun rest =>
    (.obj [(momentName, .str (String.ofList (cs.take (cs.length - rest.length))))], rest)

/-- A number, a date or a time. -/
def scalar? (cs : List Char) : Option (Json × List Char) :=
  moment? cs <|> fractional? cs <|> special? cs <|> whole? cs

end SealedPost.Toml
