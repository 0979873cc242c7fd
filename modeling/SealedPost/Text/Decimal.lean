/-!
# Unsigned decimal text

A bounded unsigned number is written with decimal digits, leading zeros and one leading `+` allowed.
The digits are read from the left, and the first thing wrong with them decides what is reported.
-/

namespace SealedPost.Text.Decimal

/-- Why a text is no number below the bound. -/
inductive Error
  | empty
  | invalidDigit
  | tooLarge
deriving DecidableEq, Repr

/-- The wording of a failed reading. -/
def Error.message : Error → String
  | .empty => "cannot parse integer from empty string"
  | .invalidDigit => "invalid digit found in string"
  | .tooLarge => "number too large to fit in target type"

def value? (c : Char) : Option Nat :=
  if '0' ≤ c ∧ c ≤ '9' then some (c.toNat - 48) else none

/-- Reads digits after those that make up `read`; every number on the way has to
stay below `bound`. -/
def readDigits (bound read : Nat) : List Char → Except Error Nat
  | [] => .ok read
  | c :: rest =>
    match value? c with
    | none => .error .invalidDigit
    | some d =>
        if 10 * read + d < bound then readDigits bound (10 * read + d) rest else .error .tooLarge

/-- Reads a number below `bound`. -/
def read (bound : Nat) (s : String) : Except Error Nat :=
  match s.toList with
  | [] => .error .empty
  | ['+'] => .error .invalidDigit
  | '+' :: rest => readDigits bound 0 rest
  | digits => readDigits bound 0 digits

end SealedPost.Text.Decimal
