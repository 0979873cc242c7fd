/-!
# JSON values

A number is an integer when it is written without fraction and exponent and fits one of the 64-bit
types; every other number keeps its text, since nothing computes with it. An object keeps its
members in order and has each name once.
-/

namespace SealedPost

/-- A JSON value. -/
inductive Json
  | null
  | bool (value : Bool)
  | int (value : Int)
  /-- A number that is no 64-bit integer, as it was written. -/
  | real (literal : String)
  | str (value : String)
  | arr (items : List Json)
  | obj (members : List (String × Json))
deriving Repr, Inhabited

namespace Json

/-- The member of that name, if the value is an object that has it. -/
def member? (v : Json) (name : String) : Option Json :=
  match v with
  | .obj members => members.lookup name
  | _ => none

/-- The text, if the value is one. -/
def text? : Json → Option String
  | .str s => some s
  | _ => none

/-- The truth value, if the value is one. -/
def bool? : Json → Option Bool
  | .bool b => some b
  | _ => none

/-- The integer, if the value is one from `lo` up to but not including `hi`. -/
def intIn? (lo hi : Int) : Json → Option Int
  | .int i => if lo ≤ i ∧ i < hi then some i else none
  | _ => none

/-- The integer, if the value is one that 64 bits hold with a sign. -/
def int64? (v : Json) : Option Int := v.intIn? Int64.minValue.toInt (Int64.maxValue.toInt + 1)

/-- The number, if the value is an integer from zero up to but not including `bound`. -/
def natBelow? (bound : Nat) : Json → Option Nat
  | .int i => if 0 ≤ i ∧ i < bound then some i.toNat else none
  | _ => none

/-- The items, if the value is an array. -/
def items? : Json → Option (List Json)
  | .arr items => some items
  | _ => none

/-- Puts a member into an object's list, in place of an older one of that name. -/
def setMember (name : String) (value : Json) : List (String × Json) → List (String × Json)
  | [] => [(name, value)]
  | (n, v) :: rest => if n = name then (n, value) :: rest else (n, v) :: setMember name value rest

end Json

end SealedPost
