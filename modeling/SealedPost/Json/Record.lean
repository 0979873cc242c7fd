import SealedPost.Json.Basic

/-!
# Records read from JSON

A record is given as an object with its fields as members, or as an array of its fields in the order
in which they are declared. Members of other names are passed over. An array may stop early, where
the fields that it leaves out have defaults; whether it may go on past the last field is for the
document format to say.
-/

namespace SealedPost.Json

/-- The fields of a record as a value gives them. -/
structure Fields where
  /-- Whether they came as an array. -/
  positional : Bool
  /-- What the value gives for a field name. -/
  get? : String → Option Json

/-- The fields called `names` of a value; `none` if it can be no such record. With `closed`, an
array with more items than there are names is none. -/
def fields? (closed : Bool) (names : List String) : Json → Option Fields
  | .obj members => some ⟨false, fun name => members.lookup name⟩
  | .arr items =>
    if closed && decide (names.length < items.length) then none
    else some ⟨true, fun name => (names.zip items).lookup name⟩
  | _ => none

namespace Fields
variable {α : Type}

def required (f : Fields) (name : String) (read : Json → Option α) : Option α :=
  (f.get? name).bind read

def withDefault (f : Fields) (name : String) (default : α) (read : Json → Option α) : Option α :=
  match f.get? name with
  | some v => read v
  | none => some default

/-- Reads null as absence. -/
def orNull (read : Json → Option α) : Json → Option (Option α)
  | .null => some none
  | v => (read v).map some

/-- A field that may be null, and may be missing from an object but not from an array. -/
def nullable (f : Fields) (name : String) (read : Json → Option α) : Option (Option α) :=
  match f.get? name with
  | some v => orNull read v
  | none => if f.positional then none else some none

end Fields

/-- Reads every item of an array; one unreadable item makes the whole unreadable. -/
def listOf? {α : Type} (read : Json → Option α) (v : Json) : Option (List α) :=
  v.items?.bind fun items => items.mapM read

end SealedPost.Json
