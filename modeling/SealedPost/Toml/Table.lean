import SealedPost.Json.Basic

/-!
# TOML tables

While a document is read, a table remembers how it came to be. One that is only passed through
on the way to another is implicit, and may be given its own heading later; one made by a
dotted key may be extended by dotted keys alone. A value that was written out, an inline table
too, is never extended.
-/

namespace SealedPost.Toml

/-- What stands under a key while a document is read. -/
inductive Item
  | value (v : Json)
  | table (implicit dotted : Bool) (members : List (String × Item))
  /-- An array made by headings in double brackets; the last table is the one that is extended. -/
  | tables (elements : List Item)
deriving Inhabited

namespace Item

/-- A table with a heading of its own, or the document itself. -/
def fresh : Item := .table false false []

def member? (t : Item) (key : String) : Option Item :=
  match t with
  | .table _ _ members => members.lookup key
  | _ => none

/-- Puts an item under a key, in place of an older one. -/
def put (key : String) (item : Item) : List (String × Item) → List (String × Item)
  | [] => [(key, item)]
  | (k, i) :: rest => if k = key then (k, item) :: rest else (k, i) :: put key item rest

def setMember (t : Item) (key : String) (item : Item) : Item :=
  match t with
  | .table implicit dotted members => .table implicit dotted (put key item members)
  | other => other

def removeMember (t : Item) (key : String) : Item :=
  match t with
  | .table implicit dotted members => .table implicit dotted (members.filter fun m => m.1 ≠ key)
  | other => other

/-- Whether a table was made by a dotted key. -/
def isDotted : Item → Bool
  | .table _ dotted _ => dotted
  | _ => false

/-- Goes down a path of keys, making the tables that are missing, and changes the table at its
end. With `byDots` the path is that of a dotted key, which must not go through tables that
have a heading. -/
def descend (byDots : Bool) : List String → (Item → Option Item) → Item → Option Item
  | [], change, t => change t
  | key :: path, change, t =>
    match t.member? key with
    | none =>
        (descend byDots path change (.table true byDots [])).map fun child => t.setMember key child
    | some (.value _) => none
    | some (.table implicit dotted members) =>
      if byDots && !implicit then none
      else
        (descend byDots path change (.table implicit dotted members)).map fun child =>
          t.setMember key child
    | some (.tables elements) =>
      match elements.getLast? with
      | none => none
      | some last =>
        (descend byDots path change last).map fun child =>
          t.setMember key (.tables (elements.dropLast ++ [child]))

/-- Puts a value under the last part of a key that is not taken. -/
def assign (t : Item) (key : List String) (v : Item) : Option Item :=
  match key.getLast? with
  | none => none
  | some last =>
    descend true key.dropLast (fun parent =>
      if parent.isDotted = key.dropLast.isEmpty then none
      else if (parent.member? last).isSome then none
      else some (parent.setMember last v)) t

mutual
/-- The finished value of an item. -/
def toJson : Item → Json
  | .value v => v
  | .table _ _ members => .obj (membersToJson members)
  | .tables elements => .arr (elementsToJson elements)

/-- The finished values of a table's members. -/
def membersToJson : List (String × Item) → List (String × Json)
  | [] => []
  | (key, item) :: rest => (key, toJson item) :: membersToJson rest

/-- The finished tables of an array. -/
def elementsToJson : List Item → List Json
  | [] => []
  | item :: rest => toJson item :: elementsToJson rest
end

end Item

/-- A document while it is read: the tables that are finished, and the one that the next
lines belong to. -/
structure Draft where
  root : Item
  current : Item
  /-- The heading of the current table; none before the first heading. -/
  heading : List String
  /-- Whether that heading stands in double brackets. -/
  inArray : Bool

namespace Draft

/-- Nothing read yet. -/
def start : Draft := ⟨.fresh, .fresh, [], false⟩

/-- Puts the current table where its heading says. -/
def finish (d : Draft) : Option Item :=
  match d.heading.getLast? with
  | none => some d.current
  | some key =>
    Item.descend false d.heading.dropLast (fun parent =>
      match parent.member? key, d.inArray with
      | none, true => some (parent.setMember key (.tables [d.current]))
      | some (.tables elements), true =>
          some (parent.setMember key (.tables (elements ++ [d.current])))
      | none, false => some (parent.setMember key d.current)
      | some (.table true _ _), false => some (parent.setMember key d.current)
      | _, _ => none) d.root

/-- The item under a heading that may be given a table now: nothing, or a table that was
only passed through. -/
def openTable? (parent : Item) (key : String) : Option Item :=
  match parent.member? key with
  | none => some .fresh
  | some (.table true false members) => some (.table false false members)
  | some _ => none

/-- Begins the table of a heading in single brackets. -/
def beginTable (d : Draft) (heading : List String) : Option Draft := do
  let root ← d.finish
  let key ← heading.getLast?
  let parent ← descendTo heading.dropLast root
  let current ← openTable? parent key
  let root ← Item.descend false heading.dropLast (fun t => some (t.removeMember key)) root
  return ⟨root, current, heading, false⟩
where
  /-- The table at the end of a path. -/
  descendTo : List String → Item → Option Item
    | [], t => some t
    | key :: path, t =>
      match t.member? key with
      | none => descendTo path (.table true false [])
      | some (.value _) => none
      | some (.table implicit dotted members) => descendTo path (.table implicit dotted members)
      | some (.tables elements) => elements.getLast?.bind (descendTo path)

/-- Begins a table of the array of a heading in double brackets. -/
def beginElement (d : Draft) (heading : List String) : Option Draft := do
  let root ← d.finish
  let key ← heading.getLast?
  let root ← Item.descend false heading.dropLast (fun parent =>
    match parent.member? key with
    | none => some parent
    | some (.tables _) => some parent
    | some _ => none) root
  return ⟨root, .fresh, heading, true⟩

/-- Puts a value under a key of the current table. -/
def assign (d : Draft) (key : List String) (v : Json) : Option Draft :=
  (d.current.assign key (.value v)).map fun current => { d with current }

end Draft

end SealedPost.Toml
