import SealedPost.Toml.Text
import SealedPost.Toml.Number
import SealedPost.Toml.Table

/-!
# TOML documents

A document is read line by line into tables, and is answered as one JSON object. Whatever is wrong
with it, there is no answer.
-/

namespace SealedPost.Toml

/-- How many arrays and inline tables may stand inside one another. -/
def nestingLimit : Nat := 79

mutual
/-- A value and the rest. Every call passes on less fuel; twice as much as there are
characters is enough. -/
def value? (fuel depth : Nat) (cs : List Char) : Option (Json × List Char) :=
  match fuel with
  | 0 => none
  | fuel + 1 =>
    match cs with
    | '"' :: rest => (string? .basic rest).map fun (s, rest) => (.str s, rest)
    | '\'' :: rest => (string? .literal rest).map fun (s, rest) => (.str s, rest)
    | '[' :: rest =>
      if depth = 0 then none
      else (items? fuel (depth - 1) [] rest).map fun (items, rest) => (.arr items, rest)
    | '\x7b' :: rest =>
      if depth = 0 then none
      else
        match skipBlank rest with
        | '\x7d' :: rest => some (.obj [], rest)
        | rest => (pairs? fuel (depth - 1) .fresh rest).map fun (t, rest) => (t.toJson, rest)
    | 't' :: 'r' :: 'u' :: 'e' :: rest => some (.bool true, rest)
    | 'f' :: 'a' :: 'l' :: 's' :: 'e' :: rest => some (.bool false, rest)
    | 'i' :: _ | 'n' :: _ => special? cs
    | _ => scalar? cs

/-- The items of an array up to its bracket; a comma may stand after the last one. -/
def items? (fuel depth : Nat) (read : List Json) (cs : List Char) :
    Option (List Json × List Char) :=
  match fuel with
  | 0 => none
  | fuel + 1 =>
    match skipLines (cs.length + 1) cs with
    | ']' :: rest => some (read.reverse, rest)
    | start => do
      let (v, rest) ← value? fuel depth start
      match skipLines (rest.length + 1) rest with
      | ',' :: rest => items? fuel depth (v :: read) rest
      | ']' :: rest => return ((v :: read).reverse, rest)
      | _ => none

/-- The pairs of an inline table up to its brace; all stand on one line, and no comma after
the last one. -/
def pairs? (fuel depth : Nat) (table : Item) (cs : List Char) : Option (Item × List Char) :=
  match fuel with
  | 0 => none
  | fuel + 1 => do
    let (key, rest) ← key? (cs.length + 1) cs
    match rest with
    | '=' :: rest => do
      if keyLimit < key.length then none
      let (v, rest) ← value? fuel depth (skipBlank rest)
      let table ← table.assign key (.value v)
      match skipBlank rest with
      | ',' :: rest => pairs? fuel depth table rest
      | '\x7d' :: rest => return (table, rest)
      | _ => none
    | _ => none
end

/-- A heading after its opening brackets, up to the end of its line. -/
def heading? (closing : List Char) (cs : List Char) : Option (List String × List Char) := do
  let (key, rest) ← key? (cs.length + 1) cs
  if keyLimit < key.length then none
  if closing.isPrefixOf rest then
    return (key, ← lineRest? (rest.drop closing.length))
  else none

/-- A key and its value, up to the end of their line. -/
def pair? (cs : List Char) : Option ((List String × Json) × List Char) := do
  let (key, rest) ← key? (cs.length + 1) cs
  if keyLimit < key.length then none
  match rest with
  | '=' :: rest => do
    let rest := skipBlank rest
    let (v, rest) ← value? (2 * rest.length + 2) nestingLimit rest
    return ((key, v), ← lineRest? rest)
  | _ => none

/-- The lines of a document, one after the other. -/
def lines? : (fuel : Nat) → Draft → List Char → Option Draft
  | 0, _, _ => none
  | fuel + 1, d, cs =>
    match skipBlank cs with
    | [] => some d
    | '#' :: rest => do lines? fuel d (← lineRest? ('#' :: rest))
    | '[' :: '[' :: rest => do
      let (heading, rest) ← heading? [']', ']'] rest
      lines? fuel (← d.beginElement heading) rest
    | '[' :: rest => do
      let (heading, rest) ← heading? [']'] rest
      lines? fuel (← d.beginTable heading) rest
    | start =>
      match lineEnd? start with
      | some rest => lines? fuel d rest
      | none => do
        let ((key, v), rest) ← pair? start
        lines? fuel (← d.assign key v) rest

/-- Reads a document; a byte order mark in front of it is passed over. -/
def document? (s : String) : Option Json := do
  let cs := match s.toList with
    | '\uFEFF' :: rest => rest
    | cs => cs
  let d ← lines? (cs.length + 1) .start cs
  let root ← d.finish
  return root.toJson

end SealedPost.Toml
