import SealedPost.Text.Hex
import SealedPost.Text.Decimal
import SealedPost.Text.Utf8

/-!
# Web addresses

The host, the port and the target of a plain web address. The target is what a request line carries:
the path without its dot segments, and the query, with every byte escaped that may not stand there.
-/

namespace SealedPost.Relay

/-- Where a request goes. -/
structure Address where
  host : String
  port : Nat
  /-- The path and the query. -/
  target : String
deriving DecidableEq, Repr

namespace Address

/-- The port that is meant where none is given. -/
def defaultPort : Nat := 80

def endsAuthority (c : Char) : Bool := c = '/' || c = '\\' || c = '?' || c = '#'

/-- Whether a character can stand in a host. -/
def isHostChar (c : Char) : Bool := c.isAlphanum || c = '-' || c = '.' || c = '_'

def escapeByte (b : UInt8) : List Char := '%' :: (Text.Hex.encode [b]).toList.map Char.toUpper

/-- A character as it stands in a target; `more` are characters that are escaped there beside
the usual ones. -/
def escapeIn (more : List Char) (c : Char) : List Char :=
  if c.toNat ≤ 32 || 127 ≤ c.toNat || ['"', '#', '<', '>'].contains c || more.contains c then
    (String.utf8EncodeChar c).flatMap escapeByte
  else [c]

/-- The characters that are escaped in a path only. -/
def pathEscapes : List Char := ['?', Char.ofNat 96, Char.ofNat 123, Char.ofNat 125]

/-- The characters that are escaped in a query only. -/
def queryEscapes : List Char := [Char.ofNat 39]

/-- Whether a segment stands for its own directory. -/
def isDot (segment : String) : Bool := ["." , "%2e"].contains segment.toLower

/-- Whether a segment stands for the directory above. -/
def isDotDot (segment : String) : Bool := ["..", ".%2e", "%2e.", "%2e%2e"].contains segment.toLower

/-- The segments that are left of a path, the last first. A dot segment at the end leaves
an empty one. -/
def resolve : (done : List String) → List String → List String
  | done, [] => done
  | done, [segment] =>
    if isDotDot segment then "" :: done.tail else if isDot segment then "" :: done
    else segment :: done
  | done, segment :: rest =>
    if isDotDot segment then resolve done.tail rest
    else if isDot segment then resolve done rest
    else resolve (segment :: done) rest

def divide (path : List Char) : List String :=
  let step (c : Char) (parts : List (List Char)) : List (List Char) :=
    if c = '/' || c = '\\' then [] :: parts
    else match parts with
      | part :: rest => (c :: part) :: rest
      | [] => [[c]]
  (path.foldr step [[]]).map String.ofList

def targetOf (path : List Char) (query : Option (List Char)) : String :=
  let parts := (resolve [] (divide (path.drop 1))).reverse
  let path := parts.map fun p => String.ofList (p.toList.flatMap (escapeIn pathEscapes))
  let query := match query with
    | some q => "?" ++ String.ofList (q.flatMap (escapeIn queryEscapes))
    | none => ""
  "/" ++ String.intercalate "/" path ++ query

/-- The host and the port of an authority. -/
def authority? (cs : List Char) : Option (String × Nat) :=
  let cs := (cs.reverse.takeWhile (· ≠ '@')).reverse
  let host := cs.takeWhile (· ≠ ':')
  let port := (cs.dropWhile (· ≠ ':')).drop 1
  if host.isEmpty || !host.all isHostChar then none
  else if port.isEmpty then some ((String.ofList host).toLower, defaultPort)
  else if !port.all Char.isDigit then none
  else
    match Text.Decimal.read UInt16.size (String.ofList port) with
    | .ok n => some ((String.ofList host).toLower, n)
    | .error _ => none

/-- Reads a plain web address; none for any other address. -/
def ofUrl? (url : String) : Option Address := do
  let isOuter (c : Char) : Bool := decide (c.toNat ≤ 32)
  let cs := ((url.toList.dropWhile isOuter).reverse.dropWhile isOuter).reverse
  let cs := cs.filter fun c => !(c = '\t' || c = '\n' || c = '\r')
  let scheme := "http:".toList
  if (cs.take scheme.length).map Char.toLower ≠ scheme then none
  else
    let rest := (cs.drop scheme.length).dropWhile fun c => c = '/' || c = '\\'
    let (host, port) ← authority? (rest.takeWhile fun c => !endsAuthority c)
    let rest := (rest.dropWhile fun c => !endsAuthority c).takeWhile (· ≠ '#')
    let path := rest.takeWhile (· ≠ '?')
    let query := if rest.contains '?' then some ((rest.dropWhile (· ≠ '?')).drop 1) else none
    return ⟨host, port, targetOf path query⟩

end Address

end SealedPost.Relay
