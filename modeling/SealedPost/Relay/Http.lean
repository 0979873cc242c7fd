import SealedPost.Json.Printer
import SealedPost.Relay.Address
import SealedPost.Relay.Exchange

/-!
# Requests and responses on the wire

The bytes of a request that posts a JSON body, and how the bytes that come back until the connection
closes are read. A body is whole if it is as long as its head says, or ends with its last chunk;
without either it ends with the connection.
-/

namespace SealedPost.Relay.Http

def lineEnd : String := "\r\n"

/-- The type of every body that is sent. -/
def contentType : String := "application/json"

/-- The host of an address as a request names it. -/
def hostHeader (a : Address) : String :=
  if a.port = Address.defaultPort then a.host else a.host ++ ":" ++ toString a.port

def request (a : Address) (body : Json) : Bytes :=
  let body := Text.utf8 body.compact
  let head := String.intercalate lineEnd [
    "POST " ++ a.target ++ " HTTP/1.1",
    "host: " ++ hostHeader a,
    "accept: */*",
    "content-type: " ++ contentType,
    "content-length: " ++ toString body.length,
    "connection: close",
    "",
    ""]
  Text.utf8 head ++ body

/-- Bytes as characters of the same numbers. -/
def characters (b : Bytes) : List Char := b.map fun x => Char.ofNat x.toNat

/-- The bytes up to the first end of a line, and those after it. -/
def line? : Bytes → Option (Bytes × Bytes)
  | [] => none
  | 13 :: 10 :: rest => some ([], rest)
  | b :: rest => (line? rest).map fun l => (b :: l.1, l.2)

/-- The lines of a head, and what stands after the empty line that ends it. -/
def head? : (fuel : Nat) → Bytes → Option (List (List Char) × Bytes)
  | 0, _ => none
  | fuel + 1, b => do
    let (line, rest) ← line? b
    if line.isEmpty then return ([], rest)
    let (lines, rest) ← head? fuel rest
    return (characters line :: lines, rest)

/-- The status that the first line of a head gives. -/
def status? (line : List Char) : Option Nat :=
  match (String.ofList line).splitOn " " with
  | version :: code :: _ =>
    if version.startsWith "HTTP/1." && code.length = 3 && code.toList.all Char.isDigit then
      code.toNat?
    else none
  | _ => none

/-- The value of a header, without the blanks around it. -/
def header? (name : String) (lines : List (List Char)) : Option String :=
  (lines.find? fun l => (String.ofList (l.takeWhile (· ≠ ':'))).toLower = name).map fun l =>
    (((String.ofList (l.dropWhile (· ≠ ':'))).drop 1).trimAscii).toString

/-- The number that hexadecimal digits give. -/
def hexNumber? (digits : Bytes) : Option Nat :=
  if digits.isEmpty then none
  else digits.foldlM (fun n b => (Text.Hex.value? b).map fun d => 16 * n + d) 0

/-- The bytes of a body in chunks; none if it was cut off. -/
def unchunk? : (fuel : Nat) → Bytes → Option Bytes
  | 0, _ => none
  | fuel + 1, b => do
    let (line, rest) ← line? b
    let size ← hexNumber? (line.takeWhile fun b => (Text.Hex.value? b).isSome)
    if size = 0 then return []
    if rest.length < size + 2 then none
    else return rest.take size ++ (← unchunk? fuel (rest.drop (size + 2)))

/-- The body of a response; none if it was cut off. -/
def body? (lines : List (List Char)) (rest : Bytes) : Option Bytes :=
  if ((header? "transfer-encoding" lines).map String.toLower) = some "chunked" then
    unchunk? (rest.length + 1) rest
  else
    match (header? "content-length" lines).bind String.toNat? with
    | some n => if rest.length < n then none else some (rest.take n)
    | none => some rest

/-- How an attempt ended that brought these bytes. -/
def response (b : Bytes) : Exchange :=
  match head? (b.length + 1) b with
  | some (first :: lines, rest) =>
    match status? first with
    | some status => .response status (body? lines rest)
    | none => .unreachable "the response has no status"
  | _ => .unreachable "there is no response"

end SealedPost.Relay.Http
