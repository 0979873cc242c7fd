import SealedPost.Json.Record
import SealedPost.Text.Base64
import SealedPost.Envelope

/-!
# Retrieval responses

A node answers a request for a group's messages with a list of base64 texts and times. A
response that cannot be read as a whole holds no envelopes; an entry whose text is not base64 is
passed over alone (`envelopes`, which is `parse_retrieve_response`).
-/

namespace SealedPost.Retrieval

/-- One message as a node gives it. -/
structure Entry where
  /-- Base64 text. -/
  data : String
  timestamp : Nat
deriving DecidableEq, Repr

/-- Reads an entry; its time is zero where it has none. -/
def Entry.ofJson? (v : Json) : Option Entry := do
  let f ← v.fields? true ["data", "timestamp"]
  let data ← f.required "data" Json.text?
  let timestamp ← f.withDefault "timestamp" 0 (Json.natBelow? UInt64.size)
  return ⟨data, timestamp⟩

def Entry.toJson (e : Entry) : Json := .obj [("data", .str e.data), ("timestamp", .int e.timestamp)]

/-- Reads the entries of a response; one that cannot be read spoils them all. -/
def entries? (response : Json) : Option (List Entry) := do
  let f ← response.fields? true ["messages"]
  f.withDefault "messages" [] (Json.listOf? Entry.ofJson?)

def response (entries : List Entry) : Json := .obj [("messages", .arr (entries.map Entry.toJson))]

def Entry.envelope? (group : String) (e : Entry) : Option Envelope :=
  (Text.Base64.decode? e.data).map fun content => .closedGroup group content e.timestamp

def envelopes (group : String) (response : Json) : List Envelope :=
  ((entries? response).getD []).filterMap (Entry.envelope? group)

end SealedPost.Retrieval
