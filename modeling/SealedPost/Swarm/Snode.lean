import SealedPost.Json.Record

/-!
# Storage nodes and the network

Where a storage node is reached, and what can go wrong when anything is asked over the network.
-/

namespace SealedPost

structure Snode where
  address : String
  port : UInt16
deriving DecidableEq, Repr

namespace Snode

def display (s : Snode) : String := s.address ++ ":" ++ toString s.port.toNat

def ofJson? (v : Json) : Option Snode := do
  let f ← v.fields? true ["address", "port"]
  let address ← f.required "address" Json.text?
  let port ← f.required "port" (Json.natBelow? UInt16.size)
  return ⟨address, UInt16.ofNat port⟩

def toJson (s : Snode) : Json := .obj [("address", .str s.address), ("port", .int s.port.toNat)]

end Snode

/-- Why a request gave no usable reply. -/
inductive NetworkError
  | transport (text : String)
  /-- The response had another status than success. -/
  | httpStatus (code : Nat)
  | badResponse (text : String)
  | timeout
deriving DecidableEq, Repr

def NetworkError.message : NetworkError → String
  | .transport text => "transport failed: " ++ text
  | .httpStatus code => "http status " ++ toString code
  | .badResponse text => "bad response: " ++ text
  | .timeout => "request timed out"

end SealedPost
