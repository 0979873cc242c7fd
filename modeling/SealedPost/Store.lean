import SealedPost.Store.Slots
import SealedPost.Json.Record
import SealedPost.Identity.KeyText

/-!
# The local store

The identity slots, the closed groups that the local user belongs to, and what is remembered about
push registration. A group's record is filed under its public key without the mark of a session id,
so that either spelling of the key finds it; the listing, `all_closed_group_public_keys`, shows each
key as its record spells it.
-/

namespace SealedPost

/-! ## Closed groups -/

/-- What is kept for a closed group. -/
structure GroupRecord where
  /-- The group's public key, with or without the mark of a session id. -/
  publicKey : String
  /-- The group's secret key, once it has arrived. -/
  privateKey : Option String
  members : List String
  admins : List String
deriving DecidableEq, Repr

namespace GroupRecord

def ofJson? (v : Json) : Option GroupRecord := do
  let f ← v.fields? true ["group_public_key", "group_private_key", "members", "admins"]
  let publicKey ← f.required "group_public_key" Json.text?
  let privateKey ← f.nullable "group_private_key" Json.text?
  let members ← f.required "members" (Json.listOf? Json.text?)
  let admins ← f.required "admins" (Json.listOf? Json.text?)
  return ⟨publicKey, privateKey, members, admins⟩

def toJson (r : GroupRecord) : Json :=
  .obj [("group_public_key", .str r.publicKey),
    ("group_private_key", match r.privateKey with | some key => .str key | none => .null),
    ("members", .arr (r.members.map .str)), ("admins", .arr (r.admins.map .str))]

/-- The key that a record is filed under. -/
def fileKey (r : GroupRecord) : String := KeyText.strip r.publicKey

end GroupRecord

/-- The closed groups, each filed once under its own key. -/
structure GroupTable where
  records : List GroupRecord
  nodup : (records.map GroupRecord.fileKey).Nodup

namespace GroupTable

def empty : GroupTable := ⟨[], List.nodup_nil⟩

def find? (table : GroupTable) (key : String) : Option GroupRecord :=
  table.records.find? fun r => r.fileKey = KeyText.strip key

def remove (table : GroupTable) (key : String) : GroupTable where
  records := table.records.filter fun r => r.fileKey ≠ KeyText.strip key
  nodup := table.nodup.sublist (List.filter_sublist.map _)

/-- Removes the group of a key; answers its record, if there was one. -/
def withdraw (table : GroupTable) (key : String) : Option GroupRecord × GroupTable :=
  (table.find? key, table.remove key)

/-- Adds a record, in place of an older one of the same group. -/
def add (table : GroupTable) (record : GroupRecord) : GroupTable where
  records := record :: (table.records.filter fun r => r.fileKey ≠ record.fileKey)
  nodup := by
    refine List.nodup_cons.2 ⟨?_, table.nodup.sublist (List.filter_sublist.map _)⟩
    simp only [List.mem_map, List.mem_filter, decide_eq_true_eq, not_exists, not_and]
    exact fun r h e => h.2 e

def isKnown (table : GroupTable) (key : String) : Bool := (table.find? key).isSome

/-- The secret key of a group, if it is known and has arrived. -/
def privateKey? (table : GroupTable) (key : String) : Option String :=
  (table.find? key).bind GroupRecord.privateKey

def count (table : GroupTable) : Nat := table.records.length

/-- The public keys of all groups as their records spell them, in the order of their bytes. -/
def publicKeys (table : GroupTable) : List String :=
  (table.records.map GroupRecord.publicKey).mergeSort Text.bytesLe

end GroupTable

/-! ## The whole store -/

/-- What is remembered about push registration. -/
structure PushState where
  /-- The token that was registered last. -/
  token : Option String
  /-- When it was registered, in milliseconds since the epoch. -/
  lastUpload : Int64
  /-- Whether notifications are enabled. -/
  enabled : Bool
  /-- The session id of the local identity, once there is one. -/
  sessionId : Option String
deriving DecidableEq, Repr

def PushState.empty : PushState := ⟨none, 0, false, none⟩

/-- All that is kept locally. -/
structure Store where
  slots : IdentitySlots
  groups : GroupTable
  push : PushState

def Store.empty : Store := ⟨.empty, .empty, .empty⟩

end SealedPost
