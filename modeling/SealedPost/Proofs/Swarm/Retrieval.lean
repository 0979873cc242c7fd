import Mathlib.Data.List.Basic
import SealedPost.Swarm.Retrieval
import SealedPost.Proofs.Text.Base64

/-!
# What a node gives is what is read

A response that lists entries is read as these entries, and its envelopes carry the bytes that the
entries were made from. Every envelope that is read at all is one of the group that was asked for.
-/

namespace SealedPost.Retrieval

theorem natBelow?_int {bound n : Nat} (h : n < bound) : Json.natBelow? bound (.int n) = some n := by
  have within : (0 : Int) ≤ n ∧ (n : Int) < bound := ⟨Int.natCast_nonneg n, Int.ofNat_lt.2 h⟩
  rw [Json.natBelow?, if_pos within, Int.toNat_natCast]

theorem Entry.ofJson?_toJson {e : Entry} (small : e.timestamp < UInt64.size) :
    Entry.ofJson? e.toJson = some e := by
  -- for any bound: the kernel should not look into the one that the words of 64 bits have
  have read : ∀ bound, e.timestamp < bound →
      ((e.toJson.fields? true ["data", "timestamp"]).bind fun f =>
        (f.required "data" Json.text?).bind fun data =>
        (f.withDefault "timestamp" 0 (Json.natBelow? bound)).bind fun timestamp =>
        some (⟨data, timestamp⟩ : Entry)) = some e := by
    intro bound small
    have timed := natBelow?_int small
    simp [Entry.toJson, Json.fields?, Json.Fields.required, Json.Fields.withDefault, Json.text?,
      List.lookup_cons, timed]
  exact read UInt64.size small

/-- A response is read as the entries that it was made from. -/
theorem entries?_response {entries : List Entry}
    (small : ∀ e ∈ entries, e.timestamp < UInt64.size) :
    entries? (response entries) = some entries := by
  have each : (entries.map Entry.toJson).mapM Entry.ofJson? = some entries := by
    induction entries with
    | nil => rfl
    | cons e rest ih =>
      have first := Entry.ofJson?_toJson (small e List.mem_cons_self)
      have others := ih fun e he => small e (List.mem_cons_of_mem _ he)
      simp [List.mapM_cons, first, others]
  simp [entries?, response, Json.fields?, Json.Fields.withDefault, Json.listOf?, Json.items?, each]

theorem envelope?_encode (group : String) (content : Bytes) (timestamp : Nat) :
    Entry.envelope? group ⟨Text.Base64.encode content, timestamp⟩ =
      some (.closedGroup group content timestamp) := by
  simp [Entry.envelope?]

/-- What is read of a response are envelopes of the group that was asked for. -/
theorem of_mem_envelopes {group : String} {response : Json} {e : Envelope}
    (h : e ∈ envelopes group response) :
    ∃ content timestamp, e = .closedGroup group content timestamp := by
  obtain ⟨entry, -, read⟩ := List.mem_filterMap.1 h
  obtain ⟨content, -, rfl⟩ := Option.map_eq_some_iff.1 read
  exact ⟨content, entry.timestamp, rfl⟩

/-- The bytes that are made into entries come back, in their order. -/
theorem envelopes_response (group : String) (messages : List (Bytes × Nat))
    (small : ∀ m ∈ messages, m.2 < UInt64.size) :
    envelopes group (response (messages.map fun m => ⟨Text.Base64.encode m.1, m.2⟩)) =
      messages.map fun m => .closedGroup group m.1 m.2 := by
  have small' : ∀ e ∈ messages.map fun m => (⟨Text.Base64.encode m.1, m.2⟩ : Entry),
      e.timestamp < UInt64.size := by
    intro e he
    obtain ⟨m, hm, rfl⟩ := List.mem_map.1 he
    exact small m hm
  rw [envelopes, entries?_response small', Option.getD_some, List.filterMap_map,
    ← List.filterMap_eq_map]
  exact List.filterMap_congr fun m _ => envelope?_encode group m.1 m.2

end SealedPost.Retrieval
