import SealedPost.Swarm.Mailboxes
import SealedPost.Proofs.Swarm.Retrieval

/-!
# What waits in a mailbox

A mailbox goes by its key without the mark of a session id. A message waits behind those that came
before it, and a fetch takes all of them; what is done under another key leaves them alone. What is
read of the response to a fetch are the messages that waited.
-/

namespace SealedPost.Mailboxes
variable {α : Type}

theorem lookup_filter_ne {key other : String} (entries : List (String × α)) (h : key ≠ other) :
    (entries.filter fun e => e.1 ≠ other).lookup key = entries.lookup key := by
  induction entries with
  | nil => rfl
  | cons e rest ih =>
    obtain ⟨k, v⟩ := e
    by_cases same : k = other
    · have differs : (key == k) = false := by simpa [same] using h
      rw [List.filter_cons_of_neg (by simpa using same), ih, List.lookup_cons, differs]
    · rw [List.filter_cons_of_pos (by simpa using same), List.lookup_cons, List.lookup_cons, ih]

theorem lookup_filter_self (key : String) (entries : List (String × α)) :
    (entries.filter fun e => e.1 ≠ key).lookup key = none := by
  refine List.lookup_eq_none_iff.2 fun e he => ?_
  have := List.of_mem_filter he
  simp only [decide_eq_true_eq] at this
  simpa using Ne.symm this

theorem lookup_put (key other : String) (value : α) (entries : List (String × α)) :
    (put other value entries).lookup key = if key = other then some value else entries.lookup key := by
  unfold put
  by_cases same : key = other
  · rw [if_pos same, same, List.lookup_cons_self]
  · have differs : (key == other) = false := by simpa using same
    rw [if_neg same, List.lookup_cons, differs]
    exact lookup_filter_ne entries same

/-! ## Messages -/

@[simp] theorem waiting_setNodes (m : Mailboxes) (key other : String) (nodes : List Snode) :
    (m.setNodes other nodes).waiting key = m.waiting key := rfl

@[simp] theorem waiting_countLookup (m : Mailboxes) (key : String) :
    m.countLookup.waiting key = m.waiting key := rfl

/-- A message waits behind those that came before it, under every spelling of its key. -/
theorem waiting_push (m : Mailboxes) (key other : String) (data : Bytes) :
    (m.push other data).waiting key =
      if KeyText.strip key = KeyText.strip other then m.waiting key ++ [data] else m.waiting key := by
  unfold waiting push
  simp only [lookup_put]
  by_cases same : KeyText.strip key = KeyText.strip other
  · simp only [same, if_true, Option.getD_some, waiting]
  · simp only [same, if_false]

/-- A fetch takes all that waits under its key, and nothing else. -/
theorem waiting_fetch (m : Mailboxes) (key other : String) :
    (m.fetch other).2.waiting key =
      if KeyText.strip key = KeyText.strip other then [] else m.waiting key := by
  unfold waiting fetch
  by_cases same : KeyText.strip key = KeyText.strip other
  · simp only [same, if_true, lookup_filter_self, Option.getD_none]
  · simp only [same, if_false, lookup_filter_ne _ same]

/-- What is read of a batch, in its order. -/
theorem envelopes_batch (group : String) (messages : List Bytes) :
    Retrieval.envelopes group (batch messages) =
      messages.mapIdx fun i data => .closedGroup group data (i % UInt64.size) := by
  have timed := Retrieval.envelopes_response group
    (messages.mapIdx fun i data => (data, i % UInt64.size)) fun m hm => by
      obtain ⟨i, _, rfl⟩ := List.mem_mapIdx.1 hm
      exact Nat.mod_lt _ (by decide)
  simpa only [batch, List.mapIdx_eq_zipIdx_map, List.map_map, Function.comp_def] using timed

theorem content_envelopes_batch (group : String) (messages : List Bytes) :
    (Retrieval.envelopes group (batch messages)).filterMap Envelope.content = messages := by
  rw [envelopes_batch, List.mapIdx_eq_zipIdx_map, List.filterMap_map]
  have each : Envelope.content ∘
      (fun p : Bytes × Nat => .closedGroup group p.1 (p.2 % UInt64.size)) = some ∘ Prod.fst := rfl
  rw [each, List.filterMap_eq_map, List.zipIdx_map_fst]

end SealedPost.Mailboxes
