import SealedPost.Proofs.Identity.KeyText
import SealedPost.Proofs.Swarm.Entries
import SealedPost.Proofs.Swarm.Mailboxes

/-!
# What is pushed is read

Messages wait in the order in which they were pushed, whichever spelling of their key was used, and a
fetch under any spelling brings all of them in one response. Reading that response gives the very
bytes back. A response is read entry by entry: where all its entries can be read, the envelopes of
two lists put together are those of the one and then those of the other (`envelopes_append`).
`batches_read_back` says both.
-/

namespace SealedPost

/-! ## Responses in pieces -/

namespace Retrieval

/-- **Two lists put together give their envelopes one after the other.** -/
theorem envelopes_append (group : String) {front back whole : Json} {first second : List Json}
    (lists_front : Lists front first) (lists_back : Lists back second)
    (lists_whole : Lists whole (first ++ second)) (readable : ∀ v ∈ first ++ second, Readable v) :
    envelopes group whole = envelopes group front ++ envelopes group back := by
  obtain ⟨readable_first, readable_second⟩ := List.forall_mem_append.1 readable
  rw [envelopes_of_lists group lists_whole readable, List.filterMap_append,
    ← envelopes_of_lists group lists_front readable_first,
    ← envelopes_of_lists group lists_back readable_second]

end Retrieval

/-! ## Batches -/

namespace Mailboxes
open KeyText (Respelled)

/-- Pushes messages one after the other, each under a key of its own. -/
def pushAll (m : Mailboxes) (pushes : List (String × Bytes)) : Mailboxes :=
  pushes.foldl (fun m p => m.push p.1 p.2) m

/-- The messages of these that are pushed under a spelling of a key. -/
def pushedUnder (key : String) (pushes : List (String × Bytes)) : List Bytes :=
  (pushes.filter fun p => KeyText.strip p.1 = KeyText.strip key).map Prod.snd

/-- Messages wait behind those that waited already, in the order in which they were pushed. -/
theorem waiting_pushAll (m : Mailboxes) (pushes : List (String × Bytes)) (key : String) :
    (m.pushAll pushes).waiting key = m.waiting key ++ pushedUnder key pushes := by
  induction pushes generalizing m with
  | nil => simp [pushAll, pushedUnder]
  | cons p rest ih =>
    have later := ih (m.push p.1 p.2)
    rw [waiting_push] at later
    by_cases same : KeyText.strip p.1 = KeyText.strip key
    · simpa [pushAll, pushedUnder, same] using later
    · simpa [pushAll, pushedUnder, same, Ne.symm same] using later

/-- Where every spelling is one of the same key, all messages count. -/
theorem pushedUnder_of_respelled {key q : String} {pushes : List (String × Bytes)}
    (asked : Respelled key q) (spelled : ∀ p ∈ pushes, Respelled key p.1) :
    pushedUnder q pushes = pushes.map Prod.snd := by
  have all : ∀ p ∈ pushes, decide (KeyText.strip p.1 = KeyText.strip q) = true := by
    intro p hp
    rw [← KeyText.respelled_iff.1 asked, ← KeyText.respelled_iff.1 (spelled p hp)]
    simp
  rw [pushedUnder, List.filter_eq_self.2 all]

theorem timestamp_envelopes_batch {messages : List Bytes} (few : messages.length ≤ UInt64.size)
    (group : String) :
    (Retrieval.envelopes group (batch messages)).map Envelope.timestamp =
      List.range messages.length := by
  rw [envelopes_batch]
  apply List.ext_getElem
  · simp
  · intro i hi _
    simp only [List.length_map, List.length_mapIdx] at hi
    simp [Envelope.closedGroup, Nat.mod_eq_of_lt (Nat.lt_of_lt_of_le hi few)]

/-- A fetch under `q` brings these messages, and takes them out. -/
structure Brings (m : Mailboxes) (q : String) (messages : List Bytes) : Prop where
  /-- Each with its place as its time, in a word of 64 bits. -/
  envelopes : Retrieval.envelopes q (m.fetch q).1 =
    messages.mapIdx fun i data => .closedGroup q data (i % UInt64.size)
  timestamps : messages.length ≤ UInt64.size →
    (Retrieval.envelopes q (m.fetch q).1).map Envelope.timestamp = List.range messages.length
  nothingLeft : ∀ q', Respelled q q' → Retrieval.envelopes q' ((m.fetch q).2.fetch q').1 = []

theorem brings_waiting (m : Mailboxes) (q : String) : Brings m q (m.waiting q) where
  envelopes := envelopes_batch q (m.waiting q)
  timestamps few := timestamp_envelopes_batch few q
  nothingLeft q' respelled := by
    have emptied : (m.fetch q).2.waiting q' = [] := by
      rw [waiting_fetch, if_pos (KeyText.respelled_iff.1 respelled).symm]
    show Retrieval.envelopes q' (batch ((m.fetch q).2.waiting q')) = []
    rw [emptied, envelopes_batch]
    rfl

theorem brings_pushAll (m : Mailboxes) (pushes : List (String × Bytes)) (q : String) :
    Brings (m.pushAll pushes) q (m.waiting q ++ pushedUnder q pushes) := by
  rw [← waiting_pushAll]
  exact brings_waiting _ q

/-- **What is pushed is what is read.** A fetch brings the messages that were pushed under any
spelling of its key, behind those that waited before, whatever else was pushed in between: their very
bytes, in order and for the group as the fetch spells it, timed by their places. Another fetch at
once brings nothing. Where only spellings of one key were used, these are all messages that were
pushed. And reading goes entry by entry: where all entries of two responses can be read, a response
with the entries of both gives the envelopes of both. -/
theorem batches_read_back :
    (∀ (m : Mailboxes) (pushes : List (String × Bytes)) (q : String),
      Brings (m.pushAll pushes) q (m.waiting q ++ pushedUnder q pushes)) ∧
    (∀ (m : Mailboxes) (key q : String) (pushes : List (String × Bytes)), Respelled key q →
      (∀ p ∈ pushes, Respelled key p.1) →
      Brings (m.pushAll pushes) q (m.waiting q ++ pushes.map Prod.snd)) ∧
    ∀ (group : String) (front back whole : Json) (first second : List Json),
      Retrieval.Lists front first → Retrieval.Lists back second →
      Retrieval.Lists whole (first ++ second) → (∀ v ∈ first ++ second, Retrieval.Readable v) →
      Retrieval.envelopes group whole =
        Retrieval.envelopes group front ++ Retrieval.envelopes group back := by
  refine ⟨brings_pushAll, ?spelled, ?pieces⟩
  case spelled =>
    intro m key q pushes asked spelled
    rw [← pushedUnder_of_respelled asked spelled]
    exact brings_pushAll m pushes q
  case pieces =>
    intro group front back whole first second lists_front lists_back lists_whole readable
    exact Retrieval.envelopes_append group lists_front lists_back lists_whole readable

/-! ## Three messages under two spellings -/

/-- The bare digits of a key. -/
def bareKey : String := Text.Hex.encode (Octets.zero 32).bytes

/-- The same key as a session id. -/
def markedKey : String := KeyText.sessionId (Octets.zero 32)

def threePushes : List (String × Bytes) := [(bareKey, [1, 2]), (markedKey, []), (bareKey, [255])]

theorem respelled_markedKey : Respelled bareKey markedKey :=
  KeyText.respelled_iff.2 (by simp [bareKey, markedKey])

/-- The entry that is not base64 is read as well, and gives nothing in either response. -/
theorem batches_read_back_three :
    (Retrieval.envelopes markedKey ((empty.pushAll threePushes).fetch markedKey).1 =
        [.closedGroup markedKey [1, 2] 0, .closedGroup markedKey [] 1,
          .closedGroup markedKey [255] 2] ∧
      Retrieval.envelopes bareKey
        (((empty.pushAll threePushes).fetch markedKey).2.fetch bareKey).1 = []) ∧
    Retrieval.envelopes "group" (Retrieval.response [⟨"Zmlyc3Q=", 10⟩, ⟨"%%%", 11⟩]) =
      Retrieval.envelopes "group" (Retrieval.response [⟨"Zmlyc3Q=", 10⟩]) ++
        Retrieval.envelopes "group" (Retrieval.response [⟨"%%%", 11⟩]) := by
  obtain ⟨-, spelled, pieces⟩ := batches_read_back
  constructor
  · have fetched := spelled empty bareKey markedKey threePushes respelled_markedKey (by
      simp only [threePushes, List.forall_mem_cons]
      exact ⟨.same _, respelled_markedKey, .same _, by simp⟩)
    exact ⟨fetched.envelopes, fetched.nothingLeft _ (.bare _ (by decide))⟩
  · have readable : ∀ e ∈ [(⟨"Zmlyc3Q=", 10⟩ : Retrieval.Entry), ⟨"%%%", 11⟩],
        Retrieval.Readable e.toJson := by
      intro e he
      have small : e.timestamp < UInt64.size := by
        rcases List.mem_pair.1 he with rfl | rfl <;> decide
      exact ⟨e, Retrieval.Entry.ofJson?_eq_some_iff.1 (Retrieval.Entry.ofJson?_toJson small)⟩
    exact pieces "group" _ _ _ _ _ (.object rfl) (.object rfl) (.object rfl)
      (List.forall_mem_map.2 readable)

end Mailboxes

end SealedPost
