import Mathlib.Data.Set.Card
import SealedPost.Proofs.Store.Groups

/-!
# What a history leaves of the groups

Groups are added and removed under texts of any form, and a record may come back under another
spelling of its key. The last change that is about a group decides what is kept of it (`latest?`),
and after any history the table answers as this map does: `mirrors_latest`.

* `GroupTable.find?_apply` is the step, one case for each change.
* `GroupTable.find?_after` is the run.
-/

namespace SealedPost.GroupTable

/-! ## One change -/

/-- A change to the groups. -/
inductive Change
  | add (record : GroupRecord)
  | remove (key : String)
deriving DecidableEq

namespace Change

/-- The group that a change is about: its key without the mark of a session id. -/
def group : Change → String
  | .add record => KeyText.strip record.publicKey
  | .remove key => KeyText.strip key

/-- The record that a change leaves of its group. -/
def left : Change → Option GroupRecord
  | .add record => some record
  | .remove _ => none

/-- The table after a change. -/
def apply (table : GroupTable) : Change → GroupTable
  | .add record => table.add record
  | .remove key => (table.withdraw key).2

end Change

theorem find?_added (table : GroupTable) (record : GroupRecord) (key : String) :
    (table.add record).find? key =
      if KeyText.strip record.publicKey = KeyText.strip key then some record
      else table.find? key := by
  ext found
  by_cases same : KeyText.strip record.publicKey = KeyText.strip key
  · simp only [same, if_true, find?_eq_some_iff, Option.some.injEq]
    constructor
    · rintro ⟨mem, filed⟩
      rcases List.mem_cons.1 mem with rfl | older
      · rfl
      · -- An older record of the group has made way for this one.
        have other : found.fileKey ≠ record.fileKey := by simpa using (List.mem_filter.1 older).2
        exact absurd (filed.trans same.symm) other
    · rintro rfl
      exact ⟨mem_records_add table _, same⟩
  · simp only [same, if_false, find?_eq_some_iff]
    constructor
    · rintro ⟨mem, filed⟩
      rcases List.mem_cons.1 mem with rfl | older
      · exact absurd filed same
      · exact ⟨(List.mem_filter.1 older).1, filed⟩
    · rintro ⟨mem, filed⟩
      refine ⟨mem_records_add_of_ne mem ?_, filed⟩
      intro e
      exact same (e.symm.trans filed)

theorem find?_withdrawn (table : GroupTable) (key other : String) :
    (table.withdraw key).2.find? other =
      if KeyText.strip key = KeyText.strip other then none else table.find? other := by
  ext found
  by_cases same : KeyText.strip key = KeyText.strip other
  · simp only [same, if_true, find?_eq_some_iff, withdraw, remove, List.mem_filter]
    simp
  · simp only [same, if_false, find?_eq_some_iff, withdraw, remove, List.mem_filter]
    constructor
    · rintro ⟨⟨mem, -⟩, filed⟩
      exact ⟨mem, filed⟩
    · rintro ⟨mem, filed⟩
      refine ⟨⟨mem, ?_⟩, filed⟩
      simpa [filed] using Ne.symm same

/-- **A change decides what is found of its own group**, in every spelling, and nothing else. -/
theorem find?_apply (table : GroupTable) (change : Change) (key : String) :
    (change.apply table).find? key =
      if change.group = KeyText.strip key then change.left else table.find? key := by
  cases change with
  | add record => exact find?_added table record key
  | remove removed => exact find?_withdrawn table removed key

/-! ## A history of changes -/

/-- The table after a history of changes that began without any group, the oldest change first. -/
def after (changes : List Change) : GroupTable := changes.foldl Change.apply empty

/-- What a history says of a group: the record that was added last, unless the group has been
removed since. -/
def latest? (changes : List Change) (group : String) : Option GroupRecord :=
  (changes.reverse.find? fun change => change.group = group).bind Change.left

theorem latest?_concat (changes : List Change) (change : Change) (group : String) :
    latest? (changes ++ [change]) group =
      if change.group = group then change.left else latest? changes group := by
  by_cases same : change.group = group <;> simp [latest?, same]

/-- The latest record is the one that was added last, if no later change is about its group. -/
theorem latest?_eq_some_iff {changes : List Change} {group : String} {record : GroupRecord} :
    latest? changes group = some record ↔ KeyText.strip record.publicKey = group ∧
      ∃ earlier later, changes = earlier ++ .add record :: later ∧
        ∀ change ∈ later, change.group ≠ group := by
  simp only [latest?, Option.bind_eq_some_iff, List.find?_eq_some_iff_append]
  constructor
  · rintro ⟨change, ⟨about, later, earlier, cut, others⟩, left⟩
    cases change with
    | remove key => cases left
    | add added =>
      obtain rfl : added = record := Option.some.inj left
      refine ⟨of_decide_eq_true about, earlier.reverse, later.reverse, ?_, ?_⟩
      · rw [← List.reverse_reverse changes, cut]
        simp
      · intro change mem
        simpa using others change (List.mem_reverse.1 mem)
  · rintro ⟨about, earlier, later, rfl, others⟩
    refine ⟨.add record, ⟨decide_eq_true about, later.reverse, earlier.reverse, by simp, ?_⟩, rfl⟩
    intro change mem
    simpa using others change (List.mem_reverse.1 mem)

/-- **What is found is the latest of its group.** -/
theorem find?_after (changes : List Change) (key : String) :
    (after changes).find? key = latest? changes (KeyText.strip key) := by
  induction changes using List.reverseRecOn with
  | nil => rfl
  | append_singleton changes change ih =>
    rw [after, List.foldl_concat, ← after, find?_apply, latest?_concat, ih]

/-- The records that are left are the latest of their groups. -/
theorem mem_records_after {changes : List Change} {record : GroupRecord} :
    record ∈ (after changes).records ↔ ∃ group, latest? changes group = some record := by
  constructor
  · intro mem
    have found : (after changes).find? record.publicKey = some record :=
      find?_eq_some_iff.2 ⟨mem, rfl⟩
    rw [find?_after] at found
    exact ⟨_, found⟩
  · rintro ⟨group, latest⟩
    obtain ⟨rfl, -⟩ := latest?_eq_some_iff.1 latest
    rw [← find?_after] at latest
    exact (find?_eq_some_iff.1 latest).1

/-! ## The table as a map -/

/-- A table that answers as a map from groups to their records. -/
structure Mirrors (table : GroupTable) (map : String → Option GroupRecord) : Prop where
  /-- A record is filed under its own key without the mark, and under no other. -/
  filed : ∀ record ∈ table.records, ∀ key,
    table.find? key = some record ↔ KeyText.strip key = KeyText.strip record.publicKey
  known : ∀ key, table.isKnown key = (map (KeyText.strip key)).isSome
  secret : ∀ key, table.privateKey? key = (map (KeyText.strip key)).bind GroupRecord.privateKey
  withdrawn : ∀ key, (table.withdraw key).1 = map (KeyText.strip key)
  counted : {group | (map group).isSome}.encard = table.count
  listedOnce : table.publicKeys.length = table.count
  sorted : table.publicKeys.Pairwise fun a b => Text.utf8 a ≤ Text.utf8 b
  distinct : (table.publicKeys.map KeyText.strip).Nodup
  /-- The listing shows each group as its record spells it. -/
  spelled : ∀ key, key ∈ table.publicKeys ↔
    ∃ group record, map group = some record ∧ record.publicKey = key
  listed : ∀ key ∈ table.publicKeys, table.isKnown key = true

/-- The groups that a history leaves are as many as the records. -/
theorem encard_latest? (changes : List Change) :
    {group | (latest? changes group).isSome}.encard = (after changes).count := by
  have groups : {group | (latest? changes group).isSome} =
      ((after changes).records.map GroupRecord.fileKey).toFinset := by
    ext group
    simp only [Set.mem_ofPred_eq, Option.isSome_iff_exists, Finset.mem_coe, List.mem_toFinset,
      List.mem_map, mem_records_after]
    constructor
    · rintro ⟨record, latest⟩
      exact ⟨record, ⟨group, latest⟩, (latest?_eq_some_iff.1 latest).1⟩
    · rintro ⟨record, ⟨other, latest⟩, rfl⟩
      obtain ⟨rfl, -⟩ := latest?_eq_some_iff.1 latest
      exact ⟨record, latest⟩
  rw [groups, Set.encard_coe_eq_coe_finsetCard, List.toFinset_card_of_nodup (after changes).nodup,
    List.length_map]
  rfl

/-- **After any history, the groups are a map of keys without the mark.** Whatever texts the changes
were made with, the table answers under each spelling with the record that was added last, unless
the group has been removed since; it counts and lists each group once, as this record spells it. -/
theorem mirrors_latest (changes : List Change) : (after changes).Mirrors (latest? changes) where
  filed record mem key := by
    rw [find?_eq_some_iff]
    constructor
    · rintro ⟨-, filed⟩
      exact filed.symm
    · intro filed
      exact ⟨mem, filed.symm⟩
  known key := by rw [isKnown, find?_after]
  secret key := by rw [privateKey?, find?_after]
  withdrawn key := by rw [withdraw, find?_after]
  counted := encard_latest? changes
  listedOnce := length_publicKeys _
  sorted := sorted_publicKeys _
  distinct := nodup_strip_publicKeys _
  spelled key := by
    simp only [mem_publicKeys, mem_records_after]
    constructor
    · rintro ⟨record, ⟨group, latest⟩, spelled⟩
      exact ⟨group, record, latest, spelled⟩
    · rintro ⟨group, record, latest, spelled⟩
      exact ⟨record, ⟨group, latest⟩, spelled⟩
  listed key shown := by
    obtain ⟨record, mem, rfl⟩ := (mem_publicKeys _).1 shown
    rw [isKnown, find?_eq_some_iff.2 ⟨mem, rfl⟩]
    rfl

/-- A group of 32 characters with two bytes each comes back behind the mark, and stays one group. -/
example :
    let key := String.ofList (List.replicate 32 'é')
    let table := after [.add ⟨key, none, [], []⟩, .add ⟨"05" ++ key, some "secret", [], []⟩]
    table.count = 1 ∧ table.privateKey? key = some "secret" ∧ (table.withdraw key).2.count = 0 := by
  decide +kernel

end SealedPost.GroupTable
