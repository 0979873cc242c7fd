import SealedPost.Store

/-!
# Finding a group

A group is found under any text that is stripped to the key its record is filed under, and there is
never a second record to find. Of the record, opening an envelope asks only what is kept of the
group's secret key (`GroupTable.secret?`).
-/

namespace SealedPost.GroupTable

/-- **A look-up finds the one record filed under the key**, in whichever spelling it asks. -/
theorem find?_eq_some_iff {table : GroupTable} {key : String} {record : GroupRecord} :
    table.find? key = some record ↔
      record ∈ table.records ∧ record.fileKey = KeyText.strip key := by
  obtain ⟨records, nodup⟩ := table
  simp only [find?]
  constructor
  · intro h
    exact ⟨List.mem_of_find?_eq_some h, by simpa using List.find?_some h⟩
  · rintro ⟨mem, filed⟩
    induction records with
    | nil => cases mem
    | cons first rest ih =>
      obtain ⟨fresh, nodup⟩ := List.nodup_cons.1 nodup
      rcases List.mem_cons.1 mem with rfl | mem
      · rw [List.find?_cons_of_pos]
        simpa using filed
      · have other : first.fileKey ≠ KeyText.strip key := by
          intro same
          apply fresh
          rw [same, ← filed]
          exact List.mem_map_of_mem mem
        rw [List.find?_cons_of_neg]
        · exact ih nodup mem
        · simpa using other

theorem find?_congr {table : GroupTable} {key key' : String}
    (spelling : KeyText.strip key = KeyText.strip key') : table.find? key = table.find? key' := by
  simp only [find?, spelling]

/-! ## What is kept of a secret key -/

/-- What is kept of a group's secret key: none if the group is not known, and else the key, once it
has arrived. -/
def secret? (table : GroupTable) (key : String) : Option (Option String) :=
  (table.find? key).map GroupRecord.privateKey

/-- The same is kept of a secret key where the tables agree on whether the group is known and on
the text. -/
theorem secret?_eq_iff {table table' : GroupTable} {key key' : String} :
    table.secret? key = table'.secret? key' ↔
      table.isKnown key = table'.isKnown key' ∧
        table.privateKey? key = table'.privateKey? key' := by
  simp only [secret?, isKnown, privateKey?]
  cases table.find? key <;> cases table'.find? key' <;> simp

/-! ## Additions -/

theorem mem_records_add (table : GroupTable) (record : GroupRecord) :
    record ∈ (table.add record).records := List.mem_cons_self

/-- A record outlasts additions to other groups. -/
theorem mem_records_add_of_ne {table : GroupTable} {record added : GroupRecord}
    (mem : record ∈ table.records) (other : record.fileKey ≠ added.fileKey) :
    record ∈ (table.add added).records :=
  List.mem_cons_of_mem _ (List.mem_filter.2 ⟨mem, by simpa using other⟩)

/-! ## The listing -/

section
variable (table : GroupTable)

theorem mem_publicKeys {key : String} :
    key ∈ table.publicKeys ↔ ∃ record ∈ table.records, record.publicKey = key := by
  simp [publicKeys]

theorem length_publicKeys : table.publicKeys.length = table.count := by
  simp [publicKeys, count]

/-- The listing is in the order of the bytes. -/
theorem sorted_publicKeys :
    table.publicKeys.Pairwise fun a b => Text.utf8 a ≤ Text.utf8 b := by
  apply List.Pairwise.imp Text.bytesLe_iff.1
  apply List.pairwise_mergeSort
  · intro a b c hab hbc
    rw [Text.bytesLe_iff] at hab hbc ⊢
    exact List.le_trans hab hbc
  · intro a b
    rw [Bool.or_eq_true, Text.bytesLe_iff, Text.bytesLe_iff]
    exact List.le_total _ _

/-- No group is listed twice, however its key is spelled. -/
theorem nodup_strip_publicKeys : (table.publicKeys.map KeyText.strip).Nodup := by
  have perm : (table.publicKeys.map KeyText.strip).Perm (table.records.map GroupRecord.fileKey) := by
    have h := (List.mergeSort_perm (table.records.map GroupRecord.publicKey) Text.bytesLe).map
      KeyText.strip
    rw [List.map_map] at h
    exact h
  rw [perm.nodup_iff]
  exact table.nodup

end

end SealedPost.GroupTable
