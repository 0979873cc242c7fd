import Mathlib.Data.List.Perm.Basic
import SealedPost.Proofs.Identity.KeyText
import SealedPost.Proofs.Store.Groups

/-!
# Groups in two spellings

Two tables that differ in how their records spell the keys. Asked under any spelling, both find the
same groups and keep them so (`GroupTable.Respelled`); a record that was added answers to every
spelling of its key, and the listing shows it once.
-/

namespace SealedPost

/-! ## Tables in two spellings -/

/-- Two records of one group that differ in nothing but the spelling of its key. -/
structure GroupRecord.Respelled (r r' : GroupRecord) : Prop where
  publicKey : KeyText.Respelled r.publicKey r'.publicKey
  privateKey : r.privateKey = r'.privateKey
  members : r.members = r'.members
  admins : r.admins = r'.admins

theorem GroupRecord.Respelled.refl (r : GroupRecord) : r.Respelled r := ⟨.same _, rfl, rfl, rfl⟩

theorem GroupRecord.Respelled.fileKey_eq {r r' : GroupRecord} (h : r.Respelled r') :
    r.fileKey = r'.fileKey := KeyText.respelled_iff.1 h.publicKey

namespace GroupTable

/-- Two tables of the same groups, record for record. -/
def Respelled (table table' : GroupTable) : Prop :=
  List.Forall₂ GroupRecord.Respelled table.records table'.records

variable {table table' : GroupTable}

theorem Respelled.refl (table : GroupTable) : table.Respelled table :=
  List.forall₂_same.2 fun r _ => GroupRecord.Respelled.refl r

/-- Leaving one file key out of both lists leaves them the same groups. -/
theorem forall₂_filter {key key' : String} (same : key = key') {rs rs' : List GroupRecord}
    (h : List.Forall₂ GroupRecord.Respelled rs rs') :
    List.Forall₂ GroupRecord.Respelled (rs.filter fun r => r.fileKey ≠ key)
      (rs'.filter fun r => r.fileKey ≠ key') := by
  refine List.rel_filter ?_ h
  intro r r' hr
  simp [hr.fileKey_eq, same]

theorem Respelled.add {r r' : GroupRecord} (h : table.Respelled table') (hr : r.Respelled r') :
    (table.add r).Respelled (table'.add r') :=
  .cons hr (forall₂_filter hr.fileKey_eq h)

theorem Respelled.remove {key key' : String} (h : table.Respelled table')
    (hkey : KeyText.Respelled key key') : (table.remove key).Respelled (table'.remove key') :=
  forall₂_filter (KeyText.respelled_iff.1 hkey) h

/-- What one table finds the other finds, as that one spells it. -/
theorem Respelled.find? {key key' : String} (h : table.Respelled table')
    (hkey : KeyText.Respelled key key') :
    Option.Rel GroupRecord.Respelled (table.find? key) (table'.find? key') := by
  simp only [GroupTable.find?, KeyText.respelled_iff.1 hkey]
  simp only [GroupTable.Respelled] at h
  generalize table.records = records, table'.records = records' at h ⊢
  induction h with
  | nil => exact .none
  | @cons r r' rs rs' first rest ih =>
    by_cases hr : r.fileKey = KeyText.strip key'
    · have hr' : r'.fileKey = KeyText.strip key' := by rwa [← first.fileKey_eq]
      simpa [hr, hr'] using first
    · have hr' : r'.fileKey ≠ KeyText.strip key' := by rwa [← first.fileKey_eq]
      simpa [hr, hr'] using ih

/-- The same is kept of a group's secret key in both. -/
theorem Respelled.secret? {key key' : String} (h : table.Respelled table')
    (hkey : KeyText.Respelled key key') : table.secret? key = table'.secret? key' := by
  have found := h.find? hkey
  simp only [GroupTable.secret?]
  generalize table.find? key = r, table'.find? key' = r' at found ⊢
  cases found with
  | none => rfl
  | some record => rw [Option.map_some, Option.map_some, record.privateKey]

theorem Respelled.count (h : table.Respelled table') : table.count = table'.count :=
  List.Forall₂.length_eq h

/-- Both list the same keys, each in its spelling and its order. -/
theorem Respelled.publicKeys (h : table.Respelled table') : ∃ keys,
    List.Forall₂ KeyText.Respelled table.publicKeys keys ∧ keys.Perm table'.publicKeys := by
  have spelled : List.Forall₂ KeyText.Respelled (table.records.map GroupRecord.publicKey)
      (table'.records.map GroupRecord.publicKey) := by
    rw [List.forall₂_map_left_iff, List.forall₂_map_right_iff]
    exact List.Forall₂.imp (fun _ _ hr => hr.publicKey) h
  obtain ⟨keys, respelled, perm⟩ := List.perm_comp_forall₂ (List.mergeSort_perm _ _) spelled
  exact ⟨keys, respelled, perm.trans (List.mergeSort_perm _ _).symm⟩

/-! ## A record under the other spelling -/

variable (table) {record : GroupRecord} {key : String}

theorem find?_add (h : KeyText.Respelled record.publicKey key) :
    (table.add record).find? key = some record :=
  find?_eq_some_iff.2 ⟨mem_records_add table record, KeyText.respelled_iff.1 h⟩

/-- A record takes the place of an older one of its group. -/
theorem add_add {newer : GroupRecord}
    (h : KeyText.Respelled record.publicKey newer.publicKey) :
    (table.add record).add newer = table.add newer := by
  have same : record.fileKey = newer.fileKey := KeyText.respelled_iff.1 h
  simp [GroupTable.add, same, List.filter_filter]

theorem find?_remove (h : KeyText.Respelled record.publicKey key) :
    (table.remove key).find? record.publicKey = none := by
  have same : KeyText.strip record.publicKey = KeyText.strip key := KeyText.respelled_iff.1 h
  simp only [GroupTable.find?, GroupTable.remove, List.find?_eq_none]
  intro r hr
  simpa [same] using (List.mem_filter.1 hr).2

/-- A group is listed once, as its record spells it. -/
theorem filter_publicKeys_add (h : KeyText.Respelled record.publicKey key) :
    ((table.add record).publicKeys.filter fun k => KeyText.strip k = KeyText.strip key) =
      [record.publicKey] := by
  have same : KeyText.strip record.publicKey = KeyText.strip key := KeyText.respelled_iff.1 h
  have others : ((table.records.filter fun r => r.fileKey ≠ record.fileKey).map
      GroupRecord.publicKey).filter (fun k => KeyText.strip k = KeyText.strip key) = [] := by
    rw [List.filter_eq_nil_iff]
    intro k hk
    obtain ⟨r, hr, rfl⟩ := List.mem_map.1 hk
    have other : r.fileKey ≠ record.fileKey := by simpa using (List.mem_filter.1 hr).2
    rw [GroupRecord.fileKey, GroupRecord.fileKey, same] at other
    simpa using other
  apply List.perm_singleton.1
  have perm := (List.mergeSort_perm ((table.add record).records.map GroupRecord.publicKey)
    Text.bytesLe).filter fun k => KeyText.strip k = KeyText.strip key
  rw [GroupTable.publicKeys]
  refine perm.trans ?_
  simp only [GroupTable.add, List.map_cons]
  rw [List.filter_cons_of_pos (by simpa using same), others]

end GroupTable

end SealedPost
