import Mathlib.Algebra.Ring.Int.Defs
import SealedPost.Json.Record

/-!
# What a record gives

A record is an object or an array of its fields, and a field that may be null need not be there.
`pair_iff` and `says_iff` tell from the value alone what is read of a record of two such fields.
-/

namespace SealedPost.Json

/-! ## Single values -/

theorem text?_eq_some_iff {v : Json} {s : String} : v.text? = some s ↔ v = .str s := by
  cases v <;> simp [text?]

theorem member?_eq_some_iff {v w : Json} {name : String} :
    v.member? name = some w ↔ ∃ members, v = .obj members ∧ members.lookup name = some w := by
  cases v <;> simp [member?]

/-- A value is read as a signed integer of 64 bits exactly if it is one. -/
theorem int64?_eq_some_iff {v : Json} {n : Int} :
    v.int64? = some n ↔ v = .int n ∧ -2 ^ 63 ≤ n ∧ n < 2 ^ 63 := by
  have lowest : Int64.minValue.toInt = -2 ^ 63 := by decide
  have highest : Int64.maxValue.toInt + 1 = 2 ^ 63 := by decide
  cases v with
  | int i =>
    simp only [int64?, intIn?, lowest, highest, int.injEq]
    split
    · rename_i within
      rw [Option.some.injEq]
      constructor
      · rintro rfl
        exact ⟨rfl, within⟩
      · exact And.left
    · rename_i beyond
      simp only [reduceCtorEq, false_iff]
      rintro ⟨rfl, within⟩
      exact beyond within
  | _ => simp [int64?, intIn?]

/-! ## Records of two fields -/

/-- What a record with the fields called `first` and `second` gives for each of them: the members
of an object that are called so, or the items of an array that has no more than two. -/
inductive Pair (first second : String) : Json → Option Json → Option Json → Prop
  | object (members : List (String × Json)) :
      Pair first second (.obj members) (members.lookup first) (members.lookup second)
  | array (items : List Json) (short : items.length ≤ 2) :
      Pair first second (.arr items) items[0]? items[1]?

section
variable {first second : String}

/-- In an array the fields stand in their order. -/
theorem lookup_zip (distinct : second ≠ first) (items : List Json) :
    ([first, second].zip items).lookup first = items[0]? ∧
      ([first, second].zip items).lookup second = items[1]? := by
  have other : (second == first) = false := beq_false_of_ne distinct
  match items with
  | [] => exact ⟨rfl, rfl⟩
  | [a] => simp [List.lookup_cons, other]
  | a :: b :: rest => simp [List.lookup_cons, other]

theorem pair_iff (distinct : second ≠ first) {v : Json} {a b : Option Json} :
    Pair first second v a b ↔
      ∃ f, v.fields? true [first, second] = some f ∧ f.get? first = a ∧ f.get? second = b := by
  constructor
  · rintro (⟨members⟩ | ⟨items, short⟩)
    · exact ⟨_, rfl, rfl, rfl⟩
    · obtain ⟨hfirst, hsecond⟩ := lookup_zip distinct items
      refine ⟨⟨true, fun name => ([first, second].zip items).lookup name⟩, ?_, hfirst, hsecond⟩
      simp [fields?]
      omega
  · rintro ⟨f, hf, rfl, rfl⟩
    cases v with
    | obj members =>
      obtain rfl := Option.some.inj hf
      exact .object members
    | arr items =>
      simp only [fields?, Bool.true_and, decide_eq_true_eq] at hf
      split at hf
      · cases hf
      · rename_i short
        obtain rfl := Option.some.inj hf
        obtain ⟨hfirst, hsecond⟩ := lookup_zip distinct items
        show Pair first second (.arr items) (([first, second].zip items).lookup first)
          (([first, second].zip items).lookup second)
        rw [hfirst, hsecond]
        exact .array items (Nat.not_lt.1 short)
    | _ => cases hf

end

/-! ## Fields that may be null -/

/-- What an optional field says, where `Is` tells which values stand for what: nothing if it is
missing or null, and else what its value stands for. -/
inductive Says {α : Type} (Is : Json → α → Prop) : Option Json → Option α → Prop
  | missing : Says Is none none
  | null : Says Is (some .null) none
  | value {v : Json} {a : α} : Is v a → Says Is (some v) (some a)

theorem says_iff {α : Type} {read : Json → Option α} {Is : Json → α → Prop}
    (reads : ∀ v a, read v = some a ↔ Is v a) (null : read .null = none) (f : Fields)
    (name : String) {a : Option α} :
    f.withDefault name none (Fields.orNull read) = some a ↔ Says Is (f.get? name) a := by
  unfold Fields.withDefault
  cases f.get? name with
  | none =>
    constructor
    · intro h
      obtain rfl := Option.some.inj h
      exact .missing
    · rintro ⟨⟩
      rfl
  | some v =>
    by_cases isNull : v = .null
    · subst isNull
      constructor
      · intro h
        obtain rfl := Option.some.inj h
        exact .null
      · rintro (_ | _ | is)
        · rfl
        · rw [← reads, null] at is
          cases is
    · have plain : Fields.orNull read v = (read v).map some := by
        cases v with
        | null => exact absurd rfl isNull
        | _ => rfl
      simp only [plain, Option.map_eq_some_iff, reads]
      constructor
      · rintro ⟨a, is, rfl⟩
        exact .value is
      · rintro (_ | _ | is)
        · exact absurd rfl isNull
        · exact ⟨_, is, rfl⟩

/-- Taking a field where it is of the right type misses nothing that an optional field says. -/
theorem Says.bind_eq {α : Type} {read : Json → Option α} {Is : Json → α → Prop}
    (reads : ∀ v a, read v = some a ↔ Is v a) (null : read .null = none) {field : Option Json}
    {a : Option α} (h : Says Is field a) : field.bind read = a := by
  cases h with
  | missing => rfl
  | null => exact null
  | value is => exact (reads _ _).2 is

end SealedPost.Json
