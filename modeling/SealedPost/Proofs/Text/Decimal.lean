import SealedPost.Text.Decimal

/-!
# Which texts are decimal numbers

A text spells a number if it consists of its decimal digits, at least one, with or without one `+`
in front of them. The reader stops as soon as a number on the way reaches the bound; digits only
ever make a number larger, so it stops exactly where the whole number is too large
(`Decimal.read_eq_ok_iff`).
-/

namespace SealedPost.Text.Decimal

/-- A text spells a number. Zeros in front are digits like all others. -/
def Spells (s : String) (n : Nat) : Prop :=
  ∃ digits, (s.toList = digits ∨ s.toList = '+' :: digits) ∧ digits ≠ [] ∧
    (∀ c ∈ digits, c.isDigit = true) ∧ Nat.ofDigitChars 10 digits 0 = n

theorem value?_eq_some_iff {c : Char} {d : Nat} :
    value? c = some d ↔ c.isDigit = true ∧ c.toNat - '0'.toNat = d := by
  have digit : c.isDigit = true ↔ '0' ≤ c ∧ c ≤ '9' := by
    rw [Char.isDigit, Bool.and_eq_true, decide_eq_true_eq, decide_eq_true_eq]
    rfl
  rw [digit, value?]
  by_cases h : '0' ≤ c ∧ c ≤ '9'
  · rw [if_pos h, Option.some.injEq]
    exact ⟨fun e => ⟨h, e⟩, fun e => e.2⟩
  · rw [if_neg h]
    exact ⟨fun e => absurd e (by simp), fun e => absurd e.1 h⟩

theorem le_ofDigitChars (cs : List Char) (k : Nat) : k ≤ Nat.ofDigitChars 10 cs k := by
  induction cs generalizing k with
  | nil => exact Nat.le_of_eq Nat.ofDigitChars_nil.symm
  | cons c cs ih =>
    rw [Nat.ofDigitChars_cons]
    have := ih (10 * k + (c.toNat - '0'.toNat))
    omega

/-- Digits are read exactly if they are digits and their number stays below the bound. -/
theorem readDigits_eq_ok_iff {bound k n : Nat} {cs : List Char} (small : k < bound) :
    readDigits bound k cs = .ok n ↔
      (∀ c ∈ cs, c.isDigit = true) ∧ Nat.ofDigitChars 10 cs k = n ∧ n < bound := by
  induction cs generalizing k with
  | nil =>
    simp only [readDigits, Nat.ofDigitChars_nil, Except.ok.injEq, List.not_mem_nil]
    constructor
    · rintro rfl
      exact ⟨fun _ h => h.elim, rfl, small⟩
    · rintro ⟨-, rfl, -⟩
      rfl
  | cons c cs ih =>
    rw [readDigits, Nat.ofDigitChars_cons, List.forall_mem_cons]
    cases hc : value? c with
    | none =>
      have other : c.isDigit ≠ true := by
        intro h
        rw [value?_eq_some_iff.2 ⟨h, rfl⟩] at hc
        cases hc
      simp [other]
    | some d =>
      obtain ⟨digit, rfl⟩ := value?_eq_some_iff.1 hc
      by_cases h : 10 * k + (c.toNat - '0'.toNat) < bound
      · simp only [if_pos h]
        rw [ih h]
        simp [digit]
      · simp only [if_neg h, reduceCtorEq, false_iff]
        rintro ⟨-, hn, large⟩
        have := le_ofDigitChars cs (10 * k + (c.toNat - '0'.toNat))
        omega

/-- **A number is read exactly from the texts that spell it**, if it is below the bound. -/
theorem read_eq_ok_iff {bound n : Nat} {s : String} (positive : 0 < bound) :
    read bound s = .ok n ↔ Spells s n ∧ n < bound := by
  have plus : '+'.isDigit ≠ true := by decide
  rw [read, Spells]
  split
  · rename_i empty
    simp only [empty, reduceCtorEq, false_iff]
    rintro ⟨⟨digits, rfl | h, nonempty, -, -⟩, -⟩
    · exact nonempty rfl
    · cases h
  · rename_i sign
    simp only [sign, reduceCtorEq, false_iff]
    rintro ⟨⟨digits, rfl | h, nonempty, digit, -⟩, -⟩
    · exact plus (digit _ List.mem_cons_self)
    · exact nonempty (List.cons.inj h).2.symm
  · rename_i rest alone signed
    rw [readDigits_eq_ok_iff positive]
    constructor
    · rintro ⟨digit, hn, small⟩
      exact ⟨⟨rest, .inr signed, alone, digit, hn⟩, small⟩
    · rintro ⟨⟨digits, h | h, nonempty, digit, hn⟩, small⟩
      · rw [signed] at h
        subst h
        exact absurd (digit _ List.mem_cons_self) plus
      · obtain rfl := (List.cons.inj (signed.symm.trans h)).2
        exact ⟨digit, hn, small⟩
  · rename_i nonempty _ unsigned
    rw [readDigits_eq_ok_iff positive]
    constructor
    · rintro ⟨digit, hn, small⟩
      exact ⟨⟨s.toList, .inl rfl, nonempty, digit, hn⟩, small⟩
    · rintro ⟨⟨digits, rfl | h, -, digit, hn⟩, small⟩
      · exact ⟨digit, hn, small⟩
      · exact absurd h (unsigned _)

end SealedPost.Text.Decimal
