import SealedPost.Text.Base64

/-!
# Base64 texts read back

Writing bytes and reading the text gives the bytes again, for every length of the last group. No
other text is read at all (`Base64.decode?_eq_some_iff`): the filling and the bits that it leaves
unused have one form.
-/

namespace SealedPost.Text.Base64

/-! ## Digits -/

theorem value?_digit : ∀ n < 64, value? (digit n) = some n := by decide

theorem digit_ne_filling : ∀ n < 64, digit n ≠ '=' := by decide

theorem value?_of_not_ascii {c : Char} (h : 128 ≤ c.toNat) : value? c = none := by
  have plus : c ≠ '+' := by
    rintro rfl
    exact absurd h (by decide)
  have slash : c ≠ '/' := by
    rintro rfl
    exact absurd h (by decide)
  simp only [value?, plus, slash, if_false]
  rw [if_neg (by omega), if_neg (by omega), if_neg (by omega)]

/-- Every value is that of one digit. -/
theorem value?_eq_some_iff {c : Char} {n : Nat} : value? c = some n ↔ n < 64 ∧ c = digit n := by
  constructor
  · have table : ∀ k < 128, ∀ m ∈ value? (Char.ofNat k), m < 64 ∧ Char.ofNat k = digit m := by
      decide +kernel
    intro h
    rcases Nat.lt_or_ge c.toNat 128 with ascii | high
    · have named := table c.toNat ascii n
      rw [Char.ofNat_toNat] at named
      exact named h
    · rw [value?_of_not_ascii high] at h
      cases h
  · rintro ⟨small, rfl⟩
    exact value?_digit n small

/-! ## Groups -/

theorem first_lt (a : UInt8) : a.toNat / 4 < 64 := by
  have := a.toNat_lt
  omega

theorem second_lt (a b : UInt8) : a.toNat % 4 * 16 + b.toNat / 16 < 64 := by
  have := b.toNat_lt
  omega

theorem third_lt (b c : UInt8) : b.toNat % 16 * 4 + c.toNat / 64 < 64 := by
  have := c.toNat_lt
  omega

theorem fourth_lt (c : UInt8) : c.toNat % 64 < 64 := Nat.mod_lt _ (by decide)

theorem decodeOne_digits (a : UInt8) :
    decodeOne (digit (a.toNat / 4)) (digit (a.toNat % 4 * 16)) = some [a] := by
  have hq : a.toNat % 4 * 16 < 64 := by omega
  have hlast : a.toNat % 4 * 16 % 16 = 0 := by omega
  have ha : UInt8.ofNat (a.toNat / 4 * 4 + a.toNat % 4 * 16 / 16) = a := ofNat_eq_of_toNat (by omega)
  simp only [decodeOne, value?_digit _ (first_lt a), value?_digit _ hq, Option.bind_eq_bind,
    Option.bind_some, if_pos hlast, ha]

theorem decodeTwo_digits (a b : UInt8) :
    decodeTwo (digit (a.toNat / 4)) (digit (a.toNat % 4 * 16 + b.toNat / 16))
      (digit (b.toNat % 16 * 4)) = some [a, b] := by
  have hb := b.toNat_lt
  have hr : b.toNat % 16 * 4 < 64 := by omega
  have hlast : b.toNat % 16 * 4 % 4 = 0 := by omega
  have ea : UInt8.ofNat (a.toNat / 4 * 4 + (a.toNat % 4 * 16 + b.toNat / 16) / 16) = a :=
    ofNat_eq_of_toNat (by omega)
  have eb : UInt8.ofNat ((a.toNat % 4 * 16 + b.toNat / 16) % 16 * 16 + b.toNat % 16 * 4 / 4) = b :=
    ofNat_eq_of_toNat (by omega)
  simp only [decodeTwo, value?_digit _ (first_lt a), value?_digit _ (second_lt a b),
    value?_digit _ hr, Option.bind_eq_bind, Option.bind_some, if_pos hlast, ea, eb]

theorem decodeThree_digits (a b c : UInt8) :
    decodeThree (digit (a.toNat / 4)) (digit (a.toNat % 4 * 16 + b.toNat / 16))
      (digit (b.toNat % 16 * 4 + c.toNat / 64)) (digit (c.toNat % 64)) = some [a, b, c] := by
  have hb := b.toNat_lt
  have hc := c.toNat_lt
  have ea : UInt8.ofNat (a.toNat / 4 * 4 + (a.toNat % 4 * 16 + b.toNat / 16) / 16) = a :=
    ofNat_eq_of_toNat (by omega)
  have eb : UInt8.ofNat ((a.toNat % 4 * 16 + b.toNat / 16) % 16 * 16 +
      (b.toNat % 16 * 4 + c.toNat / 64) / 4) = b := ofNat_eq_of_toNat (by omega)
  have ec : UInt8.ofNat ((b.toNat % 16 * 4 + c.toNat / 64) % 4 * 64 + c.toNat % 64) = c :=
    ofNat_eq_of_toNat (by omega)
  simp only [decodeThree, value?_digit _ (first_lt a), value?_digit _ (second_lt a b),
    value?_digit _ (third_lt b c), value?_digit _ (fourth_lt c), Option.bind_eq_bind,
    Option.bind_some, ea, eb, ec]

theorem decodeOne_eq_some {p q : Char} {b : Bytes} (h : decodeOne p q = some b) :
    ∃ x : UInt8, b = [x] ∧ p = digit (x.toNat / 4) ∧ q = digit (x.toNat % 4 * 16) := by
  simp only [decodeOne, Option.bind_eq_bind, Option.bind_eq_some_iff] at h
  obtain ⟨x, hp, y, hq, h⟩ := h
  obtain ⟨hx, rfl⟩ := value?_eq_some_iff.1 hp
  obtain ⟨hy, rfl⟩ := value?_eq_some_iff.1 hq
  split at h
  · obtain rfl := Option.some.inj h
    refine ⟨_, rfl, ?_, ?_⟩ <;> congr 1 <;> rw [UInt8.toNat_ofNat'] <;> omega
  · cases h

theorem decodeTwo_eq_some {p q r : Char} {b : Bytes} (h : decodeTwo p q r = some b) :
    ∃ x y : UInt8, b = [x, y] ∧ p = digit (x.toNat / 4) ∧
      q = digit (x.toNat % 4 * 16 + y.toNat / 16) ∧ r = digit (y.toNat % 16 * 4) := by
  simp only [decodeTwo, Option.bind_eq_bind, Option.bind_eq_some_iff] at h
  obtain ⟨x, hp, y, hq, z, hr, h⟩ := h
  obtain ⟨hx, rfl⟩ := value?_eq_some_iff.1 hp
  obtain ⟨hy, rfl⟩ := value?_eq_some_iff.1 hq
  obtain ⟨hz, rfl⟩ := value?_eq_some_iff.1 hr
  split at h
  · obtain rfl := Option.some.inj h
    refine ⟨_, _, rfl, ?_, ?_, ?_⟩ <;> congr 1 <;> simp only [UInt8.toNat_ofNat'] <;> omega
  · cases h

theorem decodeThree_eq_some {p q r s : Char} {b : Bytes} (h : decodeThree p q r s = some b) :
    ∃ x y z : UInt8, b = [x, y, z] ∧ p = digit (x.toNat / 4) ∧
      q = digit (x.toNat % 4 * 16 + y.toNat / 16) ∧
      r = digit (y.toNat % 16 * 4 + z.toNat / 64) ∧ s = digit (z.toNat % 64) := by
  simp only [decodeThree, Option.bind_eq_bind, Option.bind_eq_some_iff] at h
  obtain ⟨x, hp, y, hq, z, hr, w, hs, h⟩ := h
  obtain ⟨hx, rfl⟩ := value?_eq_some_iff.1 hp
  obtain ⟨hy, rfl⟩ := value?_eq_some_iff.1 hq
  obtain ⟨hz, rfl⟩ := value?_eq_some_iff.1 hr
  obtain ⟨hw, rfl⟩ := value?_eq_some_iff.1 hs
  obtain rfl := Option.some.inj h
  refine ⟨_, _, _, rfl, ?_, ?_, ?_, ?_⟩ <;> congr 1 <;> simp only [UInt8.toNat_ofNat'] <;> omega

/-! ## Texts -/

theorem decodeChars_encodeChars (b : Bytes) : decodeChars (encodeChars b) = some b := by
  induction b using encodeChars.induct with
  | case1 => rfl
  | case2 a => simp [encodeChars, decodeChars, decodeOne_digits]
  | case3 a b =>
    have hr : b.toNat % 16 * 4 < 64 := by omega
    simp [encodeChars, decodeChars, digit_ne_filling _ hr, decodeTwo_digits]
  | case4 a b c rest ih =>
    simp [encodeChars, decodeChars, digit_ne_filling _ (fourth_lt c), decodeThree_digits, ih]

/-- **Reading gives back what was written.** -/
@[simp] theorem decode?_encode (b : Bytes) : decode? (encode b) = some b := by
  rw [decode?, encode, String.toList_ofList, decodeChars_encodeChars]

theorem eq_encodeChars_of_decodeChars {cs : List Char} {b : Bytes} (h : decodeChars cs = some b) :
    cs = encodeChars b := by
  induction cs using decodeChars.induct generalizing b with
  | case1 =>
    obtain rfl := Option.some.inj h
    rfl
  | case2 p q =>
    obtain ⟨x, rfl, rfl, rfl⟩ := decodeOne_eq_some h
    rfl
  | case3 p q r more =>
    simp only [decodeChars, if_true, if_neg more] at h
    obtain ⟨x, y, rfl, rfl, rfl, rfl⟩ := decodeTwo_eq_some h
    rfl
  | case4 p q r c rest => cases h
  | case5 p q r s rest full ih =>
    simp only [decodeChars, if_neg full, Option.bind_eq_bind, Option.bind_eq_some_iff] at h
    obtain ⟨group, hgroup, more, hmore, h⟩ := h
    obtain rfl := Option.some.inj h
    obtain ⟨x, y, z, rfl, rfl, rfl, rfl, rfl⟩ := decodeThree_eq_some hgroup
    rw [ih hmore]
    rfl
  | case6 cs empty short =>
    rw [decodeChars] at h
    · cases h
    · exact empty
    · exact short

/-- **Reading accepts exactly what writing produces.** -/
theorem decode?_eq_some_iff {s : String} {b : Bytes} : decode? s = some b ↔ s = encode b := by
  constructor
  · intro h
    rw [encode, ← eq_encodeChars_of_decodeChars h, String.ofList_toList]
  · rintro rfl
    exact decode?_encode b

/-- Every character of a written text is a digit or filling. -/
theorem mem_encode {b : Bytes} {c : Char} (h : c ∈ (encode b).toList) :
    c = '=' ∨ ∃ n < 64, c = digit n := by
  rw [encode, String.toList_ofList] at h
  induction b using encodeChars.induct with
  | case1 => cases h
  | case2 a =>
    simp only [encodeChars, List.mem_cons, List.not_mem_nil, or_false] at h
    rcases h with h | h | h | h
    · exact .inr ⟨_, first_lt a, h⟩
    · exact .inr ⟨_, by omega, h⟩
    · exact .inl h
    · exact .inl h
  | case3 a b =>
    simp only [encodeChars, List.mem_cons, List.not_mem_nil, or_false] at h
    rcases h with h | h | h | h
    · exact .inr ⟨_, first_lt a, h⟩
    · exact .inr ⟨_, second_lt a b, h⟩
    · exact .inr ⟨_, by omega, h⟩
    · exact .inl h
  | case4 a b c rest ih =>
    simp only [encodeChars, List.mem_cons] at h
    rcases h with h | h | h | h | h
    · exact .inr ⟨_, first_lt a, h⟩
    · exact .inr ⟨_, second_lt a b, h⟩
    · exact .inr ⟨_, third_lt b c, h⟩
    · exact .inr ⟨_, fourth_lt c, h⟩
    · exact ih h

end SealedPost.Text.Base64
