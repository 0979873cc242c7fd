import SealedPost.Text.Utf8
import SealedPost.Proofs.Text.Base64
import SealedPost.Proofs.Text.Hex

/-!
# White space around a text

Trimming takes off the white space at both ends and nothing else (`trim_eq_iff_tight`). Texts of
digits are left alone: neither alphabet has white space in it.
-/

namespace SealedPost.Text

theorem dropBlank_append {front rest : List Char} (blank : ∀ c ∈ front, isBlank c = true) :
    dropBlank (front ++ rest) = dropBlank rest := by
  induction front with
  | nil => rfl
  | cons c front ih =>
    have hc : isBlank c = true := blank c List.mem_cons_self
    rw [dropBlank, List.cons_append, List.dropWhile_cons_of_pos hc]
    exact ih fun d hd => blank d (List.mem_cons_of_mem c hd)

theorem dropBlank_eq_self {cs : List Char} (first : ∀ c ∈ cs.head?, isBlank c = false) :
    dropBlank cs = cs := by
  cases cs with
  | nil => rfl
  | cons c cs =>
    rw [dropBlank, List.dropWhile_cons_of_neg]
    simp [first c rfl]

theorem head?_dropBlank (cs : List Char) : ∀ c ∈ (dropBlank cs).head?, isBlank c = false := by
  intro c hc
  have h := List.head?_dropWhile_not isBlank cs
  rw [dropBlank, Option.mem_def] at hc
  simpa [hc] using h

theorem dropBlank_eq_nil {cs : List Char} (blank : ∀ c ∈ cs, isBlank c = true) :
    dropBlank cs = [] := by
  have h : dropBlank (cs ++ []) = [] := dropBlank_append blank
  rwa [List.append_nil] at h

/-! ## Both ends -/

/-- Characters that neither begin nor end with white space. -/
structure Tight (cs : List Char) : Prop where
  first : ∀ c ∈ cs.head?, isBlank c = false
  last : ∀ c ∈ cs.getLast?, isBlank c = false

theorem tight_of_inner {cs : List Char} (inner : ∀ c ∈ cs, isBlank c = false) : Tight cs where
  first c hc := inner c (List.mem_of_mem_head? hc)
  last c hc := inner c (List.mem_of_mem_getLast? hc)

/-- **Trimming takes off white space at both ends**, and nothing of what has none there. -/
theorem trimChars_append_tight {front core back : List Char} (hf : ∀ c ∈ front, isBlank c = true)
    (tight : Tight core) (hb : ∀ c ∈ back, isBlank c = true) :
    trimChars (front ++ core ++ back) = core := by
  rw [trimChars, List.append_assoc, dropBlank_append hf]
  cases core with
  | nil =>
    rw [List.nil_append, dropBlank_eq_nil hb]
    rfl
  | cons c core =>
    have hb' : ∀ d ∈ back.reverse, isBlank d = true := fun d h => hb d (List.mem_reverse.1 h)
    have kept : dropBlank (c :: core ++ back) = c :: core ++ back :=
      dropBlank_eq_self fun d hd => tight.first d hd
    have last : ∀ d ∈ (c :: core).reverse.head?, isBlank d = false := by
      rw [List.head?_reverse]
      exact tight.last
    rw [kept, List.reverse_append, dropBlank_append hb', dropBlank_eq_self last,
      List.reverse_reverse]

theorem trimChars_append {front core back : List Char} (hf : ∀ c ∈ front, isBlank c = true)
    (hc : ∀ c ∈ core, isBlank c = false) (hb : ∀ c ∈ back, isBlank c = true) :
    trimChars (front ++ core ++ back) = core :=
  trimChars_append_tight hf (tight_of_inner hc) hb

/-- A text with white space around it. -/
def Surrounds (s core : String) : Prop :=
  ∃ front back, s.toList = front ++ core.toList ++ back ∧ (∀ c ∈ front, isBlank c = true) ∧
    ∀ c ∈ back, isBlank c = true

theorem Surrounds.refl (s : String) : Surrounds s s := ⟨[], [], by simp, by simp, by simp⟩

theorem exists_front_dropBlank (cs : List Char) :
    ∃ front, cs = front ++ dropBlank cs ∧ ∀ c ∈ front, isBlank c = true := by
  refine ⟨cs.takeWhile isBlank, List.takeWhile_append_dropWhile.symm, ?_⟩
  intro c hc
  exact List.all_eq_true.1 List.all_takeWhile c hc

/-- What is left after the front is the core and the back. -/
theorem exists_back_trimChars (cs : List Char) :
    ∃ back, dropBlank cs = trimChars cs ++ back ∧ ∀ c ∈ back, isBlank c = true := by
  obtain ⟨back, hr, hb⟩ := exists_front_dropBlank (dropBlank cs).reverse
  refine ⟨back.reverse, ?_, fun c hc => hb c (List.mem_reverse.1 hc)⟩
  rw [trimChars, ← List.reverse_append, ← hr, List.reverse_reverse]

/-- What trimming takes off is white space. -/
theorem surrounds_trim (s : String) : Surrounds s (trim s) := by
  obtain ⟨front, hs, hf⟩ := exists_front_dropBlank s.toList
  obtain ⟨back, hr, hb⟩ := exists_back_trimChars s.toList
  refine ⟨front, back, ?_, hf, hb⟩
  rw [toList_trim, List.append_assoc, ← hr]
  exact hs

theorem tight_trim (s : String) : Tight (trim s).toList where
  first c hc := by
    obtain ⟨back, hr, -⟩ := exists_back_trimChars s.toList
    have front := head?_dropBlank s.toList
    rw [toList_trim, Option.mem_def] at hc
    rw [hr, List.head?_append, hc] at front
    exact front c rfl
  last c hc := by
    rw [toList_trim, trimChars, List.getLast?_reverse] at hc
    exact head?_dropBlank _ c hc

/-- **A text is trimmed to what white space surrounds**, and that neither begins nor ends with
any. -/
theorem trim_eq_iff_tight {s core : String} :
    trim s = core ↔ Surrounds s core ∧ Tight core.toList := by
  constructor
  · rintro rfl
    exact ⟨surrounds_trim s, tight_trim s⟩
  · rintro ⟨⟨front, back, hs, hf, hb⟩, tight⟩
    rw [trim, hs, trimChars_append_tight hf tight hb, String.ofList_toList]

theorem trim_eq_iff {s core : String} (inner : ∀ c ∈ core.toList, isBlank c = false) :
    trim s = core ↔ Surrounds s core := by
  rw [trim_eq_iff_tight, and_iff_left (tight_of_inner inner)]

theorem Surrounds.trim_eq {s core : String} (h : Surrounds s core)
    (inner : ∀ c ∈ core.toList, isBlank c = false) : trim s = core :=
  (trim_eq_iff inner).2 h

theorem trim_eq_self {s : String} (inner : ∀ c ∈ s.toList, isBlank c = false) : trim s = s :=
  (Surrounds.refl s).trim_eq inner

/-- Nothing more comes off the second time. -/
@[simp] theorem trim_trim (s : String) : trim (trim s) = trim s :=
  trim_eq_iff_tight.2 ⟨.refl _, tight_trim s⟩

/-! ## Digits are no white space -/

theorem Hex.Spells.isBlank {cs : List Char} {b : Bytes} (h : Hex.Spells cs b) :
    ∀ c ∈ cs, isBlank c = false := by
  have table : Hex.alphabet.all (fun c => !Text.isBlank c) = true := by decide
  intro c hc
  simpa using List.all_eq_true.1 table c (h.mem_alphabet hc)

theorem Base64.isBlank_encode {b : Bytes} : ∀ c ∈ (Base64.encode b).toList, isBlank c = false := by
  have table : ∀ n < 64, isBlank (Base64.digit n) = false := by decide
  intro c hc
  rcases Base64.mem_encode hc with rfl | ⟨n, hn, rfl⟩
  · rfl
  · exact table n hn

end SealedPost.Text
