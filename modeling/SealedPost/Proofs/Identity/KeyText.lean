import SealedPost.Identity.KeyText
import SealedPost.Proofs.Text.Hex

/-!
# Which texts name a key

A key is named by its 64 digits, in either case, with or without the mark of a session id. The mark
is recognised by the size of the text, and that never goes wrong: `KeyText.decode_eq_ok_iff` says
that a text is read as a key exactly if it names it, and `KeyText.respelled_iff` that two texts lose
their difference to stripping exactly if the mark is all the difference there is.
-/

namespace SealedPost.KeyText
open Text

/-- A text names a key if it is its digits, alone or behind the mark. -/
def Names (s : String) (key : Octets 32) : Prop :=
  Hex.Spells s.toList key.bytes ∨ ∃ digits, s.toList = mark ++ digits ∧ Hex.Spells digits key.bytes

theorem names_encode (key : Octets 32) : Names (Hex.encode key.bytes) key :=
  .inl (Hex.spells_encode key.bytes)

theorem toList_sessionId (key : Octets 32) :
    (sessionId key).toList = mark ++ (Hex.encode key.bytes).toList := by
  rw [sessionId, String.toList_append, String.toList_ofList]

theorem names_sessionId (key : Octets 32) : Names (sessionId key) key :=
  .inr ⟨_, toList_sessionId key, Hex.spells_encode key.bytes⟩

/-! ## The mark -/

theorem isMarked_iff {s : String} :
    isMarked s = true ↔ s.utf8ByteSize = sessionIdSize ∧ ∃ digits, s.toList = mark ++ digits := by
  simp only [isMarked, Bool.and_eq_true, decide_eq_true_eq, List.isPrefixOf_iff_prefix]
  constructor
  · rintro ⟨hs, digits, hd⟩
    exact ⟨hs, digits, hd.symm⟩
  · rintro ⟨hs, digits, hd⟩
    exact ⟨hs, digits, hd.symm⟩

theorem strip_eq_self {s : String} (h : isMarked s ≠ true) : strip s = s := by
  rw [strip, if_neg h]

theorem strip_of_isMarked {s : String} {digits : List Char} (h : isMarked s = true)
    (hd : s.toList = mark ++ digits) : strip s = String.ofList digits := by
  rw [strip, if_pos h, hd]
  rfl

/-- The bare digits of a key are never taken for a session id, whatever they begin with. -/
theorem not_isMarked_of_spells {s : String} {key : Octets 32}
    (h : Hex.Spells s.toList key.bytes) : isMarked s ≠ true := by
  intro marked
  have size := h.utf8ByteSize
  rw [(isMarked_iff.1 marked).1, key.length_bytes] at size
  cases size

theorem isMarked_of_spells {s : String} {digits : List Char} {key : Octets 32}
    (hs : s.toList = mark ++ digits) (hd : Hex.Spells digits key.bytes) : isMarked s = true := by
  refine isMarked_iff.2 ⟨?_, digits, hs⟩
  have hd' : Hex.Spells (String.ofList digits).toList key.bytes := by rwa [String.toList_ofList]
  rw [← String.ofList_toList (s := s), hs, String.ofList_append, String.utf8ByteSize_append,
    hd'.utf8ByteSize, key.length_bytes]
  rfl

/-! ## Reading -/

theorem decode_eq_ok_iff_spells {s : String} {key : Octets 32} :
    decode s = .ok key ↔ Hex.Spells (strip s).toList key.bytes := by
  rw [← Hex.exists_octets_iff, decode]
  cases Hex.decode (strip s) with
  | error reason => simp
  | ok b => cases h : Octets.ofBytes? 32 b <;> simp [h]

/-- **A text is read as a key exactly if it names it.** -/
theorem decode_eq_ok_iff {s : String} {key : Octets 32} : decode s = .ok key ↔ Names s key := by
  rw [decode_eq_ok_iff_spells]
  by_cases marked : isMarked s = true
  · obtain ⟨-, digits, hd⟩ := isMarked_iff.1 marked
    rw [strip_of_isMarked marked hd, String.toList_ofList]
    constructor
    · intro h
      exact .inr ⟨digits, hd, h⟩
    · rintro (h | ⟨digits', hd', h⟩)
      · exact absurd marked (not_isMarked_of_spells h)
      · rwa [List.append_cancel_left (hd.symm.trans hd')]
  · rw [strip_eq_self marked]
    constructor
    · exact .inl
    · rintro (h | ⟨digits, hd, h⟩)
      · exact h
      · exact absurd (isMarked_of_spells hd h) marked

/-- A session id is stripped to the digits that it was made with. -/
@[simp] theorem strip_sessionId (key : Octets 32) :
    strip (sessionId key) = Hex.encode key.bytes := by
  rw [strip_of_isMarked (isMarked_of_spells (toList_sessionId key) (Hex.spells_encode _))
    (toList_sessionId key), String.ofList_toList]

@[simp] theorem strip_encode (key : Octets 32) :
    strip (Hex.encode key.bytes) = Hex.encode key.bytes :=
  strip_eq_self (not_isMarked_of_spells (Hex.spells_encode key.bytes))

/-! ## Spellings -/

/-- How many bytes the bare digits of a key have as text. -/
def bareSize : Nat := 64

/-- A text behind the mark. -/
def marked (s : String) : String := String.ofList mark ++ s

/-- Two texts that are the same but for the mark in front of 64 bytes. -/
inductive Respelled : String → String → Prop
  | same (s : String) : Respelled s s
  | marked (s : String) (size : s.utf8ByteSize = bareSize) : Respelled s (marked s)
  | bare (s : String) (size : s.utf8ByteSize = bareSize) : Respelled (KeyText.marked s) s

theorem toList_marked (s : String) : (marked s).toList = mark ++ s.toList := by
  rw [marked, String.toList_append, String.toList_ofList]

theorem utf8ByteSize_marked (s : String) : (marked s).utf8ByteSize = 2 + s.utf8ByteSize := by
  rw [marked, String.utf8ByteSize_append]
  rfl

/-- Sixty-four bytes keep all their characters, also if they begin with the mark. -/
theorem strip_of_bareSize {s : String} (size : s.utf8ByteSize = bareSize) : strip s = s := by
  apply strip_eq_self
  intro h
  have := (isMarked_iff.1 h).1
  rw [size] at this
  cases this

theorem isMarked_marked {s : String} (size : s.utf8ByteSize = bareSize) :
    isMarked (marked s) = true := by
  refine isMarked_iff.2 ⟨?_, s.toList, toList_marked s⟩
  rw [utf8ByteSize_marked, size]
  rfl

theorem strip_marked {s : String} (size : s.utf8ByteSize = bareSize) : strip (marked s) = s := by
  rw [strip_of_isMarked (isMarked_marked size) (toList_marked s), String.ofList_toList]

/-- What is taken for a session id is 64 bytes behind the mark. -/
theorem eq_marked_of_isMarked {s : String} (h : isMarked s = true) :
    s = marked (strip s) ∧ (strip s).utf8ByteSize = bareSize := by
  obtain ⟨size, digits, hdigits⟩ := isMarked_iff.1 h
  have hs : s = marked (strip s) := by
    apply String.toList_inj.1
    rw [toList_marked, strip_of_isMarked h hdigits, String.toList_ofList, hdigits]
  refine ⟨hs, ?_⟩
  rw [hs, utf8ByteSize_marked, sessionIdSize] at size
  rw [bareSize]
  omega

/-- **Two texts are stripped alike exactly if they are spellings of one another.** -/
theorem respelled_iff {s t : String} : Respelled s t ↔ strip s = strip t := by
  constructor
  · intro h
    cases h with
    | same => rfl
    | marked _ size => rw [strip_marked size, strip_of_bareSize size]
    | bare _ size => rw [strip_marked size, strip_of_bareSize size]
  · intro h
    by_cases hs : isMarked s = true
    · obtain ⟨hs, size⟩ := eq_marked_of_isMarked hs
      by_cases ht : isMarked t = true
      · rw [(eq_marked_of_isMarked ht).1, hs, h]
        exact .same _
      · rw [strip_eq_self ht] at h
        rw [hs, h]
        rw [h] at size
        exact .bare t size
    · by_cases ht : isMarked t = true
      · obtain ⟨ht, size⟩ := eq_marked_of_isMarked ht
        rw [strip_eq_self hs] at h
        rw [ht, ← h]
        rw [← h] at size
        exact .marked s size
      · rw [strip_eq_self hs, strip_eq_self ht] at h
        rw [h]
        exact .same t

/-- Every spelling of a key is read as that key. -/
theorem Respelled.decode_eq {s t : String} (h : Respelled s t) : decode s = decode t := by
  simp only [decode, respelled_iff.1 h]

end SealedPost.KeyText
