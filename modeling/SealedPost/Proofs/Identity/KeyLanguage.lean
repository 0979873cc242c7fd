import SealedPost.Proofs.Identity.KeyText

/-!
# The language of keys

A text is read as a key exactly if it is 64 digits, alone or behind the mark. What it is read as is
told by its digits in lower case, why it is refused by its size and bytes, and the mark is cut off
between two characters. `keys_read_exactly` says so for all texts.
-/

namespace SealedPost.KeyText
open Text

/-- Sixty-four digits of either case. -/
def IsBare (digits : List Char) : Prop := digits.length = 64 ∧ ∀ c ∈ digits, c ∈ Hex.alphabet

/-- A text in lower case. -/
def lower (cs : List Char) : String := String.ofList (cs.map Char.toLower)

/-- A text is these digits, alone or behind the mark. -/
def Wraps (k : String) (digits : List Char) : Prop := k.toList = digits ∨ k.toList = mark ++ digits

theorem isBare_iff {digits : List Char} :
    IsBare digits ↔ ∃ key : Octets 32, Hex.Spells digits key.bytes := by
  rw [IsBare, ← Hex.exists_spells_iff (n := 32)]
  constructor
  · rintro ⟨b, spells, length⟩
    exact ⟨⟨b, length⟩, spells⟩
  · rintro ⟨key, spells⟩
    exact ⟨key.bytes, spells, key.length_eq⟩

theorem lower_eq_encode_iff {digits : List Char} {b : Bytes} :
    lower digits = Hex.encode b ↔ Hex.Spells digits b := by
  rw [lower, Hex.encode, String.ofList_inj, Hex.Spells]

/-- The session id of a key is told by its digits. -/
theorem sessionId_eq_iff {digits : List Char} {key : Octets 32} :
    sessionId key = marked (lower digits) ↔ Hex.Spells digits key.bytes := by
  rw [← lower_eq_encode_iff, sessionId, marked, String.append_right_inj, eq_comm]

theorem names_iff {k : String} {key : Octets 32} :
    Names k key ↔ ∃ digits, Wraps k digits ∧ Hex.Spells digits key.bytes := by
  constructor
  · rintro (h | ⟨digits, hk, h⟩)
    · exact ⟨k.toList, .inl rfl, h⟩
    · exact ⟨digits, .inr hk, h⟩
  · rintro ⟨digits, rfl | hk, h⟩
    · exact .inl h
    · exact .inr ⟨digits, hk, h⟩

/-! ## Refusals -/

theorem decode_eq_hex_iff {k : String} {reason : Hex.Error} :
    decode k = .error (.hex reason) ↔ Hex.decode (strip k) = .error reason := by
  rw [decode]
  cases Hex.decode (strip k) with
  | error other => simp
  | ok b => cases key : Octets.ofBytes? 32 b <;> simp [key]

theorem decode_eq_length_iff {k : String} {n : Nat} : decode k = .error (.length n) ↔
    (utf8 (strip k)).length = 2 * n ∧ (∀ b ∈ utf8 (strip k), Hex.isDigit b = true) ∧ n ≠ 32 := by
  rw [← and_assoc, ← Hex.exists_decode_length_iff, decode]
  cases Hex.decode (strip k) with
  | error reason => simp
  | ok b =>
    by_cases length : b.length = 32
    · simp [Octets.ofBytes?, length, eq_comm]
    · simp only [Octets.ofBytes?, length, Except.error.injEq, Except.ok.injEq, Error.length.injEq,
        dite_false, exists_eq_left']
      omega

/-! ## The cut -/

/-- The bytes of the mark. -/
def markBytes : Bytes := [48, 53]

theorem utf8_marked (s : String) : utf8 (marked s) = markBytes ++ utf8 s := by
  rw [utf8, toList_marked, List.flatMap_append]
  rfl

/-- A byte below 128 in front is a whole character. -/
theorem eq_of_flatMap_eq_cons {cs : List Char} {n : Nat} {bs : Bytes} (ascii : n < 128)
    (h : cs.flatMap String.utf8EncodeChar = UInt8.ofNat n :: bs) :
    ∃ rest, cs = Char.ofNat n :: rest ∧ rest.flatMap String.utf8EncodeChar = bs := by
  cases cs with
  | nil => cases h
  | cons c rest =>
    rw [List.flatMap_cons] at h
    by_cases hc : c.toNat < 128
    · rw [utf8EncodeChar_of_ascii hc] at h
      obtain ⟨same, hrest⟩ := List.cons.inj h
      have same := congrArg UInt8.toNat same
      simp only [UInt8.toNat_ofNat', Nat.reducePow] at same
      have value : c.toNat = n := by omega
      refine ⟨rest, ?_, hrest⟩
      rw [← value, Char.ofNat_toNat]
    · obtain ⟨x, more, hx, high⟩ := utf8EncodeChar_of_not_ascii (Nat.not_lt.1 hc)
      rw [hx] at h
      obtain ⟨rfl, -⟩ := List.cons.inj h
      rw [UInt8.le_iff_toNat_le, UInt8.toNat_ofNat', Nat.mod_eq_of_lt (by omega)] at high
      exact absurd high (Nat.not_le.2 ascii)

/-- A text whose bytes begin with those of the mark begins with the mark. -/
theorem exists_marked_of_prefix {k : String} (h : markBytes <+: utf8 k) : ∃ s, k = marked s := by
  obtain ⟨bs, h⟩ := h
  obtain ⟨cs, hk, hcs⟩ := eq_of_flatMap_eq_cons (by decide) h.symm
  obtain ⟨rest, rfl, -⟩ := eq_of_flatMap_eq_cons (by decide) hcs
  refine ⟨String.ofList rest, String.toList_inj.1 ?_⟩
  rw [toList_marked, String.toList_ofList, hk]
  rfl

/-- The mark can be recognised by bytes. -/
theorem isMarked_iff_bytes {k : String} :
    isMarked k = true ↔ (utf8 k).length = 66 ∧ markBytes <+: utf8 k := by
  constructor
  · intro h
    obtain ⟨hk, size⟩ := eq_marked_of_isMarked h
    refine ⟨by rw [length_utf8, (isMarked_iff.1 h).1, sessionIdSize], ?_⟩
    rw [hk, utf8_marked]
    exact List.prefix_append _ _
  · rintro ⟨size, starts⟩
    obtain ⟨s, rfl⟩ := exists_marked_of_prefix starts
    rw [length_utf8, utf8ByteSize_marked] at size
    exact isMarked_marked (by rw [bareSize]; omega)

theorem strip_strip (k : String) : strip (strip k) = strip k := by
  by_cases h : isMarked k = true
  · exact strip_of_bareSize (eq_marked_of_isMarked h).2
  · rw [strip_eq_self h, strip_eq_self h]

/-! ## The codec -/

theorem decode_eq_ok_iff_wraps {k : String} {key : Octets 32} : decode k = .ok key ↔
    ∃ digits, IsBare digits ∧ Wraps k digits ∧ sessionId key = marked (lower digits) := by
  rw [decode_eq_ok_iff, names_iff]
  simp only [sessionId_eq_iff, isBare_iff]
  constructor
  · rintro ⟨digits, wraps, spells⟩
    exact ⟨digits, ⟨key, spells⟩, wraps, spells⟩
  · rintro ⟨digits, -, wraps, spells⟩
    exact ⟨digits, wraps, spells⟩

theorem exists_decode_eq_ok_iff {k : String} :
    (∃ key, decode k = .ok key) ↔ ∃ digits, IsBare digits ∧ Wraps k digits := by
  simp only [decode_eq_ok_iff, names_iff, isBare_iff]
  constructor
  · rintro ⟨key, digits, wraps, spells⟩
    exact ⟨digits, ⟨key, spells⟩, wraps⟩
  · rintro ⟨digits, ⟨key, spells⟩, wraps⟩
    exact ⟨key, digits, wraps, spells⟩

/-- Two texts are read as one key exactly if both are keys and, stripped, differ in case alone. -/
theorem decode_eq_decode_iff {k k' : String} :
    (∃ key, decode k = .ok key ∧ decode k' = .ok key) ↔
      ((∃ key, decode k = .ok key) ∧ ∃ key, decode k' = .ok key) ∧
        lower (strip k).toList = lower (strip k').toList := by
  simp only [decode_eq_ok_iff_spells, ← lower_eq_encode_iff]
  constructor
  · rintro ⟨key, h, h'⟩
    exact ⟨⟨⟨key, h⟩, key, h'⟩, h.trans h'.symm⟩
  · rintro ⟨⟨⟨key, h⟩, -⟩, same⟩
    exact ⟨key, h, same.symm.trans h⟩

/-- What a text is read as, and why it is refused. -/
structure ReadsExactly (k : String) : Prop where
  accepted : (∃ key, decode k = .ok key) ↔ ∃ digits, IsBare digits ∧ Wraps k digits
  shown : ∀ key, decode k = .ok key ↔
    ∃ digits, IsBare digits ∧ Wraps k digits ∧ sessionId key = marked (lower digits)
  alike : ∀ k', (∃ key, decode k = .ok key ∧ decode k' = .ok key) ↔
    ((∃ key, decode k = .ok key) ∧ ∃ key, decode k' = .ok key) ∧
      lower (strip k).toList = lower (strip k').toList
  notHex : (∃ reason, decode k = .error (.hex reason)) ↔
    (utf8 (strip k)).length % 2 = 1 ∨ ∃ b ∈ utf8 (strip k), Hex.isDigit b = false
  wrongLength : ∀ n, decode k = .error (.length n) ↔
    (utf8 (strip k)).length = 2 * n ∧ (∀ b ∈ utf8 (strip k), Hex.isDigit b = true) ∧ n ≠ 32

/-- What stripping does to a text. The bytes of the mark come off whole, and what is left are the
bytes of a text. -/
structure StripsExactly (k : String) : Prop where
  again : strip (strip k) = strip k
  shortens : (utf8 (strip k)).length < (utf8 k).length ↔
    (utf8 k).length = 66 ∧ markBytes <+: utf8 k
  cut : strip k = k ∨ utf8 k = markBytes ++ utf8 (strip k)

theorem stripsExactly (k : String) : StripsExactly k where
  again := strip_strip k
  shortens := by
    rw [← isMarked_iff_bytes]
    by_cases h : isMarked k = true
    · have bytes := congrArg (fun s => (utf8 s).length) (eq_marked_of_isMarked h).1
      simp only [utf8_marked, List.length_append, markBytes, List.length_cons,
        List.length_nil] at bytes
      simp only [h, iff_true]
      omega
    · simp [strip_eq_self h, h]
  cut := by
    by_cases h : isMarked k = true
    · have bytes := congrArg utf8 (eq_marked_of_isMarked h).1
      exact .inr (bytes.trans (utf8_marked _))
    · exact .inl (strip_eq_self h)

/-- **Exactly the keys are read as keys.** A text is read as a key exactly if it is 64 digits of
either case, alone or behind the mark; the session id of the key is then the mark and the digits in
lower case, and texts are read alike exactly if their stripped forms differ in case alone. Any other
text is refused for its stripped form: as no hexadecimal if its size in bytes is odd or a byte is no
digit, and otherwise for its length, which is half that size. A key is read back from its session id
and from its bare digits. Stripping twice is stripping once; it shortens exactly the texts of 66
bytes that begin with the mark, and cuts between two characters. -/
theorem keys_read_exactly :
    (∀ k, ReadsExactly k) ∧ (∀ k, StripsExactly k) ∧
      ∀ key : Octets 32, decode (sessionId key) = .ok key ∧
        decode (Hex.encode key.bytes) = .ok key := by
  refine ⟨fun k => ?_, stripsExactly, fun key => ?_⟩
  · have notHex : (∃ reason, decode k = .error (.hex reason)) ↔
        (utf8 (strip k)).length % 2 = 1 ∨ ∃ b ∈ utf8 (strip k), Hex.isDigit b = false := by
      simp only [decode_eq_hex_iff, Hex.exists_decode_eq_error_iff]
    exact ⟨exists_decode_eq_ok_iff, fun _ => decode_eq_ok_iff_wraps, fun _ => decode_eq_decode_iff,
      notHex, fun _ => decode_eq_length_iff⟩
  · exact ⟨decode_eq_ok_iff.2 (names_sessionId key), decode_eq_ok_iff.2 (names_encode key)⟩

end SealedPost.KeyText
