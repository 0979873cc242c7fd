import SealedPost.Text.Hex

/-!
# Which texts are hexadecimal

A text spells a byte string if its characters, in lower case, are the digits of the bytes. That is
exactly when reading it gives those bytes (`Hex.decode_eq_ok_iff`): the reader works on the bytes of
the text, where no byte of a longer character is a digit.
-/

namespace SealedPost.Text

/-! ## The bytes of a text -/

theorem length_utf8 (s : String) : (utf8 s).length = s.utf8ByteSize := by
  rw [← String.size_toByteArray, ← String.ofList_toList (s := s), String.toByteArray_ofList,
    List.utf8Encode, List.size_toByteArray, utf8, String.ofList_toList]

theorem utf8EncodeChar_of_ascii {c : Char} (h : c.toNat < 128) :
    String.utf8EncodeChar c = [UInt8.ofNat c.toNat] := by
  have hv : c.val.toNat ≤ 0x7f := Nat.le_of_lt_succ h
  simp only [String.utf8EncodeChar, if_pos hv]
  rfl

/-- The first byte of a longer character is above every ASCII byte. -/
theorem utf8EncodeChar_of_not_ascii {c : Char} (h : 128 ≤ c.toNat) :
    ∃ x rest, String.utf8EncodeChar c = x :: rest ∧ 128 ≤ x := by
  have hv : ¬ c.val.toNat ≤ 0x7f := Nat.not_le.2 h
  have lead (k : Nat) (hk : 128 ≤ k) (hk' : k < 256) : (128 : UInt8) ≤ UInt8.ofNat k := by
    rw [UInt8.le_iff_toNat_le, UInt8.toNat_ofNat', Nat.mod_eq_of_lt hk']
    exact hk
  simp only [String.utf8EncodeChar, if_neg hv]
  split
  · exact ⟨_, _, rfl, lead _ (by omega) (by omega)⟩
  · split
    · exact ⟨_, _, rfl, lead _ (by omega) (by omega)⟩
    · exact ⟨_, _, rfl, lead _ (by omega) (by omega)⟩

namespace Hex

/-! ## Digits -/

theorem value?_lt {x : UInt8} {n : Nat} (h : value? x = some n) : n < 16 := by
  have table : ∀ k < 256, ∀ m ∈ value? (UInt8.ofNat k), m < 16 := by decide +kernel
  have hx : UInt8.ofNat x.toNat = x := UInt8.ofNat_toNat
  exact table x.toNat x.toNat_lt n (by rw [hx]; exact h)

theorem value?_of_le {x : UInt8} (h : 128 ≤ x) : value? x = none := by
  have table : ∀ k < 256, 128 ≤ UInt8.ofNat k → value? (UInt8.ofNat k) = none := by decide +kernel
  have hx : UInt8.ofNat x.toNat = x := UInt8.ofNat_toNat
  rw [← hx] at h ⊢
  exact table x.toNat x.toNat_lt h

theorem value?_ascii : ∀ k < 128, ∀ n < 16,
    value? (UInt8.ofNat k) = some n ↔ (Char.ofNat k).toLower = digit n := by
  decide +kernel

theorem digit_ascii : ∀ n < 16, (digit n).toNat < 128 := by decide

theorem toLower_digit : ∀ n < 16, (digit n).toLower = digit n := by decide

theorem toLower_of_not_ascii {c : Char} (h : 128 ≤ c.toNat) : c.toLower = c := by
  have hc : ¬ (c.val ≥ 'A'.val ∧ c.val ≤ 'Z'.val) := by
    rintro ⟨-, hz⟩
    have hz : c.toNat ≤ 90 := hz
    omega
  exact dif_neg hc

/-- A character is a digit exactly if its first byte is; and then it has no other. -/
theorem value?_character (c : Char) : ∃ x rest, String.utf8EncodeChar c = x :: rest ∧
    ∀ n < 16, (value? x = some n ↔ c.toLower = digit n) ∧ (value? x = some n → rest = []) := by
  by_cases h : c.toNat < 128
  · refine ⟨_, _, utf8EncodeChar_of_ascii h, fun n hn => ⟨?_, fun _ => rfl⟩⟩
    have := value?_ascii c.toNat h n hn
    rwa [Char.ofNat_toNat] at this
  · obtain ⟨x, rest, hx, hle⟩ := utf8EncodeChar_of_not_ascii (Nat.not_lt.1 h)
    refine ⟨x, rest, hx, fun n hn => ?_⟩
    have high : c.toLower ≠ digit n := by
      have := digit_ascii n hn
      rw [toLower_of_not_ascii (Nat.not_lt.1 h)]
      rintro rfl
      exact h this
    simp [value?_of_le hle, high]

/-! ## Texts of digits -/

/-- The values of the two digits of each byte. -/
def halves (b : Bytes) : List Nat := b.flatMap fun x => [x.toNat / 16, x.toNat % 16]

theorem lt_of_mem_halves {b : Bytes} {n : Nat} (h : n ∈ halves b) : n < 16 := by
  simp only [halves, List.mem_flatMap, List.mem_cons, List.not_mem_nil, or_false] at h
  obtain ⟨x, -, hn⟩ := h
  have := x.toNat_lt
  omega

theorem length_halves (b : Bytes) : (halves b).length = 2 * b.length := by
  induction b with
  | nil => rfl
  | cons x b ih =>
    simp only [halves, List.flatMap_cons, List.length_append, List.length_cons] at ih ⊢
    simp only [List.length_nil]
    omega

theorem map_digit_halves (b : Bytes) : (halves b).map digit = b.flatMap byteDigits := by
  simp only [halves, List.map_flatMap, List.map_cons, List.map_nil]
  rfl

/-- Characters spell bytes if in lower case they are their digits. -/
def Spells (cs : List Char) (b : Bytes) : Prop := cs.map Char.toLower = b.flatMap byteDigits

instance (cs : List Char) (b : Bytes) : Decidable (Spells cs b) :=
  inferInstanceAs (Decidable (_ = _))

/-- Characters are digits of given values exactly if their bytes are. -/
theorem map_value?_utf8 {cs : List Char} {ns : List Nat} (small : ∀ n ∈ ns, n < 16) :
    (cs.flatMap String.utf8EncodeChar).map value? = ns.map some ↔
      cs.map Char.toLower = ns.map digit := by
  induction cs generalizing ns with
  | nil => cases ns <;> simp
  | cons c cs ih =>
    obtain ⟨x, rest, hx, hv⟩ := value?_character c
    cases ns with
    | nil => simp [hx]
    | cons n ns =>
      obtain ⟨hd, hs⟩ := hv n (small n List.mem_cons_self)
      simp only [List.flatMap_cons, hx, List.cons_append, List.map_cons, List.cons.injEq]
      rw [← hd]
      constructor
      · rintro ⟨h, ht⟩
        rw [hs h, List.nil_append] at ht
        exact ⟨h, (ih fun m hm => small m (List.mem_cons_of_mem _ hm)).1 ht⟩
      · rintro ⟨h, ht⟩
        rw [hs h, List.nil_append]
        exact ⟨h, (ih fun m hm => small m (List.mem_cons_of_mem _ hm)).2 ht⟩

/-! ## Reading -/

/-- Two values below sixteen are the halves of exactly one byte. -/
theorem halves_of_pair {h l : Nat} (hh : h < 16) (hl : l < 16) (x : UInt8) :
    UInt8.ofNat (16 * h + l) = x ↔ h = x.toNat / 16 ∧ l = x.toNat % 16 := by
  rw [← UInt8.toNat_inj, UInt8.toNat_ofNat']
  have := x.toNat_lt
  omega

theorem decodePairs_ne_nil {position : Nat} {hi lo : UInt8} {rest : Bytes} :
    decodePairs position (hi :: lo :: rest) ≠ .ok [] := by
  rw [decodePairs]
  split
  · simp
  · simp
  · split <;> simp

theorem decodePairs_eq_cons_iff {position : Nat} {hi lo x : UInt8} {rest b : Bytes} :
    decodePairs position (hi :: lo :: rest) = .ok (x :: b) ↔ value? hi = some (x.toNat / 16) ∧
      value? lo = some (x.toNat % 16) ∧ decodePairs (position + 2) rest = .ok b := by
  rw [decodePairs]
  cases hhi : value? hi with
  | none => simp
  | some h =>
    cases hlo : value? lo with
    | none => simp
    | some l =>
      have hx := halves_of_pair (value?_lt hhi) (value?_lt hlo) x
      cases decodePairs (position + 2) rest with
      | error e => simp
      | ok more =>
        simp only [Except.ok.injEq, List.cons.injEq, Option.some.injEq, hx, and_assoc]

theorem decodePairs_eq_ok_iff : ∀ (position : Nat) (bs b : Bytes),
    decodePairs position bs = .ok b ↔ bs.map value? = (halves b).map some
  | _, [], b => by cases b <;> simp [decodePairs, halves]
  | _, [_], b => by cases b <;> simp [decodePairs, halves]
  | _, hi :: lo :: rest, [] => by simp [decodePairs_ne_nil, halves]
  | position, hi :: lo :: rest, x :: b => by
    rw [decodePairs_eq_cons_iff, decodePairs_eq_ok_iff (position + 2) rest b]
    simp [halves]

/-- **Reading gives bytes exactly if the text spells them.** -/
theorem decode_eq_ok_iff {s : String} {b : Bytes} : decode s = .ok b ↔ Spells s.toList b := by
  have pairs : decodePairs 0 (utf8 s) = .ok b ↔ Spells s.toList b := by
    rw [decodePairs_eq_ok_iff, utf8, map_value?_utf8 fun _ => lt_of_mem_halves, map_digit_halves,
      Spells]
  rw [← pairs]
  simp only [decode]
  split
  · rename_i odd
    -- An odd number of bytes is never read in pairs, so nothing is lost by refusing it first.
    simp only [reduceCtorEq, false_iff]
    intro h
    have hl := congrArg List.length ((decodePairs_eq_ok_iff _ _ _).1 h)
    simp only [List.length_map, length_halves] at hl
    omega
  · rfl

/-- A text is read as a given number of octets exactly if it spells them. -/
theorem exists_octets_iff {n : Nat} {s : String} {a : Octets n} :
    (∃ b, decode s = .ok b ∧ Octets.ofBytes? n b = some a) ↔ Spells s.toList a.bytes := by
  simp only [decode_eq_ok_iff, Octets.ofBytes?_eq_some_iff]
  constructor
  · rintro ⟨b, h, rfl⟩
    exact h
  · intro h
    exact ⟨a.bytes, h, rfl⟩

/-- A text that spells bytes has two bytes for each of them, and as many characters. -/
theorem Spells.utf8ByteSize {s : String} {b : Bytes} (h : Spells s.toList b) :
    s.utf8ByteSize = 2 * b.length := by
  rw [Spells, ← map_digit_halves, ← map_value?_utf8 fun _ => lt_of_mem_halves] at h
  have hl := congrArg List.length h
  rwa [List.length_map, List.length_map, length_halves, ← utf8, length_utf8] at hl

theorem spells_encode (b : Bytes) : Spells (encode b).toList b := by
  rw [Spells, encode, String.toList_ofList, ← map_digit_halves, List.map_map]
  refine List.map_congr_left fun n hn => ?_
  exact toLower_digit n (lt_of_mem_halves hn)

@[simp] theorem decode_encode (b : Bytes) : decode (encode b) = .ok b :=
  decode_eq_ok_iff.2 (spells_encode b)

/-! ## Which texts are digits -/

/-- The characters that are digits. -/
def alphabet : List Char := "0123456789abcdefABCDEF".toList

theorem mem_alphabet_iff {c : Char} : c ∈ alphabet ↔ ∃ n < 16, c.toLower = digit n := by
  have table : ∀ k < 128, Char.ofNat k ∈ alphabet ↔
      ∃ n < 16, (Char.ofNat k).toLower = digit n := by decide +kernel
  by_cases h : c.toNat < 128
  · have := table c.toNat h
    rwa [Char.ofNat_toNat] at this
  · rw [toLower_of_not_ascii (Nat.not_lt.1 h)]
    constructor
    · intro hc
      have ascii : alphabet.all (fun d => decide (d.toNat < 128)) = true := by decide
      exact absurd (of_decide_eq_true (List.all_eq_true.1 ascii c hc)) h
    · rintro ⟨n, hn, rfl⟩
      exact absurd (digit_ascii n hn) h

theorem Spells.mem_alphabet {cs : List Char} {b : Bytes} (h : Spells cs b) {c : Char}
    (hc : c ∈ cs) : c ∈ alphabet := by
  have hm : c.toLower ∈ (halves b).map digit := by
    rw [map_digit_halves, ← h]
    exact List.mem_map_of_mem hc
  obtain ⟨n, hn, he⟩ := List.mem_map.1 hm
  exact mem_alphabet_iff.2 ⟨n, lt_of_mem_halves hn, he.symm⟩

/-- Characters spell some bytes exactly if they are digits and there are two for each byte. -/
theorem exists_spells_iff {cs : List Char} {n : Nat} :
    (∃ b : Bytes, Spells cs b ∧ b.length = n) ↔ cs.length = 2 * n ∧ ∀ c ∈ cs, c ∈ alphabet := by
  constructor
  · rintro ⟨b, h, rfl⟩
    refine ⟨?_, fun c hc => h.mem_alphabet hc⟩
    rw [Spells, ← map_digit_halves] at h
    have := congrArg List.length h
    rwa [List.length_map, List.length_map, length_halves] at this
  · rintro ⟨length, digits⟩
    induction n generalizing cs with
    | zero =>
      obtain rfl := List.length_eq_zero_iff.1 length
      exact ⟨[], rfl, rfl⟩
    | succ n ih =>
      obtain ⟨c, d, rest, rfl⟩ : ∃ c d rest, cs = c :: d :: rest := by
        match cs, length with
        | [_], h => simp at h; omega
        | c :: d :: rest, _ => exact ⟨c, d, rest, rfl⟩
      simp only [List.forall_mem_cons, List.length_cons] at digits length
      obtain ⟨hc, hd, digits⟩ := digits
      obtain ⟨h, hh, hc⟩ := mem_alphabet_iff.1 hc
      obtain ⟨l, hl, hd⟩ := mem_alphabet_iff.1 hd
      obtain ⟨b, hb, rfl⟩ := ih (by omega) digits
      obtain ⟨high, low⟩ := (halves_of_pair hh hl _).1 rfl
      refine ⟨UInt8.ofNat (16 * h + l) :: b, ?_, rfl⟩
      rw [Spells, List.map_cons, List.map_cons, List.flatMap_cons, hc, hd, hb, byteDigits, ← high,
        ← low]
      rfl

/-! ## Refusals -/

/-- Whether a byte is the code of a digit. -/
def isDigit (b : UInt8) : Bool := alphabet.any fun c => decide (c.toNat = b.toNat)

theorem value?_eq_none_iff {b : UInt8} : value? b = none ↔ isDigit b = false := by
  have table : ∀ k < 256, value? (UInt8.ofNat k) = none ↔ isDigit (UInt8.ofNat k) = false := by
    decide +kernel
  have hb : UInt8.ofNat b.toNat = b := UInt8.ofNat_toNat
  rw [← hb]
  exact table b.toNat b.toNat_lt

theorem isDigit_of_value? {b : UInt8} {n : Nat} (h : value? b = some n) : isDigit b = true := by
  cases hb : isDigit b with
  | true => rfl
  | false =>
    rw [value?_eq_none_iff.2 hb] at h
    cases h

/-- The first byte of a byte string that is no digit, with its place. -/
def FirstBad (bs : Bytes) (bad : UInt8) (place : Nat) : Prop :=
  ∃ front rest, bs = front ++ bad :: rest ∧ front.length = place ∧
    (∀ b ∈ front, isDigit b = true) ∧ isDigit bad = false

theorem firstBad_nil {bad : UInt8} {place : Nat} : ¬FirstBad [] bad place := by
  rintro ⟨front, rest, h, -⟩
  cases front <;> cases h

theorem firstBad_cons_of_bad {b bad : UInt8} {bs : Bytes} {place : Nat} (hb : isDigit b = false) :
    FirstBad (b :: bs) bad place ↔ bad = b ∧ place = 0 := by
  constructor
  · rintro ⟨front, rest, h, rfl, digits, hbad⟩
    cases front with
    | nil =>
      cases h
      exact ⟨rfl, rfl⟩
    | cons x front =>
      cases h
      rw [digits b List.mem_cons_self] at hb
      cases hb
  · rintro ⟨rfl, rfl⟩
    exact ⟨[], bs, rfl, rfl, nofun, hb⟩

theorem firstBad_cons_of_digit {b bad : UInt8} {bs : Bytes} {place : Nat} (hb : isDigit b = true) :
    FirstBad (b :: bs) bad place ↔ ∃ p, place = p + 1 ∧ FirstBad bs bad p := by
  constructor
  · rintro ⟨front, rest, h, rfl, digits, hbad⟩
    cases front with
    | nil =>
      cases h
      rw [hb] at hbad
      cases hbad
    | cons x front =>
      cases h
      exact ⟨_, rfl, front, rest, rfl, rfl, fun y hy => digits y (List.mem_cons_of_mem _ hy), hbad⟩
  · rintro ⟨p, rfl, front, rest, rfl, rfl, digits, hbad⟩
    exact ⟨b :: front, rest, rfl, rfl, List.forall_mem_cons.2 ⟨hb, digits⟩, hbad⟩

/-- An even number of bytes is refused for the first of them that is no digit. -/
theorem decodePairs_eq_error_iff : ∀ (position : Nat) (bs : Bytes) (e : Error), bs.length % 2 = 0 →
    (decodePairs position bs = .error e ↔
      ∃ bad place, FirstBad bs bad place ∧ e = .invalidCharacter bad (position + place))
  | _, [], e, _ => by simp [decodePairs, firstBad_nil]
  | _, [_], e, h => by simp at h
  | position, hi :: lo :: rest, e, h => by
    have even : rest.length % 2 = 0 := by
      simp only [List.length_cons] at h
      omega
    rw [decodePairs]
    cases hhi : value? hi with
    | none =>
      have bad := value?_eq_none_iff.1 hhi
      simp only [firstBad_cons_of_bad bad, Except.error.injEq]
      constructor
      · rintro rfl
        exact ⟨hi, 0, ⟨rfl, rfl⟩, rfl⟩
      · rintro ⟨_, _, ⟨rfl, rfl⟩, rfl⟩
        rfl
    | some m =>
      have digit := isDigit_of_value? hhi
      simp only [firstBad_cons_of_digit digit]
      cases hlo : value? lo with
      | none =>
        have bad := value?_eq_none_iff.1 hlo
        simp only [firstBad_cons_of_bad bad, Except.error.injEq]
        constructor
        · rintro rfl
          exact ⟨lo, 1, ⟨0, rfl, rfl, rfl⟩, rfl⟩
        · rintro ⟨_, _, ⟨_, rfl, rfl, rfl⟩, rfl⟩
          rfl
      | some l =>
        have digit' := isDigit_of_value? hlo
        have later := decodePairs_eq_error_iff (position + 2) rest e even
        simp only [firstBad_cons_of_digit digit']
        have moved : (∃ bad place, FirstBad rest bad place ∧
            e = .invalidCharacter bad (position + 2 + place)) ↔
            ∃ bad place, (∃ p, place = p + 1 ∧ ∃ q, p = q + 1 ∧ FirstBad rest bad q) ∧
              e = .invalidCharacter bad (position + place) := by
          constructor
          · rintro ⟨bad, place, first, rfl⟩
            refine ⟨bad, place + 1 + 1, ⟨_, rfl, _, rfl, first⟩, ?_⟩
            rw [show position + 2 + place = position + (place + 1 + 1) by omega]
          · rintro ⟨bad, _, ⟨_, rfl, q, rfl, first⟩, rfl⟩
            refine ⟨bad, q, first, ?_⟩
            rw [show position + 2 + q = position + (q + 1 + 1) by omega]
        rw [← moved, ← later]
        cases decodePairs (position + 2) rest <;> simp

theorem exists_firstBad_iff {bs : Bytes} :
    (∃ bad place, FirstBad bs bad place) ↔ ∃ b ∈ bs, isDigit b = false := by
  constructor
  · rintro ⟨bad, place, front, rest, rfl, -, -, hbad⟩
    exact ⟨bad, List.mem_append_right _ List.mem_cons_self, hbad⟩
  · intro h
    induction bs with
    | nil =>
      obtain ⟨b, hb, -⟩ := h
      cases hb
    | cons x bs ih =>
      cases hx : isDigit x with
      | false => exact ⟨x, 0, (firstBad_cons_of_bad hx).2 ⟨rfl, rfl⟩⟩
      | true =>
        have later : ∃ b ∈ bs, isDigit b = false := by
          obtain ⟨b, hb, hbad⟩ := h
          rcases List.mem_cons.1 hb with rfl | hb
          · rw [hx] at hbad
            cases hbad
          · exact ⟨b, hb, hbad⟩
        obtain ⟨bad, place, first⟩ := ih later
        exact ⟨bad, place + 1, (firstBad_cons_of_digit hx).2 ⟨place, rfl, first⟩⟩

/-- **A text is refused for its odd size before it is refused for a byte that is no digit.** -/
theorem decode_eq_error_iff {s : String} {e : Error} : decode s = .error e ↔
    (utf8 s).length % 2 = 1 ∧ e = .oddLength ∨ (utf8 s).length % 2 = 0 ∧
      ∃ bad place, FirstBad (utf8 s) bad place ∧ e = .invalidCharacter bad place := by
  simp only [decode]
  split
  · rename_i odd
    simp only [odd, Except.error.injEq, eq_comm, true_and]
    simp
  · rename_i even
    have even : (utf8 s).length % 2 = 0 := by omega
    rw [decodePairs_eq_error_iff 0 (utf8 s) e even]
    simp [even]

/-- Which texts are refused. -/
theorem exists_decode_eq_error_iff {s : String} : (∃ e, decode s = .error e) ↔
    (utf8 s).length % 2 = 1 ∨ ∃ b ∈ utf8 s, isDigit b = false := by
  simp only [decode_eq_error_iff, ← exists_firstBad_iff]
  constructor
  · rintro ⟨e, ⟨odd, -⟩ | ⟨-, bad, place, first, -⟩⟩
    · exact .inl odd
    · exact .inr ⟨bad, place, first⟩
  · intro h
    rcases Nat.mod_two_eq_zero_or_one (utf8 s).length with even | odd
    · obtain ⟨bad, place, first⟩ := h.resolve_left (by omega)
      exact ⟨_, .inr ⟨even, bad, place, first, rfl⟩⟩
    · exact ⟨_, .inl ⟨odd, rfl⟩⟩

/-- Which texts are read as so many bytes. -/
theorem exists_decode_length_iff {s : String} {n : Nat} :
    (∃ b, decode s = .ok b ∧ b.length = n) ↔
      (utf8 s).length = 2 * n ∧ ∀ b ∈ utf8 s, isDigit b = true := by
  have refused := exists_decode_eq_error_iff (s := s)
  constructor
  · rintro ⟨b, read, rfl⟩
    have size := (decode_eq_ok_iff.1 read).utf8ByteSize
    refine ⟨by rw [length_utf8, size], ?_⟩
    intro x hx
    cases digit : isDigit x with
    | true => rfl
    | false =>
      obtain ⟨e, fails⟩ := refused.2 (.inr ⟨x, hx, digit⟩)
      rw [read] at fails
      cases fails
  · rintro ⟨size, digits⟩
    cases read : decode s with
    | error e =>
      rcases refused.1 ⟨e, read⟩ with odd | ⟨x, hx, bad⟩
      · omega
      · rw [digits x hx] at bad
        cases bad
    | ok b =>
      have length := (decode_eq_ok_iff.1 read).utf8ByteSize
      rw [← length_utf8, size] at length
      exact ⟨b, rfl, by omega⟩

/-! ## Characters -/

/-- A character is a digit if all its bytes are. -/
theorem digits_character_iff {c : Char} :
    (∀ b ∈ String.utf8EncodeChar c, isDigit b = true) ↔ c ∈ alphabet := by
  obtain ⟨x, rest, hx, hv⟩ := value?_character c
  rw [hx, mem_alphabet_iff]
  constructor
  · intro digits
    cases value : value? x with
    | none =>
      have first := digits x List.mem_cons_self
      rw [value?_eq_none_iff.1 value] at first
      cases first
    | some n =>
      have small := value?_lt value
      exact ⟨n, small, (hv n small).1.1 value⟩
  · rintro ⟨n, small, named⟩
    obtain ⟨value_iff, whole⟩ := hv n small
    have value := value_iff.2 named
    rw [whole value]
    simpa using isDigit_of_value? value

/-- All bytes of a text are digits exactly if all its characters are. -/
theorem digits_utf8_iff {s : String} :
    (∀ b ∈ utf8 s, isDigit b = true) ↔ ∀ c ∈ s.toList, c ∈ alphabet := by
  simp only [utf8, List.forall_mem_flatMap, digits_character_iff]

end Hex
end SealedPost.Text
