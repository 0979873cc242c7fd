import SealedPost.CommandLine.Execution
import SealedPost.Proofs.Identity.KeyLanguage
import SealedPost.Proofs.Keyring.Loading

/-!
# The language of seeds

A seed passes through the hands of its owner as text. What is read is the text without the white
space at its ends, and that is a seed exactly if it is 32 digits, told again in lower case. Any other
text is refused for its encoding first and for its length only then. `seeds_read_exactly` says so
for all texts, and that whoever trims a text before it is read changes nothing.
-/

namespace SealedPost.Seed
open Text

/-! ## Bytes -/

theorem ofBytes_eq_ok_iff {b : Bytes} {seed : Seed} :
    ofBytes b = .ok seed ↔ seed.octets.bytes = b := by
  obtain ⟨octets⟩ := seed
  rw [ofBytes, ← Octets.ofBytes?_eq_some_iff]
  cases Octets.ofBytes? 16 b <;> simp

theorem ofBytes_eq_error_iff {b : Bytes} {reason : IdentityError} :
    ofBytes b = .error reason ↔ b.length ≠ 16 ∧ reason = .seedLength b.length := by
  by_cases length : b.length = 16
  · simp [ofBytes, Octets.ofBytes?, length]
  · simp [ofBytes, Octets.ofBytes?, length, eq_comm]

theorem exists_ofBytes_iff {b : Bytes} : (∃ seed, ofBytes b = .ok seed) ↔ b.length = 16 := by
  constructor
  · rintro ⟨seed, read⟩
    rw [← ofBytes_eq_ok_iff.1 read, Octets.length_bytes]
  · intro length
    exact ⟨⟨⟨b, length⟩⟩, ofBytes_eq_ok_iff.2 rfl⟩

/-! ## Texts -/

/-- A seed is told by the digits that it is read from, in lower case. -/
theorem ofHex_eq_ok_iff_toHex {s : String} {seed : Seed} :
    ofHex s = .ok seed ↔ seed.toHex = KeyText.lower (trim s).toList := by
  rw [ofHex_eq_ok_iff, ← KeyText.lower_eq_encode_iff, toHex, eq_comm]

theorem exists_ofHex_iff {s : String} :
    (∃ seed, ofHex s = .ok seed) ↔ Keyring.IsSeedText (trim s) := by
  simp only [ofHex_eq_ok_iff, Keyring.isSeedText_iff]

/-- A text that is refused is no hexadecimal, or is that of too many bytes or too few. -/
theorem ofHex_eq_error_iff {s : String} {reason : IdentityError} :
    ofHex s = .error reason ↔
      reason = .seedEncoding ∧ (∃ e, Hex.decode (trim s) = .error e) ∨
        ∃ n ≠ 16, reason = .seedLength n ∧ ∃ b, Hex.decode (trim s) = .ok b ∧ b.length = n := by
  rw [ofHex]
  cases Hex.decode (trim s) with
  | error e => simp [eq_comm]
  | ok b =>
    simp only [ofBytes_eq_error_iff, reduceCtorEq, exists_false, and_false, false_or,
      Except.ok.injEq, exists_eq_left']
    constructor
    · rintro ⟨other, rfl⟩
      exact ⟨_, other, rfl, rfl⟩
    · rintro ⟨n, other, rfl, rfl⟩
      exact ⟨other, rfl⟩

theorem ofHex_eq_seedEncoding_iff {s : String} : ofHex s = .error .seedEncoding ↔
    (utf8 (trim s)).length % 2 = 1 ∨ ∃ c ∈ (trim s).toList, c ∉ Hex.alphabet := by
  have digits : (∃ b ∈ utf8 (trim s), Hex.isDigit b = false) ↔
      ∃ c ∈ (trim s).toList, c ∉ Hex.alphabet := by
    simpa using not_congr (Hex.digits_utf8_iff (s := trim s))
  rw [ofHex_eq_error_iff, Hex.exists_decode_eq_error_iff, digits]
  simp

theorem ofHex_eq_seedLength_iff {s : String} {n : Nat} : ofHex s = .error (.seedLength n) ↔
    (utf8 (trim s)).length = 2 * n ∧ (∀ c ∈ (trim s).toList, c ∈ Hex.alphabet) ∧ n ≠ 16 := by
  rw [← Hex.digits_utf8_iff, ← and_assoc, ← Hex.exists_decode_length_iff, ofHex_eq_error_iff]
  constructor
  · rintro (⟨⟨⟩, -⟩ | ⟨_, other, ⟨⟩, read⟩)
    exact ⟨read, other⟩
  · rintro ⟨read, other⟩
    exact .inr ⟨n, other, rfl, read⟩

/-! ## The codec -/

/-- What a text is read as, and why it is refused. -/
structure ReadsExactly (s : String) : Prop where
  /-- It is the text without the white space at its ends that counts. -/
  trimmed : ∀ core, trim s = core ↔ Surrounds s core ∧ Tight core.toList
  accepted : (∃ seed, ofHex s = .ok seed) ↔ Keyring.IsSeedText (trim s)
  told : ∀ seed, ofHex s = .ok seed → seed.toHex = KeyText.lower (trim s).toList
  notHex : ofHex s = .error .seedEncoding ↔
    (utf8 (trim s)).length % 2 = 1 ∨ ∃ c ∈ (trim s).toList, c ∉ Hex.alphabet
  wrongLength : ∀ n, ofHex s = .error (.seedLength n) ↔
    (utf8 (trim s)).length = 2 * n ∧ (∀ c ∈ (trim s).toList, c ∈ Hex.alphabet) ∧ n ≠ 16
  /-- No other reason is ever given; this is what is said. -/
  wording : ∀ reason, ofHex s = .error reason → reason = .seedEncoding ∨
    reason.message = "invalid seed length: expected 16, got " ++
      toString ((utf8 (trim s)).length / 2)
  again : ofHex (trim s) = ofHex s

theorem readsExactly (s : String) : ReadsExactly s where
  trimmed _ := trim_eq_iff_tight
  accepted := exists_ofHex_iff
  told _ := ofHex_eq_ok_iff_toHex.1
  notHex := ofHex_eq_seedEncoding_iff
  wrongLength _ := ofHex_eq_seedLength_iff
  wording reason refused := by
    rcases ofHex_eq_error_iff.1 refused with ⟨rfl, -⟩ | ⟨n, -, rfl, -⟩
    · exact .inl rfl
    · obtain ⟨size, -⟩ := ofHex_eq_seedLength_iff.1 refused
      have half : (utf8 (trim s)).length / 2 = n := by omega
      rw [half]
      exact .inr rfl
  again := ofHex_trim s

/-- **Exactly the seeds are read as seeds.** A text is read as a seed exactly if it is 32 digits of
either case with white space around them, and then the seed is told by these digits in lower case. A
text that is no hexadecimal, for its odd size in bytes or for a character that is no digit, is
refused as such, and any other for its length, which is half its size. A seed is read back from its
digits and from its bytes, and from bytes of any other number it is not. A stored text and one that is
given to a command are trimmed once more, and read all the same. -/
theorem seeds_read_exactly :
    (∀ s, ReadsExactly s) ∧
    (∀ seed, ofHex seed.toHex = .ok seed) ∧
    (∀ b, ((∃ seed, ofBytes b = .ok seed) ↔ b.length = 16) ∧
      (∀ seed, ofBytes b = .ok seed ↔ seed.octets.bytes = b) ∧
      ∀ reason, ofBytes b = .error reason ↔ b.length ≠ 16 ∧ reason = .seedLength b.length) ∧
    (∀ slots : IdentitySlots, Keyring.loadSeed slots =
      match slots.get? .seed with
      | none => .ok none
      | some text => ((ofHex text).map some).mapError .identity) ∧
    ∀ text, CommandLine.seedOf text = (ofHex text).mapError .seed := by
  refine ⟨readsExactly, ofHex_toHex, ?bytes, ?loaded, ?given⟩
  case bytes =>
    intro b
    exact ⟨exists_ofBytes_iff, fun _ => ofBytes_eq_ok_iff, fun _ => ofBytes_eq_error_iff⟩
  case loaded =>
    intro slots
    cases held : slots.get? .seed with
    | none => simp only [Keyring.loadSeed, held]
    | some text =>
      simp only [Keyring.loadSeed, held, ofHex_trim]
      cases ofHex text <;> rfl
  case given =>
    intro text
    rw [CommandLine.seedOf, ofHex_trim]

end SealedPost.Seed
