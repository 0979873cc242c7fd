import SealedPost.Proofs.Keyring

/-!
# Which slots load

Each loader is held to what its slots say. Keys load from the base64 of exactly their bytes, with
white space around it, and only where the halves fit together; all else loads as absent. The seed is
the one that tells a slot that is empty from one that cannot be read. `loads_exactly` says both, for
any five texts.
-/

namespace SealedPost.Keyring
open Text

/-! ## One slot -/

/-- A slot holds this text, with white space around it. -/
def Holds (slots : IdentitySlots) (slot : IdentitySlot) (core : String) : Prop :=
  ∃ text, slots.get? slot = some text ∧ Surrounds text core

/-- A slot holds these bytes as base64. -/
def Encodes {n : Nat} (slots : IdentitySlots) (slot : IdentitySlot) (b : Octets n) : Prop :=
  Holds slots slot (Base64.encode b.bytes)

theorem slotOctets?_eq_some_iff {n : Nat} {slots : IdentitySlots} {slot : IdentitySlot}
    {b : Octets n} : slotOctets? n slots slot = some b ↔ Encodes slots slot b := by
  simp only [slotOctets?, Option.bind_eq_bind, Option.bind_eq_some_iff,
    Base64.decode?_eq_some_iff, Octets.ofBytes?_eq_some_iff]
  constructor
  · rintro ⟨text, held, read, trimmed, rfl⟩
    exact ⟨text, held, (trim_eq_iff Base64.isBlank_encode).1 trimmed⟩
  · rintro ⟨text, held, around⟩
    exact ⟨text, held, b.bytes, (trim_eq_iff Base64.isBlank_encode).2 around, rfl⟩

/-! ## The seed -/

/-- A text of 32 digits, in either case. -/
def IsSeedText (s : String) : Prop := s.toList.length = 32 ∧ ∀ c ∈ s.toList, c ∈ Hex.alphabet

theorem isSeedText_iff {s : String} :
    IsSeedText s ↔ ∃ seed : Seed, Hex.Spells s.toList seed.octets.bytes := by
  rw [IsSeedText, ← Hex.exists_spells_iff (n := 16)]
  constructor
  · rintro ⟨b, spells, length⟩
    exact ⟨⟨⟨b, length⟩⟩, spells⟩
  · rintro ⟨seed, spells⟩
    exact ⟨seed.octets.bytes, spells, seed.octets.length_bytes⟩

/-- The text of a slot is trimmed twice, and nothing more comes off the second time. -/
theorem ofHex_trim_eq_ok_iff {text : String} {seed : Seed} :
    Seed.ofHex (trim text) = .ok seed ↔
      ∃ digits, Surrounds text digits ∧ Hex.Spells digits.toList seed.octets.bytes := by
  rw [Seed.ofHex_trim, Seed.ofHex_eq_ok_iff]
  constructor
  · intro spells
    exact ⟨_, surrounds_trim text, spells⟩
  · rintro ⟨digits, around, spells⟩
    rwa [around.trim_eq spells.isBlank]

theorem loadSeed_eq_none_iff {slots : IdentitySlots} :
    loadSeed slots = .ok none ↔ slots.get? .seed = none := by
  unfold loadSeed
  cases slots.get? .seed with
  | none => simp
  | some text => cases h : Seed.ofHex (trim text) <;> simp [h]

theorem loadSeed_eq_some_iff {slots : IdentitySlots} {seed : Seed} :
    loadSeed slots = .ok (some seed) ↔
      ∃ digits, Holds slots .seed digits ∧ Hex.Spells digits.toList seed.octets.bytes := by
  have read : loadSeed slots = .ok (some seed) ↔
      ∃ text, slots.get? .seed = some text ∧ Seed.ofHex (trim text) = .ok seed := by
    unfold loadSeed
    cases slots.get? .seed with
    | none => simp
    | some text => cases h : Seed.ofHex (trim text) <;> simp [h]
  simp only [read, ofHex_trim_eq_ok_iff]
  constructor
  · rintro ⟨text, held, digits, around, spells⟩
    exact ⟨digits, ⟨text, held, around⟩, spells⟩
  · rintro ⟨digits, ⟨text, held, around⟩, spells⟩
    exact ⟨text, held, digits, around, spells⟩

/-- What is refused is neither absent nor a seed. -/
theorem loadSeed_fails_iff {slots : IdentitySlots} :
    (∃ reason, loadSeed slots = .error reason) ↔
      slots.get? .seed ≠ none ∧ ∀ digits, Holds slots .seed digits → ¬ IsSeedText digits := by
  constructor
  · rintro ⟨reason, fails⟩
    refine ⟨fun absent => ?_, fun digits held seedText => ?_⟩
    · simp [loadSeed_eq_none_iff.2 absent] at fails
    · obtain ⟨seed, spells⟩ := isSeedText_iff.1 seedText
      simp [loadSeed_eq_some_iff.2 ⟨digits, held, spells⟩] at fails
  · rintro ⟨present, unreadable⟩
    cases h : loadSeed slots with
    | error reason => exact ⟨reason, rfl⟩
    | ok loaded =>
      cases loaded with
      | none => exact absurd (loadSeed_eq_none_iff.1 h) present
      | some seed =>
        obtain ⟨digits, held, spells⟩ := loadSeed_eq_some_iff.1 h
        exact absurd (isSeedText_iff.2 ⟨seed, spells⟩) (unreadable digits held)

/-! ## The keys -/

theorem hasIdentity_iff {slots : IdentitySlots} :
    hasIdentity slots = true ↔ ∃ text, slots.get? .signingSecret = some text := by
  rw [hasIdentity, Option.isSome_iff_exists]

variable [Curve]

/-- The slots hold the two halves of a pair, and the one is the public key of the other. -/
def HoldPair (slots : IdentitySlots) (secret shown : Octets 32) : Prop :=
  Encodes slots .identityPublic shown ∧ Encodes slots .identityPrivate secret ∧
    publicKeyOf secret = shown

/-- The slots hold a signing seed followed by its public key. -/
def HoldSigningKey (slots : IdentitySlots) (seed shown : Octets 32) : Prop :=
  Encodes slots .signingSecret (Octets.append (m := 32) (n := 32) seed shown) ∧
    Signature.publicOf seed = shown

theorem loadPair?_eq_some_iff {slots : IdentitySlots} {pair : KeyPair} :
    loadPair? slots = some pair ↔ HoldPair slots pair.secret pair.publicKey := by
  simp only [loadPair?, Option.bind_eq_bind, Option.bind_eq_some_iff, slotOctets?_eq_some_iff,
    toOption_eq_some_iff, KeyPair.ofParts_eq_ok_iff]
  constructor
  · rintro ⟨shown, first, secret, second, rfl, rfl⟩
    exact ⟨first, second, rfl⟩
  · rintro ⟨first, second, fits⟩
    exact ⟨_, first, _, second, KeyPair.ext rfl, fits.symm⟩

theorem loadSigningKey?_eq_some_iff {slots : IdentitySlots} {key : SigningKey} :
    loadSigningKey? slots = some key ↔ HoldSigningKey slots key.seed key.publicKey := by
  simp only [loadSigningKey?, Option.bind_eq_some_iff, slotOctets?_eq_some_iff]
  constructor
  · rintro ⟨b, held, read⟩
    obtain rfl : b = key.toBytes := SigningKey.ofBytes?_eq_some_iff.1 read
    exact ⟨held, key.publicKey_eq.symm⟩
  · rintro ⟨held, -⟩
    exact ⟨key.toBytes, held, SigningKey.ofBytes?_toBytes key⟩

/-! ## All of them -/

/-- What loads from the slots, and from which. -/
structure LoadsExactly (slots : IdentitySlots) : Prop where
  pair : ∀ secret shown,
    (∃ pair, loadPair? slots = some pair ∧ pair.secret = secret ∧ pair.publicKey = shown) ↔
      HoldPair slots secret shown
  noPair : loadPair? slots = none ↔ ∀ secret shown, ¬ HoldPair slots secret shown
  signingKey : ∀ seed shown,
    (∃ key, loadSigningKey? slots = some key ∧ key.seed = seed ∧ key.publicKey = shown) ↔
      HoldSigningKey slots seed shown
  noSigningKey : loadSigningKey? slots = none ↔ ∀ seed shown, ¬ HoldSigningKey slots seed shown
  /-- There is an identity also where the signing secret cannot be read. -/
  known : hasIdentity slots = true ↔ ∃ text, slots.get? .signingSecret = some text
  seed : ∀ seed, loadSeed slots = .ok (some seed) ↔
    ∃ digits, Holds slots .seed digits ∧ Hex.Spells digits.toList seed.octets.bytes
  noSeed : loadSeed slots = .ok none ↔ slots.get? .seed = none
  unreadable : (∃ reason, loadSeed slots = .error reason) ↔
    slots.get? .seed ≠ none ∧ ∀ digits, Holds slots .seed digits → ¬ IsSeedText digits

/-- **What loads is what the slots say, whatever they hold.** A pair loads exactly from two slots
with the base64 of 32 bytes each, of which the one is the public key of the other, and a signing key
exactly from the base64 of a seed and its public key; anything else loads as absent, although a
signing secret that cannot be read counts as an identity. A seed loads from 32 digits, an empty slot
is no error, and any other text is one. -/
theorem loads_exactly (slots : IdentitySlots) : LoadsExactly slots where
  pair secret shown := by
    simp only [loadPair?_eq_some_iff]
    constructor
    · rintro ⟨pair, held, rfl, rfl⟩
      exact held
    · intro held
      exact ⟨⟨secret, shown, held.2.2.symm⟩, held, rfl, rfl⟩
  noPair := by
    rw [Option.eq_none_iff_forall_ne_some]
    constructor
    · intro absent secret shown held
      exact absent ⟨secret, shown, held.2.2.symm⟩ (loadPair?_eq_some_iff.2 held)
    · intro none pair loaded
      exact none _ _ (loadPair?_eq_some_iff.1 loaded)
  signingKey seed shown := by
    simp only [loadSigningKey?_eq_some_iff]
    constructor
    · rintro ⟨key, held, rfl, rfl⟩
      exact held
    · intro held
      exact ⟨⟨seed, shown, held.2.symm⟩, held, rfl, rfl⟩
  noSigningKey := by
    rw [Option.eq_none_iff_forall_ne_some]
    constructor
    · intro absent seed shown held
      exact absent ⟨seed, shown, held.2.symm⟩ (loadSigningKey?_eq_some_iff.2 held)
    · intro none key loaded
      exact none _ _ (loadSigningKey?_eq_some_iff.1 loaded)
  known := hasIdentity_iff
  seed _ := loadSeed_eq_some_iff
  noSeed := loadSeed_eq_none_iff
  unreadable := loadSeed_fails_iff

end SealedPost.Keyring
