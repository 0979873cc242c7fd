import SealedPost.Keyring
import SealedPost.Proofs.Text.Blank

/-!
# What a stored identity reads back as

Saving writes a prefix of what there is to save, all of it if nothing is reported
(`IdentitySlots.saveAll_some`). A whole identity fills every slot, so that nothing is left of what
was stored before (`Keyring.restore_ok`), and both keys load again as they were derived.
-/

namespace SealedPost

theorem toOption_eq_some_iff {ε α : Type} {result : Except ε α} {a : α} :
    result.toOption = some a ↔ result = .ok a := by
  cases result <;> simp [Except.toOption]

/-! ## Identities -/

/-- A text gives a seed exactly if it is its digits, in either case, with white space around
them. -/
theorem Seed.ofHex_eq_ok_iff {text : String} {seed : Seed} :
    Seed.ofHex text = .ok seed ↔
      Text.Hex.Spells (Text.trim text).toList seed.octets.bytes := by
  rw [← Text.Hex.exists_octets_iff, Seed.ofHex]
  cases Text.Hex.decode (Text.trim text) with
  | error reason => simp
  | ok b =>
    obtain ⟨octets⟩ := seed
    cases h : Octets.ofBytes? 16 b <;> simp [Seed.ofBytes, h]

/-- It does not matter how often a text is trimmed before it is read. -/
theorem Seed.ofHex_trim (text : String) :
    Seed.ofHex (Text.trim text) = Seed.ofHex text := by
  rw [Seed.ofHex, Seed.ofHex, Text.trim_trim]

/-- A seed is read back from its digits. -/
theorem Seed.ofHex_toHex (seed : Seed) : Seed.ofHex seed.toHex = .ok seed := by
  have spells := Text.Hex.spells_encode seed.octets.bytes
  have bare : Text.trim seed.toHex = seed.toHex := Text.trim_eq_self spells.isBlank
  rw [Seed.ofHex_eq_ok_iff, bare]
  exact spells

namespace Identity
variable [Curve]

theorem receivingPublic_eq_ok_iff {signingPublic key : Octets 32} :
    receivingPublic signingPublic = .ok key ↔ Curve.montgomery? signingPublic = some key := by
  unfold receivingPublic
  cases Curve.montgomery? signingPublic <;> simp

/-- The keys that a seed stands for, whether or not the two ways to the receiving key meet. -/
def derived (seed : Seed) : Identity where
  seed
  signing := SigningKey.ofSeed seed.signingSeed
  pair := KeyPair.ofSecret (receivingSecret seed.signingSeed)

/-- **A seed gives its keys exactly if the Montgomery form of the signing key is the public key of
the receiving secret.** -/
theorem ofSeed_eq_ok_iff {seed : Seed} {identity : Identity} :
    ofSeed seed = .ok identity ↔ identity = derived seed ∧
      Curve.montgomery? (derived seed).signing.publicKey = some (derived seed).pair.publicKey := by
  rw [← receivingPublic_eq_ok_iff]
  simp only [ofSeed, derived]
  cases receivingPublic (SigningKey.ofSeed seed.signingSeed).publicKey with
  | error e => simp [bind, Except.bind]
  | ok key =>
    simp only [bind, Except.bind, Except.ok.injEq]
    cases hpair : KeyPair.ofParts (receivingSecret (SigningKey.ofSeed seed.signingSeed).seed) key with
    | error e =>
      simp only [reduceCtorEq, false_iff, not_and]
      rintro - rfl
      have owned := KeyPair.ofParts_eq_ok_iff.2
        ⟨(rfl : KeyPair.ofSecret (receivingSecret seed.signingSeed) = _), rfl⟩
      exact absurd (hpair.symm.trans owned) (by simp)
    | ok pair =>
      obtain ⟨rfl, rfl⟩ := KeyPair.ofParts_eq_ok_iff.1 hpair
      simp only [pure, Except.pure, Except.ok.injEq]
      exact ⟨fun h => ⟨h.symm, rfl⟩, fun h => h.1.symm⟩

end Identity

/-! ## Saving -/

namespace IdentitySlots

/-- The slots with all of these texts put into them. -/
def putAll (texts : List (IdentitySlot × String)) (slots : IdentitySlots) : IdentitySlots :=
  texts.foldl (fun slots text => slots.set text.1 text.2) slots

theorem saveAll_none (texts : List (IdentitySlot × String)) (slots : IdentitySlots) :
    saveAll none texts slots = (putAll texts slots, none) := by
  induction texts generalizing slots with
  | nil => rfl
  | cons text texts ih => exact ih _

/-- Saves that may fail write as many texts as succeed, from the first on. -/
theorem saveAll_some (fault : SaveFault) (texts : List (IdentitySlot × String))
    (slots : IdentitySlots) :
    saveAll (some fault) texts slots = (putAll (texts.take fault.after) slots,
      if texts.length ≤ fault.after then none else some fault.error) := by
  obtain ⟨after, error⟩ := fault
  induction texts generalizing after slots with
  | nil => simp [saveAll, putAll]
  | cons text texts ih =>
    cases after with
    | zero => simp [saveAll, putAll]
    | succ after => simp [saveAll, putAll, ih]

/-- Where nothing is reported, everything is saved. -/
theorem saveAll_ok {fault : Option SaveFault} {texts : List (IdentitySlot × String)}
    {slots slots' : IdentitySlots} (h : saveAll fault texts slots = (slots', none)) :
    slots' = putAll texts slots := by
  cases fault with
  | none =>
    rw [saveAll_none] at h
    exact (Prod.mk.inj h).1.symm
  | some fault =>
    rw [saveAll_some] at h
    obtain ⟨hslots, herror⟩ := Prod.mk.inj h
    split at herror
    · rename_i all
      rw [← hslots, List.take_of_length_le all]
    · cases herror

end IdentitySlots

namespace Keyring

/-- A slot that holds bytes as base64 gives them back. -/
theorem slotOctets?_of_get? {n : Nat} {slots : IdentitySlots} {slot : IdentitySlot} {a : Octets n}
    (h : slots.get? slot = some (Text.Base64.encode a.bytes)) :
    slotOctets? n slots slot = some a := by
  simp only [slotOctets?, h, Text.trim_eq_self Text.Base64.isBlank_encode,
    Text.Base64.decode?_encode, Option.bind_eq_bind, Option.bind_some, Octets.ofBytes?_bytes]

variable [Curve]

/-- The slots after an identity has been saved, whatever they held before. -/
def holding (identity : Identity) : IdentitySlots where
  seed := some identity.seed.toHex
  identityPublic := some (Text.Base64.encode identity.pair.publicKey.bytes)
  identityPrivate := some (Text.Base64.encode identity.pair.secret.bytes)
  signingPublic := some (Text.Base64.encode identity.signing.publicKey.bytes)
  signingSecret := some (Text.Base64.encode identity.signing.toBytes.bytes)

/-- **A restored identity is that of the seed, and fills every slot.** -/
theorem restore_ok {fault : Option SaveFault} {seed : Seed} {prior slots : IdentitySlots}
    {identity : Identity} (h : restore fault seed prior = (.ok identity, slots)) :
    Identity.ofSeed seed = .ok identity ∧ slots = holding identity := by
  unfold restore at h
  cases hseed : Identity.ofSeed seed with
  | error reason => simp [hseed] at h
  | ok derived =>
    simp only [hseed] at h
    cases hsave : save fault derived prior with
    | mk saved failed =>
      simp only [hsave] at h
      cases failed with
      | some reason => simp at h
      | none =>
        obtain ⟨hid, rfl⟩ := Prod.mk.inj h
        obtain rfl := Except.ok.inj hid
        exact ⟨rfl, IdentitySlots.saveAll_ok hsave⟩

/-- Where no save fails, an identity is restored as soon as the seed gives one. -/
theorem restore_none {seed : Seed} {identity : Identity} (prior : IdentitySlots)
    (h : Identity.ofSeed seed = .ok identity) :
    restore none seed prior = (.ok identity, holding identity) := by
  simp only [restore, h, save, IdentitySlots.saveAll_none]
  rfl

@[simp] theorem loadSigningKey?_holding (identity : Identity) :
    loadSigningKey? (holding identity) = some identity.signing := by
  have slot : slotOctets? 64 (holding identity) .signingSecret = some identity.signing.toBytes :=
    slotOctets?_of_get? rfl
  rw [loadSigningKey?, slot, Option.bind_some, SigningKey.ofBytes?_toBytes]

@[simp] theorem loadPair?_holding (identity : Identity) :
    loadPair? (holding identity) = some identity.pair := by
  have hpublic : slotOctets? 32 (holding identity) .identityPublic = some identity.pair.publicKey :=
    slotOctets?_of_get? rfl
  have hsecret : slotOctets? 32 (holding identity) .identityPrivate = some identity.pair.secret :=
    slotOctets?_of_get? rfl
  have owned : KeyPair.ofParts identity.pair.secret identity.pair.publicKey = .ok identity.pair :=
    KeyPair.ofParts_eq_ok_iff.2 ⟨KeyPair.ext rfl, identity.pair.publicKey_eq⟩
  simp only [loadPair?, hpublic, hsecret, owned, Option.bind_eq_bind, Option.bind_some]
  rfl

end Keyring

end SealedPost
