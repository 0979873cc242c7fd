import SealedPost.Proofs.Keyring.Interruption

/-!
# Recovering a stored identity

An identity that has been stored whole is the only thing that its slots say. All loaders give it
back, over whatever was stored before; and since its seed loads as well, it can be restored from
what it has stored itself, which changes nothing any more (`stored_identity_recoverable`).
-/

namespace SealedPost.Keyring
open Text
variable [Curve]

/-- What the slots say is this identity, and restoring it from their seed changes nothing. -/
structure ReadsBack (identity : Identity) (slots : IdentitySlots) : Prop where
  seed : loadSeed slots = .ok (some identity.seed)
  signingKey : loadSigningKey? slots = some identity.signing
  pair : loadPair? slots = some identity.pair
  known : hasIdentity slots = true
  again : restore none identity.seed slots = (.ok identity, slots)
  /-- A save that fails on the way does no harm. -/
  settled : ∀ fault, (restore fault identity.seed slots).2 = slots

theorem loadSeed_holding (identity : Identity) :
    loadSeed (holding identity) = .ok (some identity.seed) := by
  have held : (holding identity).get? .seed = some identity.seed.toHex := get?_holding identity _
  simp only [loadSeed, held, Seed.ofHex_trim, Seed.ofHex_toHex]

/-- Saving once more what is stored already changes nothing, however far it gets. -/
theorem put_holding (identity : Identity) (order : List IdentitySlot) :
    put identity order (holding identity) = holding identity := by
  ext1 slot
  rw [get?_put, get?_holding]
  split <;> rfl

theorem readsBack_holding {identity : Identity} (h : Identity.ofSeed identity.seed = .ok identity) :
    ReadsBack identity (holding identity) where
  seed := loadSeed_holding identity
  signingKey := loadSigningKey?_holding identity
  pair := loadPair?_holding identity
  known := rfl
  again := restore_none _ h
  settled fault := by
    rw [restore_of_ofSeed fault _ h]
    exact put_holding identity _

/-- A migration that succeeds stores the identity that was drawn, over any earlier content. -/
theorem migrate_ok {fault : Option SaveFault} {source rest : Entropy} {store after : Store}
    {text : String} (h : migrate fault source store = (.ok text, after, rest)) :
    ∃ identity, Identity.generate source = (.ok identity, rest) ∧ text = identity.sessionId ∧
      after = { store with
        slots := holding identity, push := { store.push with sessionId := some text } } := by
  unfold migrate at h
  cases drawn : Identity.generate source with
  | mk result more =>
    cases result with
    | error reason => simp [drawn] at h
    | ok identity =>
      simp only [drawn] at h
      cases hsave : save fault identity store.slots with
      | mk slots failed =>
        simp only [hsave] at h
        cases failed with
        | some reason => simp at h
        | none =>
          simp only [Prod.mk.injEq, Except.ok.injEq] at h
          obtain ⟨rfl, rfl, rfl⟩ := h
          obtain rfl : slots = holding identity := IdentitySlots.saveAll_ok hsave
          exact ⟨identity, rfl, rfl, rfl⟩

/-- **A stored identity reads back, and can be recovered from what is stored.** However much was
stored before, a restoration that succeeds leaves the identity of its seed in the slots, and a
migration that succeeds leaves that of the seed that was drawn: all loaders give it back, and
restoring it from the seed that loads changes no slot and gives it once more. The text that a
migration answers is the local session id from then on, and that of the pair that loads. -/
theorem stored_identity_recoverable (fault : Option SaveFault) :
    (∀ seed prior identity slots, restore fault seed prior = (.ok identity, slots) →
      Identity.ofSeed seed = .ok identity ∧ identity.seed = seed ∧ ReadsBack identity slots) ∧
    (∀ source store text after rest, migrate fault source store = (.ok text, after, rest) →
      ∃ identity, Identity.Drawn source identity rest ∧ ReadsBack identity after.slots ∧
        text = identity.sessionId ∧ after.push.sessionId = some text ∧
        (loadPair? after.slots).map KeyPair.sessionId = some text) := by
  constructor
  · intro seed prior identity slots restored
    obtain ⟨derived, rfl⟩ := restore_ok restored
    have own : identity.seed = seed := by
      rw [(Identity.ofSeed_eq_ok_iff.1 derived).1]
      rfl
    refine ⟨derived, own, readsBack_holding ?_⟩
    rw [own]
    exact derived
  · intro source store text after rest migrated
    obtain ⟨identity, generated, rfl, rfl⟩ := migrate_ok migrated
    have drawn := Identity.drawn_of_generate generated
    refine ⟨identity, drawn, readsBack_holding drawn.1, rfl, rfl, ?_⟩
    rw [loadPair?_holding]
    rfl

end SealedPost.Keyring

/-! ## Over slots that cannot be read -/

namespace SealedPost.Keyring

def cluttered : IdentitySlots := ⟨some "seed", some " ", none, some "", some "="⟩

/-- The first draw fails, and the second one gives the seed. -/
def secondDraw : Entropy := [none, some firstSeed.octets.bytes]

theorem generate_secondDraw :
    Identity.generate secondDraw = (.ok (Identity.derived firstSeed), []) := by
  have first : Identity.ofAnswer? none = none := rfl
  have second : Identity.ofAnswer? (some firstSeed.octets.bytes) =
      some (Identity.derived firstSeed) :=
    Identity.ofAnswer?_eq_some_iff.2 ⟨rfl, ofSeed_firstSeed⟩
  simp only [Identity.generate, Identity.attemptLimit, secondDraw, Identity.draw_cons, first,
    second]

theorem stored_identity_recoverable_cluttered :
    (∃ slots, restore none firstSeed cluttered = (.ok (Identity.derived firstSeed), slots) ∧
      ReadsBack (Identity.derived firstSeed) slots) ∧
    ∃ text after,
      migrate none secondDraw { Store.empty with slots := cluttered } = (.ok text, after, []) ∧
      after.push.sessionId = some text ∧
      (loadPair? after.slots).map KeyPair.sessionId = some text := by
  obtain ⟨restored, migrated⟩ := stored_identity_recoverable none
  constructor
  · have done := restore_none cluttered ofSeed_firstSeed
    obtain ⟨-, -, back⟩ := restored _ _ _ _ done
    exact ⟨_, done, back⟩
  · have done := migrate_of_generate none { Store.empty with slots := cluttered }
      generate_secondDraw
    obtain ⟨identity, -, -, -, remembered, shown⟩ := migrated _ _ _ _ _ done
    exact ⟨_, _, done, remembered, shown⟩

end SealedPost.Keyring
