import SealedPost.Curve.Curve25519
import SealedPost.Proofs.Identity.Derivation
import SealedPost.Proofs.Keyring.Attempts

/-!
# Interrupted attempts

A save that fails ends the attempt. What was saved before it stays, what would have come after it is
never written, and since the signing secret goes last, an attempt that fails makes no identity out
of none (`Attempt.hasIdentity_of_failed`). However many attempts have failed, one that succeeds
leaves nothing of them (`restore_anywhere`).
-/

namespace SealedPost.Keyring
open IdentitySlots (reach report)

/-! ## One attempt -/

/-- The signing secret is the last slot of all. -/
theorem signingSecret_not_mem_take :
    ∀ n < IdentitySlot.all.length, .signingSecret ∉ IdentitySlot.all.take n := by
  decide

theorem report_of_cut {n : Nat} (cut : n < IdentitySlot.all.length) (error : StoreError) :
    report (some ⟨n, error⟩) IdentitySlot.all = some error :=
  if_neg (Nat.not_le.2 cut)

variable [Curve]

/-- The first `n` slots hold an identity, and all others what they held before. -/
def SavedUpTo (n : Nat) (identity : Identity) (before after : IdentitySlots) : Prop :=
  ∀ slot, after.get? slot =
    if slot ∈ IdentitySlot.all.take n then (holding identity).get? slot else before.get? slot

theorem savedUpTo_put (n : Nat) (identity : Identity) (slots : IdentitySlots) :
    SavedUpTo n identity slots (put identity (IdentitySlot.all.take n) slots) := by
  intro slot
  rw [get?_put, get?_holding]

theorem SavedUpTo.hasIdentity_eq {n : Nat} {identity : Identity} {before after : IdentitySlots}
    (saved : SavedUpTo n identity before after) (cut : n < IdentitySlot.all.length) :
    hasIdentity after = hasIdentity before := by
  rw [hasIdentity, hasIdentity, saved, if_neg (signingSecret_not_mem_take n cut)]

theorem restore_cut {n : Nat} {seed : Seed} {identity : Identity} (error : StoreError)
    (slots : IdentitySlots) (cut : n < IdentitySlot.all.length)
    (h : Identity.ofSeed seed = .ok identity) :
    restore (some ⟨n, error⟩) seed slots =
      (.error (.store error), put identity (IdentitySlot.all.take n) slots) := by
  rw [restore_of_ofSeed _ _ h, report_of_cut cut, reach]

theorem migrate_cut {n : Nat} {source rest : Entropy} {identity : Identity} (error : StoreError)
    (store : Store) (cut : n < IdentitySlot.all.length)
    (h : Identity.generate source = (.ok identity, rest)) :
    migrate (some ⟨n, error⟩) source store = (.error (.store error),
      { store with slots := put identity (IdentitySlot.all.take n) store.slots }, rest) := by
  rw [migrate_of_generate _ _ h, report_of_cut cut, reach]

theorem restore_of_error {seed : Seed} {reason : IdentityError} (fault : Option SaveFault)
    (slots : IdentitySlots) (h : Identity.ofSeed seed = .error reason) :
    restore fault seed slots = (.error (.identity reason), slots) := by
  simp only [restore, h]

theorem migrate_of_error {source rest : Entropy} {reason : IdentityError}
    (fault : Option SaveFault) (store : Store)
    (h : Identity.generate source = (.error reason, rest)) :
    migrate fault source store = (.error (.identity reason), store, rest) := by
  simp only [migrate, h]

/-- A restoration leaves what it would have left in empty slots. -/
theorem restore_anywhere {fault : Option SaveFault} {seed : Seed} {prior slots : IdentitySlots}
    {identity : Identity} (h : restore fault seed prior = (.ok identity, slots)) :
    restore none seed .empty = (.ok identity, slots) := by
  obtain ⟨derived, rfl⟩ := restore_ok h
  exact restore_none .empty derived

/-! ## Run after run -/

theorem Attempt.hasIdentity_of_failed {a : Attempt} {store : Store}
    (failed : (a.perform store).1 ≠ none) :
    hasIdentity (a.perform store).2.slots = hasIdentity store.slots := by
  have missed : .signingSecret ∉ a.reached := mt (a.perform_eq_none_iff store).2 failed
  rw [hasIdentity, a.get?_perform, savedIn, if_neg missed]
  rfl

theorem Attempt.push_of_failed {a : Attempt} {store : Store}
    (failed : (a.perform store).1 ≠ none) : (a.perform store).2.push = store.push := by
  cases h : a.task.identity with
  | error reason => rw [perform_of_error h]
  | ok identity => exact (perform_of_ok h store).2.2 failed

/-- Failed attempts, however many, leave the answer and the preferences alone. -/
theorem run_of_failed {attempts : List Attempt} {store : Store}
    (failed : none ∉ (run attempts store).1) :
    hasIdentity (run attempts store).2.slots = hasIdentity store.slots ∧
      (run attempts store).2.push = store.push := by
  induction attempts generalizing store with
  | nil => exact ⟨rfl, rfl⟩
  | cons a rest ih =>
    obtain ⟨first, others⟩ := not_or.1 (mt List.mem_cons.2 failed)
    obtain ⟨answers, prefers⟩ := ih others
    have first : (a.perform store).1 ≠ none := Ne.symm first
    exact ⟨answers.trans (Attempt.hasIdentity_of_failed first),
      prefers.trans (Attempt.push_of_failed first)⟩

/-- **A save that fails leaves a prefix, and no identity that was not there.** Of the five slots, in
the order in which they are saved, exactly those before the failing one hold the new identity; the
failure is the one that the store reported. Where no identity can be derived nothing is written at
all. After any number of failed attempts there is an identity only if there was one before, and the
next restoration that succeeds leaves what it would have left in a fresh store. -/
theorem failed_save_leaves_prefix (error : StoreError) {n : Nat}
    (cut : n < IdentitySlot.all.length) :
    (∀ seed identity slots, Identity.ofSeed seed = .ok identity →
      ∃ after, restore (some ⟨n, error⟩) seed slots = (.error (.store error), after) ∧
        SavedUpTo n identity slots after ∧ hasIdentity after = hasIdentity slots) ∧
    (∀ source identity rest store, Identity.generate source = (.ok identity, rest) →
      ∃ after, migrate (some ⟨n, error⟩) source store =
          (.error (.store error), { store with slots := after }, rest) ∧
        SavedUpTo n identity store.slots after ∧ hasIdentity after = hasIdentity store.slots) ∧
    (∀ fault seed reason slots, Identity.ofSeed seed = .error reason →
      restore fault seed slots = (.error (.identity reason), slots)) ∧
    (∀ fault source reason rest store, Identity.generate source = (.error reason, rest) →
      migrate fault source store = (.error (.identity reason), store, rest)) ∧
    (∀ attempts store, none ∉ (run attempts store).1 →
      hasIdentity (run attempts store).2.slots = hasIdentity store.slots ∧
      (run attempts store).2.push = store.push ∧
      ∀ fault seed identity slots,
        restore fault seed (run attempts store).2.slots = (.ok identity, slots) →
        restore none seed .empty = (.ok identity, slots)) := by
  refine ⟨?restored, ?migrated, ?_, ?_, ?_⟩
  case restored =>
    intro seed identity slots derived
    have saved := savedUpTo_put n identity slots
    exact ⟨_, restore_cut error slots cut derived, saved, saved.hasIdentity_eq cut⟩
  case migrated =>
    intro source identity rest store drawn
    have saved := savedUpTo_put n identity store.slots
    exact ⟨_, migrate_cut error store cut drawn, saved, saved.hasIdentity_eq cut⟩
  · exact fun fault seed reason slots h => restore_of_error fault slots h
  · exact fun fault source reason rest store h => migrate_of_error fault store h
  · intro attempts store failed
    obtain ⟨answers, prefers⟩ := run_of_failed failed
    exact ⟨answers, prefers, fun fault seed identity slots h => restore_anywhere h⟩

end SealedPost.Keyring

/-! ## A store that fills up -/

namespace SealedPost.Keyring

/-- A seed, and its identity on the curve itself. -/
def firstSeed : Seed := ⟨Octets.ofNat 16 1⟩

theorem ofSeed_firstSeed : Identity.ofSeed firstSeed = .ok (Identity.derived firstSeed) :=
  (Identity.ofSeed_eq _).1

/-- A restoration that fails at the fourth save, and a migration without any entropy. -/
def failedAttempts (error : StoreError) : List Attempt :=
  [⟨.restore firstSeed, some ⟨3, error⟩⟩, ⟨.migrate [], none⟩]

theorem none_not_mem_failedAttempts (error : StoreError) (store : Store) :
    none ∉ (run (failedAttempts error) store).1 := by
  have first := (Attempt.perform_of_ok (a := ⟨.restore firstSeed, some ⟨3, error⟩⟩)
    ofSeed_firstSeed store).1
  have drained : Task.identity (.migrate []) = .error (.derivation 8) := rfl
  have second := fun s => Attempt.perform_of_error (a := ⟨.migrate [], none⟩) drained s
  simp [failedAttempts, run, first, second, IdentitySlots.report, Task.order, IdentitySlot.all]

theorem failed_save_leaves_prefix_full :
    ∃ slots, restore (some ⟨3, .operationFailed "full"⟩) firstSeed .empty =
        (.error (.store (.operationFailed "full")), slots) ∧
      SavedUpTo 3 (Identity.derived firstSeed) .empty slots ∧ hasIdentity slots = false ∧
      restore none firstSeed (run (failedAttempts (.operationFailed "full")) .empty).2.slots =
        restore none firstSeed .empty := by
  obtain ⟨restored, -, -, -, attempted⟩ :=
    failed_save_leaves_prefix (.operationFailed "full") (n := 3) (by decide)
  obtain ⟨slots, fails, saved, answer⟩ := restored firstSeed _ .empty ofSeed_firstSeed
  obtain ⟨-, -, afresh⟩ := attempted (failedAttempts (.operationFailed "full")) .empty
    (none_not_mem_failedAttempts _ _)
  have later := restore_none (run (failedAttempts (.operationFailed "full")) .empty).2.slots
    ofSeed_firstSeed
  exact ⟨slots, fails, saved, answer, by rw [later, afresh none firstSeed _ _ later]⟩

end SealedPost.Keyring
