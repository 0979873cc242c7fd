import SealedPost.Proofs.Keyring.Interruption

/-!
# Keys of two identities

The signing key that loads is that of the attempt that succeeded last, the pair that loads is that
of the attempt that saved a receiving secret last, and each of the two is only checked against
itself. `loaded_keys_belong_iff` says when the pair is the image of the signing key; where an
attempt fails between the two secrets, both load and belong to different identities
(`mixed_keys_load`).
-/

namespace SealedPost.Keyring
variable [Curve]

/-! ## The image of a signing key -/

/-- The pair for receiving is the image of the signing key: its public key is the Montgomery form of
the signing public key, and its secret is hashed out of the signing seed. -/
def IsImage (signing : SigningKey) (pair : KeyPair) : Prop :=
  Curve.montgomery? signing.publicKey = some pair.publicKey ∧
    pair.secret = Identity.receivingSecret signing.seed

/-- A signing key has one image, the pair of its identity. -/
theorem isImage_iff {seed : Seed} {identity : Identity} {pair : KeyPair}
    (h : Identity.ofSeed seed = .ok identity) :
    IsImage identity.signing pair ↔ pair = identity.pair := by
  obtain ⟨rfl, meets⟩ := Identity.ofSeed_eq_ok_iff.1 h
  constructor
  · exact fun image => KeyPair.ext image.2
  · rintro rfl
    exact ⟨meets, rfl⟩

/-! ## Who saved last -/

theorem ofSeed_of_savedIn {slot : IdentitySlot} {a : Attempt} {identity : Identity}
    (h : a.savedIn slot = some identity) : ∃ seed, Identity.ofSeed seed = .ok identity := by
  unfold Attempt.savedIn at h
  split at h
  · cases stored : a.task.identity with
    | error reason => rw [stored] at h; cases h
    | ok derived =>
      rw [stored] at h
      obtain rfl := Option.some.inj h
      exact Task.ofSeed_of_identity stored
  · cases h

theorem ofSeed_of_latest {slot : IdentitySlot} {attempts : List Attempt} {identity : Identity}
    (h : latest slot attempts = some identity) : ∃ seed, Identity.ofSeed seed = .ok identity := by
  obtain ⟨a, -, saved⟩ := List.exists_of_findSome?_eq_some h
  exact ofSeed_of_savedIn saved

/-- An attempt that succeeded has saved its receiving secret on the way. -/
theorem Attempt.identityPrivate_mem_reached {a : Attempt} (h : .signingSecret ∈ a.reached) :
    .identityPrivate ∈ a.reached := by
  cases stored : a.task.identity with
  | error reason => simp [reached, stored] at h
  | ok identity =>
    rw [(signingSecret_mem_reached_iff stored).1 h]
    have mem : .identityPrivate ∈ IdentitySlot.all.tail := by decide
    cases a.task with
    | restore | migrate => exact List.mem_of_mem_tail mem
    | saveKeys => exact mem

/-- Where each attempt stopped before its receiving secret or succeeded, the two secrets were saved
last by the same. -/
theorem latest_eq_of_succeeded {attempts : List Attempt}
    (h : ∀ a ∈ attempts, .identityPrivate ∈ a.reached → .signingSecret ∈ a.reached) :
    latest .identityPrivate attempts = latest .signingSecret attempts := by
  induction attempts with
  | nil => rfl
  | cons a rest ih =>
    obtain ⟨first, others⟩ := List.forall_mem_cons.1 h
    have both : .identityPrivate ∈ a.reached ↔ .signingSecret ∈ a.reached :=
      ⟨first, a.identityPrivate_mem_reached⟩
    simp only [latest_cons, ih others, Attempt.savedIn, both]

/-- The pair that loads is that of the attempt that saved a receiving secret last. -/
theorem latest_of_loadPair? {attempts : List Attempt} {pair : KeyPair}
    (h : loadPair? (run attempts .empty).2.slots = some pair) :
    ∃ received, latest .identityPrivate attempts = some received ∧ pair = received.pair := by
  rw [loadPair?_run] at h
  obtain ⟨shown, -, h⟩ := Option.bind_eq_some_iff.1 h
  obtain ⟨received, saved, h⟩ := Option.bind_eq_some_iff.1 h
  split at h
  · exact ⟨received, saved, (Option.some.inj h).symm⟩
  · cases h

/-- **When the keys that load belong together.** The signing key is that of the attempt that
succeeded last, the pair that of the attempt that saved a receiving secret last, and the pair is the
image of the signing key exactly if these two attempts stored the same pair. So it is whenever each
attempt that got as far as a receiving secret has also succeeded. -/
theorem loaded_keys_belong_iff {attempts : List Attempt} {signing : SigningKey} {pair : KeyPair}
    (signs : loadSigningKey? (run attempts .empty).2.slots = some signing)
    (receives : loadPair? (run attempts .empty).2.slots = some pair) :
    (∃ signed received,
      latest .signingSecret attempts = some signed ∧ signing = signed.signing ∧
      latest .identityPrivate attempts = some received ∧ pair = received.pair ∧
      (IsImage signing pair ↔ received.pair = signed.pair)) ∧
    ((∀ a ∈ attempts, .identityPrivate ∈ a.reached → ∀ store, (a.perform store).1 = none) →
      IsImage signing pair) := by
  rw [loadSigningKey?_run] at signs
  obtain ⟨signed, last, rfl⟩ := Option.map_eq_some_iff.1 signs
  obtain ⟨received, saved, rfl⟩ := latest_of_loadPair? receives
  obtain ⟨seed, derived⟩ := ofSeed_of_latest last
  refine ⟨⟨signed, received, last, rfl, saved, rfl, isImage_iff derived⟩, fun succeeded => ?_⟩
  have same := latest_eq_of_succeeded fun a mem reached =>
    (a.perform_eq_none_iff .empty).1 (succeeded a mem reached .empty)
  rw [saved, last] at same
  obtain rfl := Option.some.inj same
  exact (isImage_iff derived).2 rfl

/-! ## A restoration that fails between the secrets -/

theorem savedIn_restore {seed : Seed} {identity : Identity} (fault : Option SaveFault)
    (slot : IdentitySlot) (h : Identity.ofSeed seed = .ok identity) :
    Attempt.savedIn slot ⟨.restore seed, fault⟩ =
      if slot ∈ IdentitySlots.reach fault IdentitySlot.all then some identity else none := by
  have stored : Task.identity (.restore seed) = .ok identity := h
  simp only [Attempt.savedIn, Attempt.reached, stored, Task.order, Except.toOption]

/-- After a restoration that succeeds, every slot was saved last by it. -/
theorem latest_restored {seed : Seed} {identity : Identity} (slot : IdentitySlot)
    (attempts : List Attempt) (h : Identity.ofSeed seed = .ok identity) :
    latest slot (attempts ++ [⟨.restore seed, none⟩]) = some identity := by
  have last := savedIn_restore none slot h
  rw [if_pos (show slot ∈ IdentitySlots.reach none _ by cases slot <;> decide)] at last
  simp [latest, last]

/-- One identity is restored, and the restoration of another fails after its receiving secret. -/
def mixing (first second : Seed) : List Attempt :=
  [⟨.restore first, none⟩, ⟨.restore second, some ⟨3, .operationFailed "full"⟩⟩]

/-- The signing key still is that of the first, and the pair already that of the second. -/
theorem loads_mixing {first second : Seed} {one other : Identity}
    (hone : Identity.ofSeed first = .ok one) (hother : Identity.ofSeed second = .ok other) :
    loadSigningKey? (run (mixing first second) .empty).2.slots = some one.signing ∧
    loadPair? (run (mixing first second) .empty).2.slots = some other.pair := by
  have saved (slot : IdentitySlot) := savedIn_restore none slot hone
  have cut (slot : IdentitySlot) :=
    savedIn_restore (some ⟨3, .operationFailed "full"⟩) slot hother
  rw [loadSigningKey?_run, loadPair?_run]
  simp [latest, mixing, saved, cut, IdentitySlots.reach, IdentitySlot.all]

/-- The same, and then the other identity is restored after all. -/
def repaired (first second : Seed) : List Attempt :=
  mixing first second ++ [⟨.restore second, none⟩]

theorem loads_repaired {second : Seed} {other : Identity} (first : Seed)
    (hother : Identity.ofSeed second = .ok other) :
    loadSigningKey? (run (repaired first second) .empty).2.slots = some other.signing ∧
    loadPair? (run (repaired first second) .empty).2.slots = some other.pair := by
  have last (slot : IdentitySlot) := latest_restored slot (mixing first second) hother
  rw [loadSigningKey?_run, loadPair?_run]
  simp [repaired, last]

end SealedPost.Keyring

/-! ## Two seeds on the curve itself -/

namespace SealedPost.Keyring

def secondSeed : Seed := ⟨Octets.ofNat 16 2⟩

theorem ofSeed_secondSeed : Identity.ofSeed secondSeed = .ok (Identity.derived secondSeed) :=
  (Identity.ofSeed_eq _).1

theorem loaded_keys_belong_after_repair :
    ∃ signing pair, loadSigningKey? (run (repaired firstSeed secondSeed) .empty).2.slots =
        some signing ∧
      loadPair? (run (repaired firstSeed secondSeed) .empty).2.slots = some pair ∧
      IsImage signing pair := by
  obtain ⟨signs, receives⟩ := loads_repaired firstSeed ofSeed_secondSeed
  obtain ⟨⟨signed, received, last, -, saved, -, belong⟩, -⟩ :=
    loaded_keys_belong_iff signs receives
  have same (slot : IdentitySlot) :=
    latest_restored slot (mixing firstSeed secondSeed) ofSeed_secondSeed
  have equal : received = signed := by
    rw [repaired, same] at last saved
    exact Option.some.inj (saved.symm.trans last)
  exact ⟨_, _, signs, receives, belong.2 (by rw [equal])⟩

/-- **Both keys load, of different identities**: the pair is not the image of the signing key. -/
theorem mixed_keys_load :
    ∃ signing pair,
      loadSigningKey? (run (mixing firstSeed secondSeed) .empty).2.slots = some signing ∧
      loadPair? (run (mixing firstSeed secondSeed) .empty).2.slots = some pair ∧
      Curve.montgomery? signing.publicKey ≠ some pair.publicKey := by
  obtain ⟨signs, receives⟩ := loads_mixing ofSeed_firstSeed ofSeed_secondSeed
  refine ⟨_, _, signs, receives, ?_⟩
  rw [(Identity.ofSeed_eq_ok_iff.1 ofSeed_firstSeed).2]
  have differ : (Identity.derived firstSeed).pair.publicKey ≠
      (Identity.derived secondSeed).pair.publicKey := by decide +kernel
  exact fun same => differ (Option.some.inj same)

end SealedPost.Keyring
