import SealedPost.Proofs.Keyring.Recovery

/-!
# Fresh identities

A random source may fail, and a seed may have keys that do not meet. Both cost one draw, and both
are paid out of the same few draws: a fresh identity is that of the first of them that gives one,
and where none does they are all spent (`Identity.generate_eq_ok_iff` and
`Identity.generate_eq_error_iff`). A migration takes over what was drawn, or leaves the store as it
was; `fresh_from_first_draw` follows the draws up to there.
-/

namespace SealedPost.Keyring
open Identity (Drawn attemptLimit generate ofAnswer?)
variable [Curve]

/-- Where an identity was drawn, only a save can keep a migration from succeeding, and one that
succeeds has stored the seed of that draw. -/
theorem migrate_of_drawn {source rest : Entropy} {identity : Identity}
    (drawn : generate source = (.ok identity, rest)) (fault : Option SaveFault) (store : Store) :
    ∃ result after, migrate fault source store = (result, after, rest) ∧
      (fault = none → result = .ok identity.sessionId) ∧
      ∀ text, result = .ok text → after.slots.get? .seed = some identity.seed.toHex := by
  have migrated := migrate_of_generate fault store drawn
  cases reported : IdentitySlots.report fault IdentitySlot.all with
  | none =>
    have whole := IdentitySlots.report_eq_none_iff.1 reported
    simp only [reported, whole] at migrated
    refine ⟨_, _, migrated, fun _ => rfl, ?_⟩
    intro text _
    exact (get?_put identity _ store.slots .seed).trans (if_pos (by decide))
  | some reason =>
    simp only [reported] at migrated
    refine ⟨_, _, migrated, ?_, nofun⟩
    rintro rfl
    cases reported

/-- **A fresh identity is that of the first draw that gives one.** The draws before it have failed or
have given a seed that gives no identity; it is among the first `attemptLimit`, and no draw after it
is taken. Where none of those gives an identity, they are taken and no more, and their number is
reported. Either way the result can be relied on: restoring an identity from its own seed gives all
its keys once more; a migration without an identity changes nothing in the store, and one that
succeeds has stored the seed of that very draw. -/
theorem fresh_from_first_draw (source : Entropy) :
    (∀ identity rest, generate source = (.ok identity, rest) ↔
      Drawn source identity rest ∧ source.length ≤ rest.length + attemptLimit) ∧
    (∀ reason rest, generate source = (.error reason, rest) ↔
      reason = .derivation attemptLimit ∧ rest = source.drop attemptLimit ∧
        ∀ answer ∈ source.take attemptLimit, ofAnswer? answer = none) ∧
    (∀ identity rest, generate source = (.ok identity, rest) →
      (∀ prior, restore none identity.seed prior = (.ok identity, holding identity)) ∧
      ∀ fault store, ∃ result after, migrate fault source store = (result, after, rest) ∧
        (fault = none → result = .ok identity.sessionId) ∧
        ∀ text, result = .ok text → after.slots.get? .seed = some identity.seed.toHex) ∧
    (∀ reason rest, generate source = (.error reason, rest) →
      ∀ fault store, migrate fault source store = (.error (.identity reason), store, rest)) := by
  refine ⟨?_, ?_, ?drawn, ?failed⟩
  · exact fun identity rest => Identity.generate_eq_ok_iff
  · exact fun reason rest => Identity.generate_eq_error_iff
  case drawn =>
    intro identity rest drawn
    have derived : Identity.ofSeed identity.seed = .ok identity :=
      (Identity.drawn_of_generate drawn).1
    exact ⟨fun prior => restore_none prior derived, migrate_of_drawn drawn⟩
  case failed =>
    intro reason rest failed fault store
    exact migrate_of_error fault store failed

end SealedPost.Keyring

/-! ## The last draw that counts -/

namespace SealedPost.Keyring
open Identity (Drawn attemptLimit generate ofAnswer?)

/-- Failed draws, and after them one that gives the seed. -/
def drawnAfter (failed : Nat) : Entropy :=
  List.replicate failed none ++ [some firstSeed.octets.bytes]

theorem drawn_drawnAfter (failed : Nat) :
    Drawn (drawnAfter failed) (Identity.derived firstSeed) [] := by
  refine ⟨ofSeed_firstSeed, _, rfl, ?_⟩
  intro answer h
  rw [List.eq_of_mem_replicate h]
  rfl

/-- The eighth draw may still give the identity. A ninth is not taken. -/
theorem fresh_from_first_draw_in_time :
    (generate (drawnAfter 7) = (.ok (Identity.derived firstSeed), []) ∧
      restore none firstSeed .empty =
        (.ok (Identity.derived firstSeed), holding (Identity.derived firstSeed)) ∧
      ∃ after, migrate none (drawnAfter 7) .empty =
          (.ok (Identity.derived firstSeed).sessionId, after, []) ∧
        after.slots.get? .seed = some firstSeed.toHex) ∧
    generate (drawnAfter 8) = (.error (.derivation 8), [some firstSeed.octets.bytes]) ∧
      ∀ fault store, migrate fault (drawnAfter 8) store =
        (.error (.identity (.derivation 8)), store, [some firstSeed.octets.bytes]) := by
  obtain ⟨succeeds, -, goes, -⟩ := fresh_from_first_draw (drawnAfter 7)
  obtain ⟨-, fails, -, stays⟩ := fresh_from_first_draw (drawnAfter 8)
  have early := (succeeds _ _).2 ⟨drawn_drawnAfter 7, by decide⟩
  have late := (fails (.derivation 8) _).2 ⟨rfl, rfl, by
    intro answer h
    obtain rfl := List.eq_of_mem_replicate (n := 8) h
    rfl⟩
  obtain ⟨again, moves⟩ := goes _ _ early
  obtain ⟨result, after, migrated, unhindered, stored⟩ := moves none .empty
  obtain rfl := unhindered rfl
  exact ⟨⟨early, again .empty, after, migrated, stored _ rfl⟩, late, stays _ _ late⟩

end SealedPost.Keyring
