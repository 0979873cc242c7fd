import SealedPost.Curve.Curve25519
import SealedPost.Identity.Derivation
import SealedPost.Proofs.Curve.Encoding

/-!
# The receiving key of a signing key

The Montgomery form of a signing public key is a fraction whose denominator is zero for the neutral
point alone, and that is among the points that are refused (`receivingPublic_eq`). The sign bit has
no part in it.
-/

namespace SealedPost.Identity
open Edwards (Affine Encodes ordinate flipSign)

/-- The key of an encoded point is its Montgomery coordinate, unless its order is small. -/
theorem receivingPublic_eq {A : Octets 32} {P : Affine} (h : Encodes A P) :
    receivingPublic A = if 8 • P = 0 then .error .publicKey else .ok P.montgomery := by
  obtain ⟨p, decoded, stands⟩ := Edwards.Point.exists_decode? h
  have decoded : Curve.decode? A = some p := decoded
  have order : Curve.smallOrder p = true ↔ 8 • P = 0 := stands.smallOrder_iff
  have coordinate : Curve.montgomery p = P.montgomery := stands.montgomery_eq
  by_cases small : 8 • P = 0
  · have refused : Curve.montgomery? A = none := by
      simp only [Curve.montgomery?, decoded, if_pos (order.2 small)]
    rw [receivingPublic, refused, if_pos small]
  · have found : Curve.montgomery? A = some P.montgomery := by
      simp only [Curve.montgomery?, decoded, if_neg (mt order.1 small), coordinate]
    rw [receivingPublic, found, if_neg small]

theorem receivingPublic_eq_error {A : Octets 32} (h : ∀ P, ¬Encodes A P) :
    receivingPublic A = .error .publicKey := by
  have undecoded : Curve.decode? A = none := Edwards.Point.decode?_eq_none_iff.2 h
  rw [receivingPublic, Curve.montgomery?, undecoded]

/-- The key is refused exactly if there is no point, or one of small order. -/
theorem receivingPublic_eq_error_iff {A : Octets 32} {e : IdentityError} :
    receivingPublic A = .error e ↔
      e = .publicKey ∧ ((∀ P, ¬Encodes A P) ∨ ∃ P, Encodes A P ∧ 8 • P = 0) := by
  by_cases point : ∃ P, Encodes A P
  · obtain ⟨P, h⟩ := point
    have only : ((∀ P, ¬Encodes A P) ∨ ∃ P, Encodes A P ∧ 8 • P = 0) ↔ 8 • P = 0 := by
      refine ⟨?_, fun small => .inr ⟨P, h, small⟩⟩
      rintro (no | ⟨P', h', small⟩)
      · exact absurd h (no P)
      · rwa [h.unique h']
    rw [only, receivingPublic_eq h]
    split <;> rename_i order
    · simp [order, eq_comm]
    · simp [order]
  · have no := not_exists.1 point
    rw [receivingPublic_eq_error no, Except.error.injEq, and_iff_left (.inl no), eq_comm]

/-- The key is given exactly if there is a point whose order is not small. -/
theorem receivingPublic_eq_ok_iff_exists {A key : Octets 32} :
    receivingPublic A = .ok key ↔ ∃ P, Encodes A P ∧ 8 • P ≠ 0 ∧ key = P.montgomery := by
  constructor
  · intro accepted
    by_cases point : ∃ P, Encodes A P
    · obtain ⟨P, h⟩ := point
      rw [receivingPublic_eq h] at accepted
      split at accepted <;> rename_i order
      · cases accepted
      · exact ⟨P, h, order, (Except.ok.inj accepted).symm⟩
    · rw [receivingPublic_eq_error (not_exists.1 point)] at accepted
      cases accepted
  · rintro ⟨P, h, order, rfl⟩
    rw [receivingPublic_eq h, if_neg order]

/-- The negation of a point has the same Montgomery coordinate and is refused with it, so that the
sign bit has no part in the key. -/
theorem receivingPublic_flipSign (A : Octets 32) :
    receivingPublic (flipSign A) = receivingPublic A := by
  by_cases point : ∃ P, Encodes A P
  · obtain ⟨P, h⟩ := point
    have turned : Encodes (flipSign A) (-P) := by
      rwa [Edwards.encodes_flipSign_iff, neg_neg]
    rw [receivingPublic_eq h, receivingPublic_eq turned, neg_nsmul]
    simp only [neg_eq_zero]
    rfl
  · have no := not_exists.1 point
    rw [receivingPublic_eq_error no, receivingPublic_eq_error]
    exact fun P turned => no (-P) (Edwards.encodes_flipSign_iff.1 turned)

/-- For any point but the neutral one the coordinate is a quotient whose divisor is not zero. -/
theorem montgomery_eq_iff {P : Affine} (nonzero : P ≠ 0) {key : Octets 32} :
    key = P.montgomery ↔ IsUnit (1 - P.y) ∧ ∃ u : Nat, u < fieldPrime ∧
      (u : Residue) * (1 - P.y) = 1 + P.y ∧ key = Octets.ofNat 32 u := by
  have denominator : 1 - P.y ≠ 0 := by
    rwa [sub_ne_zero, ne_comm, Ne, Affine.y_eq_one_iff]
  constructor
  · rintro rfl
    refine ⟨denominator.isUnit, ((1 + P.y) * (1 - P.y)⁻¹).val, ZMod.val_lt _, ?_, rfl⟩
    rw [ZMod.natCast_zmod_val, inv_mul_cancel_right₀ denominator]
  · rintro ⟨-, u, below, quotient, rfl⟩
    rw [Affine.montgomery, ← quotient, mul_inv_cancel_right₀ denominator, ZMod.val_cast_of_lt below]

/-- **The receiving key of a signing key is well defined.** Refused are the bytes that are decoded
to no point, because they encode none, and those of a point of small order. All others hold a second
coordinate other than one, and the key is the fraction that it gives in lowest terms, whichever sign
they hold. -/
theorem receivingPublic_well_defined (A : Octets 32) :
    (Curve.decode? A = none ↔ ∀ P, ¬Encodes A P) ∧
    (∀ e, receivingPublic A = .error e ↔ e = .publicKey ∧
      (Curve.decode? A = none ∨ ∃ P, Encodes A P ∧ 8 • P = 0)) ∧
    (∀ key, receivingPublic A = .ok key ↔
      (∃ P, Encodes A P ∧ 8 • P ≠ 0) ∧ IsUnit (1 - ordinate A) ∧
      ∃ u : Nat, u < fieldPrime ∧ (u : Residue) * (1 - ordinate A) = 1 + ordinate A ∧
        key = Octets.ofNat 32 u) ∧
    receivingPublic (flipSign A) = receivingPublic A := by
  have decoded : Curve.decode? A = none ↔ ∀ P, ¬Encodes A P := Edwards.Point.decode?_eq_none_iff
  refine ⟨decoded, fun e => ?_, fun key => ?_, receivingPublic_flipSign A⟩
  · rw [decoded]
    exact receivingPublic_eq_error_iff
  · rw [receivingPublic_eq_ok_iff_exists]
    constructor
    · rintro ⟨P, h, order, rfl⟩
      rw [← h.y_eq]
      exact ⟨⟨P, h, order⟩, (montgomery_eq_iff (right_ne_zero_of_smul order)).1 rfl⟩
    · rintro ⟨⟨P, h, order⟩, quotient⟩
      rw [← h.y_eq] at quotient
      exact ⟨P, h, order, (montgomery_eq_iff (right_ne_zero_of_smul order)).2 quotient⟩

/-- The neutral point is refused, whether or not its second coordinate is in lowest terms. -/
example : receivingPublic (Octets.ofNat 32 1) = .error .publicKey ∧
    receivingPublic (Octets.ofNat 32 (fieldPrime + 1)) = .error .publicKey := by decide +kernel

end SealedPost.Identity
