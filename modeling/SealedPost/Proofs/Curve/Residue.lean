import Mathlib.NumberTheory.LegendreSymbol.Basic
import SealedPost.Proofs.Curve.Primes

/-!
# The field as residues

The field is computed with numbers below the prime. Read as residues modulo it, all its operations
are those of the field of residues, powers and inverses by squaring included, and `rootOfRatio?`
gives a root exactly if there is one.
-/

namespace SealedPost

instance : Fact fieldPrime.Prime := ⟨prime_fieldPrime⟩

/-- Residues modulo the prime of the field. -/
abbrev Residue : Type := ZMod fieldPrime

instance : NeZero (2 : Residue) := ⟨by decide +kernel⟩

namespace Field

/-- The residue that an element is. -/
def residue (x : Field) : Residue := (x.val : ZMod fieldPrime)

@[simp] theorem val_residue (x : Field) : x.residue.val = x.val :=
  ZMod.val_cast_of_lt x.isLt

theorem residue_injective : Function.Injective residue := by
  intro x y h
  apply Fin.ext
  rw [← val_residue x, h, val_residue y]

theorem residue_inj {x y : Field} : x.residue = y.residue ↔ x = y := residue_injective.eq_iff

@[simp] theorem residue_ofNat (n : Nat) : (ofNat n).residue = n := by
  rw [residue, ofNat, Fin.val_ofNat, ZMod.natCast_mod]

@[simp] theorem residue_zero : (0 : Field).residue = 0 := Nat.cast_zero

@[simp] theorem residue_one : (1 : Field).residue = 1 := Nat.cast_one

@[simp] theorem residue_add (x y : Field) : (x + y).residue = x.residue + y.residue := by
  rw [residue, Fin.val_add, ZMod.natCast_mod, Nat.cast_add]
  rfl

@[simp] theorem residue_mul (x y : Field) : (x * y).residue = x.residue * y.residue := by
  rw [residue, Fin.val_mul, ZMod.natCast_mod, Nat.cast_mul]
  rfl

@[simp] theorem residue_sub (x y : Field) : (x - y).residue = x.residue - y.residue := by
  have below : y.val ≤ fieldPrime := y.isLt.le
  rw [residue, Fin.val_sub, ZMod.natCast_mod, Nat.cast_add, Nat.cast_sub below,
    ZMod.natCast_self, zero_sub, neg_add_eq_sub]
  rfl

@[simp] theorem residue_neg (x : Field) : (-x).residue = -x.residue := by
  have below : x.val ≤ fieldPrime := x.isLt.le
  rw [residue, Fin.val_neg', ZMod.natCast_mod, Nat.cast_sub below, ZMod.natCast_self, zero_sub]
  rfl

@[simp] theorem residue_pow (x : Field) (n : Nat) : (pow x n).residue = x.residue ^ n := by
  refine foldl_binary (fun k (r : Field) => r.residue = x.residue ^ k) residue_one ?_ n
  intro k r bit h
  cases bit with
  | false => simp [h, two_mul, pow_add]
  | true => simp [h, two_mul, pow_add]

@[simp] theorem residue_inv (x : Field) : (inv x).residue = x.residue⁻¹ := by
  rw [inv, residue_pow]
  by_cases hx : x.residue = 0
  · rw [hx, inv_zero, zero_pow (by decide)]
  · apply eq_inv_of_mul_eq_one_left
    rw [← pow_succ]
    exact ZMod.pow_card_sub_one_eq_one hx

theorem toOctets_eq (x : Field) : toOctets x = Octets.ofNat 32 x.residue.val := by
  rw [toOctets, val_residue]

/-- The low 255 bits of 32 bytes, taken modulo the prime. -/
theorem residue_ofOctets (b : Octets 32) :
    (ofOctets b).residue = (b.toNat % (2 * Curve.topBit) : Nat) :=
  residue_ofNat _

/-! ## Parity -/

/-- Whether a residue is odd in lowest terms. -/
def IsOdd (x : Residue) : Prop := x.val % 2 = 1

instance (x : Residue) : Decidable (IsOdd x) := inferInstanceAs (Decidable (_ = _))

/-- Of a residue and its negation exactly one is odd, unless both are zero. -/
theorem isOdd_neg_iff {x : Residue} (nonzero : x ≠ 0) : IsOdd (-x) ↔ ¬IsOdd x := by
  have odd : fieldPrime % 2 = 1 := by decide
  have below : x.val < fieldPrime := ZMod.val_lt x
  rw [IsOdd, IsOdd, ZMod.neg_val, if_neg nonzero]
  omega

theorem not_isOdd_zero : ¬IsOdd 0 := by
  rw [IsOdd, ZMod.val_zero]
  decide

theorem not_isOdd_even (x : Field) : ¬IsOdd (even x).residue := by
  unfold even
  split
  · rename_i odd
    have odd : IsOdd x.residue := by rwa [IsOdd, val_residue]
    have nonzero : x.residue ≠ 0 := by
      intro zero
      rw [zero] at odd
      exact not_isOdd_zero odd
    rw [residue_neg, isOdd_neg_iff nonzero, not_not]
    exact odd
  · rwa [IsOdd, val_residue]

theorem sq_residue_even (x : Field) : (even x).residue ^ 2 = x.residue ^ 2 := by
  unfold even
  split
  · rw [residue_neg, neg_sq]
  · rfl

/-- Of the two roots of a square only one is even. -/
theorem eq_of_sq_eq {x y : Residue} (h : x ^ 2 = y ^ 2) (parity : IsOdd x ↔ IsOdd y) : x = y := by
  rcases sq_eq_sq_iff_eq_or_eq_neg.1 h with rfl | rfl
  · rfl
  · by_cases hy : y = 0
    · rw [hy, neg_zero]
    · rw [isOdd_neg_iff hy] at parity
      exact absurd parity not_iff_self

/-! ## Roots -/

theorem sq_rootOfMinusOne : rootOfMinusOne.residue ^ 2 = -1 := by
  have h : rootOfMinusOne * rootOfMinusOne = -1 := by decide +kernel
  have h := congrArg residue h
  rwa [residue_mul, residue_neg, residue_one, ← sq] at h

/-- The root that is tried, or that times a root of minus one, is the root. -/
theorem candidate_sq {u v x : Residue} (h : v * x ^ 2 = u) :
    v * (u * v ^ 3 * (u * v ^ 7) ^ ((fieldPrime - 5) / 8)) ^ 2 = u ∨
      v * (u * v ^ 3 * (u * v ^ 7) ^ ((fieldPrime - 5) / 8)) ^ 2 = -u := by
  have exponent : (fieldPrime - 5) / 8 * 2 + 1 = fieldPrime / 4 := by decide
  have collected : v * (u * v ^ 3 * (u * v ^ 7) ^ ((fieldPrime - 5) / 8)) ^ 2 =
      u * (u * v ^ 7) ^ (fieldPrime / 4) := by
    rw [← exponent, pow_succ (u * v ^ 7), pow_mul (u * v ^ 7)]
    ring
  have square : u * v ^ 7 = (x * v ^ 4) ^ 2 := by
    rw [← h]
    ring
  rw [collected, square, ← pow_mul, show 2 * (fieldPrime / 4) = fieldPrime / 2 by decide]
  by_cases zero : x * v ^ 4 = 0
  · have hu : u = 0 := by
      rcases mul_eq_zero.1 zero with hx | hv
      · rw [← h, hx]
        ring
      · rw [← h, pow_eq_zero_iff (by decide) |>.1 hv, zero_mul]
    simp [hu]
  · rcases ZMod.pow_div_two_eq_neg_one_or_one fieldPrime zero with one | minus
    · exact .inl (by rw [one, mul_one])
    · exact .inr (by rw [minus, mul_neg_one])

/-- The root that is tried first. -/
def candidate (u v : Field) : Field :=
  u * (v * v * v) * pow (u * (v * v * v) * (v * v * v) * v) ((fieldPrime - 5) / 8)

theorem residue_candidate (u v : Field) : (candidate u v).residue =
    u.residue * v.residue ^ 3 *
      (u.residue * v.residue ^ 7) ^ ((fieldPrime - 5) / 8) := by
  simp only [candidate, residue_mul, residue_pow]
  congr 2 <;> ring

theorem residue_square (u v : Field) : (v * candidate u v * candidate u v).residue =
    v.residue * (candidate u v).residue ^ 2 := by
  rw [residue_mul, residue_mul, mul_assoc, sq]

theorem rootOfRatio?_eq (u v : Field) : rootOfRatio? u v =
    if v * candidate u v * candidate u v = u then some (even (candidate u v))
    else if v * candidate u v * candidate u v = -u then
      some (even (candidate u v * rootOfMinusOne))
    else none :=
  rfl

/-- What is found is an even root. -/
theorem sq_of_rootOfRatio? {u v r : Field} (h : rootOfRatio? u v = some r) :
    v.residue * r.residue ^ 2 = u.residue ∧ ¬IsOdd r.residue := by
  rw [rootOfRatio?_eq] at h
  split at h
  · rename_i found
    obtain rfl := Option.some.inj h
    have found := congrArg residue found
    rw [residue_square] at found
    exact ⟨by rw [sq_residue_even, found], not_isOdd_even _⟩
  · split at h
    · rename_i found
      obtain rfl := Option.some.inj h
      have found := congrArg residue found
      rw [residue_square, residue_neg] at found
      refine ⟨?_, not_isOdd_even _⟩
      rw [sq_residue_even, residue_mul, mul_pow, sq_rootOfMinusOne]
      linear_combination -found
    · cases h

/-- A root is found where there is one. -/
theorem exists_rootOfRatio? {u v : Field} {x : Residue} (h : v.residue * x ^ 2 = u.residue) :
    ∃ r, rootOfRatio? u v = some r := by
  rw [rootOfRatio?_eq]
  have tried := candidate_sq h
  rw [← residue_candidate, ← residue_square, residue_inj, ← residue_neg, residue_inj] at tried
  split
  · exact ⟨_, rfl⟩
  · rename_i no
    rw [if_pos (tried.resolve_left no)]
    exact ⟨_, rfl⟩

end Field

end SealedPost
