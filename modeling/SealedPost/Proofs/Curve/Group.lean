import Mathlib.Tactic.LinearCombination
import Mathlib.Tactic.FieldSimp
import SealedPost.Curve.Edwards
import SealedPost.Proofs.Curve.Residue

/-!
# The group of the curve

The points with coordinates, added by the one formula that there is for all of them. Its denominators
are never zero (`complete`), because minus one is a square of the field and the constant of the curve
is not; and then the points are a commutative group. Associativity is an identity of polynomials
modulo the three equations of the points (`assoc_x`, `assoc_y`).
-/

namespace SealedPost.Edwards

/-! ## Identities -/

section
variable {R : Type*} [CommRing R]

/-- The equation of the curve. -/
def OnCurve (d x y : R) : Prop := y ^ 2 - x ^ 2 = 1 + d * x ^ 2 * y ^ 2

variable {d x₁ y₁ x₂ y₂ x₃ y₃ : R}

/-- Sums are points again; `a`, `b` and `t` stand for the parts of the formula. -/
theorem closed (h₁ : OnCurve d x₁ y₁) (h₂ : OnCurve d x₂ y₂) {a b t : R}
    (ha : a = x₁ * y₂ + y₁ * x₂) (hb : b = y₁ * y₂ + x₁ * x₂) (ht : t = d * x₁ * x₂ * y₁ * y₂) :
    (b * (1 + t)) ^ 2 - (a * (1 - t)) ^ 2 = ((1 + t) * (1 - t)) ^ 2 + d * a ^ 2 * b ^ 2 := by
  rw [OnCurve] at h₁ h₂
  subst ha hb ht
  linear_combination
    ((1 + (d * x₁ * x₂ * y₁ * y₂) ^ 2) * (y₂ ^ 2 - x₂ ^ 2) -
      d * x₂ ^ 2 * y₂ ^ 2 * (y₁ ^ 2 - x₁ ^ 2 + 1 + d * x₁ ^ 2 * y₁ ^ 2)) * h₁ +
    ((1 + (d * x₁ * x₂ * y₁ * y₂) ^ 2) * (1 + d * x₁ ^ 2 * y₁ ^ 2) -
      d * x₁ ^ 2 * y₁ ^ 2 * (y₂ ^ 2 - x₂ ^ 2 + 1 + d * x₂ ^ 2 * y₂ ^ 2)) * h₂

/-- The numerator of the first coordinate of a sum of three points, the first two added first. -/
def tripleX (d x₁ y₁ x₂ y₂ x₃ y₃ : R) : R :=
  (x₁ * y₂ + y₁ * x₂) * (1 - d * x₁ * x₂ * y₁ * y₂) * y₃ +
    (y₁ * y₂ + x₁ * x₂) * (1 + d * x₁ * x₂ * y₁ * y₂) * x₃

/-- The numerator of the second coordinate. -/
def tripleY (d x₁ y₁ x₂ y₂ x₃ y₃ : R) : R :=
  (y₁ * y₂ + x₁ * x₂) * (1 + d * x₁ * x₂ * y₁ * y₂) * y₃ +
    (x₁ * y₂ + y₁ * x₂) * (1 - d * x₁ * x₂ * y₁ * y₂) * x₃

/-- What the denominators of the coordinates have in common, and that in which they differ. -/
def tripleSame (d x₁ y₁ x₂ y₂ : R) : R := 1 - (d * x₁ * x₂ * y₁ * y₂) ^ 2

def tripleOther (d x₁ y₁ x₂ y₂ x₃ y₃ : R) : R :=
  d * (x₁ * y₂ + y₁ * x₂) * (y₁ * y₂ + x₁ * x₂) * x₃ * y₃

theorem assoc_x (h₁ : OnCurve d x₁ y₁) (h₂ : OnCurve d x₂ y₂) (h₃ : OnCurve d x₃ y₃) :
    tripleX d x₁ y₁ x₂ y₂ x₃ y₃ *
        (tripleSame d x₂ y₂ x₃ y₃ + tripleOther d x₂ y₂ x₃ y₃ x₁ y₁) =
      tripleX d x₂ y₂ x₃ y₃ x₁ y₁ *
        (tripleSame d x₁ y₁ x₂ y₂ + tripleOther d x₁ y₁ x₂ y₂ x₃ y₃) := by
  rw [OnCurve] at h₁ h₂ h₃
  simp only [tripleX, tripleSame, tripleOther]
  linear_combination
    d * x₂ * y₂ *
      (y₁ * (x₂ ^ 3 * x₃ * y₃ ^ 2 * (d * y₂ ^ 2 + 1) +
          x₂ ^ 2 * y₂ * y₃ * (d * y₂ ^ 2 * x₃ ^ 2 + y₃ ^ 2 - 1) -
          x₂ * y₂ ^ 2 * x₃ * (x₃ ^ 2 + 1) - y₂ ^ 3 * x₃ ^ 2 * y₃) -
        x₁ * (x₂ ^ 3 * x₃ ^ 2 * y₃ * (d * y₂ ^ 2 + 1) +
          x₂ ^ 2 * y₂ * x₃ * (d * y₂ ^ 2 * y₃ ^ 2 + x₃ ^ 2 + 1) -
          x₂ * y₂ ^ 2 * y₃ * (y₃ ^ 2 - 1) - y₂ ^ 3 * x₃ * y₃ ^ 2)) * h₁ +
    d * x₂ * y₂ *
      (x₂ * (x₁ * y₃ * (x₃ ^ 2 * (x₁ ^ 2 + 1) - y₁ ^ 2 * (y₃ ^ 2 - 1)) -
          y₁ * x₃ * (x₁ ^ 2 * (x₃ ^ 2 + 1) - y₃ ^ 2 * (y₁ ^ 2 - 1))) +
        y₂ * (x₁ * x₃ * (y₃ ^ 2 * (x₁ ^ 2 + 1) - y₁ ^ 2 * (x₃ ^ 2 + 1)) -
          y₁ * y₃ * (x₁ ^ 2 * (y₃ ^ 2 - 1) - x₃ ^ 2 * (y₁ ^ 2 - 1)))) * h₂ +
    d * x₂ * y₂ *
      (x₁ * (x₁ ^ 2 + 1) * x₂ * y₂ * (x₂ * x₃ + y₂ * y₃) -
        y₁ * (y₁ ^ 2 - 1) * x₂ * y₂ * (x₂ * y₃ + y₂ * x₃) +
        x₁ ^ 2 * y₁ * (x₂ ^ 3 * x₃ * (d * y₂ ^ 2 + 1) - y₂ ^ 3 * y₃ * (d * x₂ ^ 2 - 1)) -
        x₁ * y₁ ^ 2 * (x₂ ^ 3 * y₃ * (d * y₂ ^ 2 + 1) - y₂ ^ 3 * x₃ * (d * x₂ ^ 2 - 1))) * h₃

/-- Where minus one is a square, turning the third point by a quarter exchanges its coordinates, so
that the second coordinate follows from the first. -/
theorem assoc_y {i : R} (hi : i ^ 2 = -1) (h₁ : OnCurve d x₁ y₁) (h₂ : OnCurve d x₂ y₂)
    (h₃ : OnCurve d x₃ y₃) :
    tripleY d x₁ y₁ x₂ y₂ x₃ y₃ *
        (tripleSame d x₂ y₂ x₃ y₃ - tripleOther d x₂ y₂ x₃ y₃ x₁ y₁) =
      tripleY d x₂ y₂ x₃ y₃ x₁ y₁ *
        (tripleSame d x₁ y₁ x₂ y₂ - tripleOther d x₁ y₁ x₂ y₂ x₃ y₃) := by
  have fourth : i ^ 4 = 1 := by linear_combination (i ^ 2 - 1) * hi
  have turned : OnCurve d (i * y₃) (i * x₃) := by
    rw [OnCurve] at h₃ ⊢
    linear_combination h₃ + (x₃ ^ 2 - y₃ ^ 2) * hi - d * x₃ ^ 2 * y₃ ^ 2 * fourth
  have x₁₂ : tripleX d x₁ y₁ x₂ y₂ (i * y₃) (i * x₃) = i * tripleY d x₁ y₁ x₂ y₂ x₃ y₃ := by
    simp only [tripleX, tripleY]
    ring
  have other₁₂ : tripleOther d x₁ y₁ x₂ y₂ (i * y₃) (i * x₃) =
      -tripleOther d x₁ y₁ x₂ y₂ x₃ y₃ := by
    simp only [tripleOther]
    linear_combination d * (x₁ * y₂ + y₁ * x₂) * (y₁ * y₂ + x₁ * x₂) * x₃ * y₃ * hi
  have x₂₃ : tripleX d x₂ y₂ (i * y₃) (i * x₃) x₁ y₁ = i * tripleY d x₂ y₂ x₃ y₃ x₁ y₁ := by
    simp only [tripleX, tripleY]
    linear_combination i * d * x₂ * y₂ * x₃ * y₃ *
      (x₁ * (x₂ * y₃ + y₂ * x₃) - y₁ * (y₂ * y₃ + x₂ * x₃)) * hi
  have same₂₃ : tripleSame d x₂ y₂ (i * y₃) (i * x₃) = tripleSame d x₂ y₂ x₃ y₃ := by
    simp only [tripleSame]
    linear_combination -(d * x₂ * x₃ * y₂ * y₃) ^ 2 * fourth
  have other₂₃ : tripleOther d x₂ y₂ (i * y₃) (i * x₃) x₁ y₁ =
      -tripleOther d x₂ y₂ x₃ y₃ x₁ y₁ := by
    simp only [tripleOther]
    linear_combination d * (x₂ * y₃ + y₂ * x₃) * (y₂ * y₃ + x₂ * x₃) * x₁ * y₁ * hi
  have h := assoc_x h₁ h₂ turned
  rw [x₁₂, other₁₂, x₂₃, same₂₃, other₂₃] at h
  linear_combination (-i) * h + (tripleY d x₁ y₁ x₂ y₂ x₃ y₃ *
      (tripleSame d x₂ y₂ x₃ y₃ - tripleOther d x₂ y₂ x₃ y₃ x₁ y₁) -
    tripleY d x₂ y₂ x₃ y₃ x₁ y₁ *
      (tripleSame d x₁ y₁ x₂ y₂ - tripleOther d x₁ y₁ x₂ y₂ x₃ y₃)) * hi

end

/-! ## Denominators -/

/-- The constant of the curve is not a square. -/
theorem eq_zero_of_sq_eq {a b : Residue} (h : a ^ 2 = d.residue * b ^ 2) : b = 0 := by
  have euler : Field.pow d (fieldPrime / 2) = -1 := by decide +kernel
  have euler := congrArg Field.residue euler
  rw [Field.residue_pow, Field.residue_neg, Field.residue_one] at euler
  by_contra hb
  have root : (a / b) ^ 2 = d.residue := by
    rw [div_pow, h, mul_div_cancel_right₀ _ (pow_ne_zero 2 hb)]
  have nonzero : a / b ≠ 0 := by
    intro zero
    rw [← root, zero, zero_pow (by decide), zero_pow (by decide)] at euler
    exact neg_ne_zero.2 one_ne_zero euler.symm
  rw [← root, ← pow_mul, show 2 * (fieldPrime / 2) = fieldPrime - 1 by decide,
    ZMod.pow_card_sub_one_eq_one nonzero] at euler
  exact absurd euler (by decide +kernel)

/-- **No denominator is zero.** Where one is, the constant of the curve times a square is a square,
for either root of minus one, so that both squares are zero and the product that should be one or
minus one is zero too. -/
theorem complete {x₁ y₁ x₂ y₂ : Residue} (h₁ : OnCurve d.residue x₁ y₁)
    (h₂ : OnCurve d.residue x₂ y₂) : (d.residue * x₁ * x₂ * y₁ * y₂) ^ 2 ≠ 1 := by
  rw [OnCurve] at h₁ h₂
  intro one
  have square : ∀ i : Residue, i ^ 2 = -1 →
      (y₁ + d.residue * x₁ * x₂ * y₁ * y₂ * i * x₁) ^ 2 =
        d.residue * (x₁ * y₁ * (y₂ + i * x₂)) ^ 2 := by
    intro i hi
    linear_combination h₁ - d.residue * x₁ ^ 2 * y₁ ^ 2 * h₂ + (i ^ 2 * x₁ ^ 2 - 1) * one +
      (x₁ ^ 2 - d.residue * x₁ ^ 2 * x₂ ^ 2 * y₁ ^ 2) * hi
  have root : Field.rootOfMinusOne.residue ^ 2 = -1 := Field.sq_rootOfMinusOne
  have plus := eq_zero_of_sq_eq (square _ root)
  have minus := eq_zero_of_sq_eq (square _ ((neg_sq _).trans root))
  have four : (4 : Residue) = 0 := by
    linear_combination (-4) * one +
      2 * d.residue ^ 2 * x₁ * x₂ ^ 2 * y₁ * y₂ * (plus + minus)
  exact absurd four (by decide +kernel)

theorem d_mul_sq_add_one_ne_zero (y : Residue) : d.residue * y ^ 2 + 1 ≠ 0 := by
  intro zero
  have square : Field.rootOfMinusOne.residue ^ 2 = d.residue * y ^ 2 := by
    rw [Field.sq_rootOfMinusOne]
    linear_combination -zero
  rw [eq_zero_of_sq_eq square] at zero
  simp at zero

theorem onCurve_iff {x y : Residue} :
    OnCurve d.residue x y ↔ (d.residue * y ^ 2 + 1) * x ^ 2 = y ^ 2 - 1 := by
  rw [OnCurve]
  constructor
  · intro h
    linear_combination -h
  · intro h
    linear_combination -h

/-! ## Points -/

/-- A point of the curve, by its coordinates. -/
@[ext] structure Affine where
  x : Residue
  y : Residue
  on_curve : OnCurve d.residue x y
deriving DecidableEq

namespace Affine

/-- The product that the denominators of a sum differ from one by. -/
def cross (P Q : Affine) : Residue := d.residue * P.x * Q.x * P.y * Q.y

theorem one_add_cross_ne_zero (P Q : Affine) : 1 + cross P Q ≠ 0 := by
  intro zero
  refine complete P.on_curve Q.on_curve ?_
  rw [cross] at zero
  linear_combination (d.residue * P.x * Q.x * P.y * Q.y - 1) * zero

theorem one_sub_cross_ne_zero (P Q : Affine) : 1 - cross P Q ≠ 0 := by
  intro zero
  refine complete P.on_curve Q.on_curve ?_
  rw [cross] at zero
  linear_combination (-(d.residue * P.x * Q.x * P.y * Q.y) - 1) * zero

instance : Zero Affine := ⟨0, 1, by simp [OnCurve]⟩

instance : Neg Affine where
  neg P := ⟨-P.x, P.y, by simpa [OnCurve] using P.on_curve⟩

instance : Add Affine where
  add P Q :=
    { x := (P.x * Q.y + P.y * Q.x) / (1 + cross P Q)
      y := (P.y * Q.y + P.x * Q.x) / (1 - cross P Q)
      on_curve := by
        have sum := closed P.on_curve Q.on_curve rfl rfl rfl
        rw [← cross] at sum
        have plus := one_add_cross_ne_zero P Q
        have minus := one_sub_cross_ne_zero P Q
        rw [OnCurve]
        field_simp
        linear_combination sum }

@[simp] theorem zero_x : (0 : Affine).x = 0 := rfl

@[simp] theorem zero_y : (0 : Affine).y = 1 := rfl

@[simp] theorem neg_x (P : Affine) : (-P).x = -P.x := rfl

@[simp] theorem neg_y (P : Affine) : (-P).y = P.y := rfl

theorem add_x (P Q : Affine) :
    (P + Q).x * (1 + cross P Q) = P.x * Q.y + P.y * Q.x :=
  div_mul_cancel₀ _ (one_add_cross_ne_zero P Q)

theorem add_y (P Q : Affine) :
    (P + Q).y * (1 - cross P Q) = P.y * Q.y + P.x * Q.x :=
  div_mul_cancel₀ _ (one_sub_cross_ne_zero P Q)

/-- The second coordinate determines the first one up to its sign. -/
theorem sq_x_eq {P Q : Affine} (h : P.y = Q.y) : P.x ^ 2 = Q.x ^ 2 := by
  have hP := onCurve_iff.1 P.on_curve
  have hQ := onCurve_iff.1 Q.on_curve
  rw [h, ← hQ] at hP
  exact mul_left_cancel₀ (d_mul_sq_add_one_ne_zero Q.y) hP

/-- Only the neutral point has a second coordinate of one. -/
theorem y_eq_one_iff {P : Affine} : P.y = 1 ↔ P = 0 := by
  constructor
  · intro one
    have square : P.x ^ 2 = (0 : Affine).x ^ 2 := sq_x_eq one
    rw [zero_x, zero_pow two_ne_zero, pow_eq_zero_iff two_ne_zero] at square
    exact Affine.ext square one
  · rintro rfl
    rfl

/-- A point with these products is the sum. -/
theorem eq_add {P Q S : Affine} (hx : S.x * (1 + cross P Q) = P.x * Q.y + P.y * Q.x)
    (hy : S.y * (1 - cross P Q) = P.y * Q.y + P.x * Q.x) : S = P + Q :=
  Affine.ext (mul_right_cancel₀ (one_add_cross_ne_zero P Q) (hx.trans (add_x P Q).symm))
    (mul_right_cancel₀ (one_sub_cross_ne_zero P Q) (hy.trans (add_y P Q).symm))

protected theorem add_comm (P Q : Affine) : P + Q = Q + P := by
  refine eq_add ?_ ?_
  · have h := add_x P Q
    rw [cross] at h ⊢
    linear_combination h
  · have h := add_y P Q
    rw [cross] at h ⊢
    linear_combination h

protected theorem zero_add (P : Affine) : 0 + P = P := by
  symm
  refine eq_add ?_ ?_ <;> simp [cross]

protected theorem neg_add (P : Affine) : -P + P = 0 := by
  symm
  refine eq_add ?_ ?_
  · simp only [cross, zero_x, neg_x, neg_y]
    ring
  · have h := P.on_curve
    rw [OnCurve] at h
    simp only [cross, zero_y, neg_x, neg_y]
    linear_combination -h

/-! ### Three points -/

/-- What the denominators of the coordinates of a sum of three points have in common. -/
def same (P Q : Affine) : Residue := tripleSame d.residue P.x P.y Q.x Q.y

/-- That in which these denominators differ. -/
def other (P Q R : Affine) : Residue := tripleOther d.residue P.x P.y Q.x Q.y R.x R.y

theorem same_eq (P Q : Affine) : same P Q = (1 + cross P Q) * (1 - cross P Q) := by
  rw [same, tripleSame, ← cross]
  ring

theorem other_eq (P Q R : Affine) : other P Q R = same P Q * cross (P + Q) R := by
  rw [same_eq, other, tripleOther, ← add_x, ← add_y, cross.eq_1 (P + Q) R]
  ring

theorem same_add_other_ne_zero (P Q R : Affine) : same P Q + other P Q R ≠ 0 := by
  rw [other_eq, same_eq, ← mul_one_add]
  exact mul_ne_zero (mul_ne_zero (one_add_cross_ne_zero P Q) (one_sub_cross_ne_zero P Q))
    (one_add_cross_ne_zero (P + Q) R)

theorem same_sub_other_ne_zero (P Q R : Affine) : same P Q - other P Q R ≠ 0 := by
  rw [other_eq, same_eq, ← mul_one_sub]
  exact mul_ne_zero (mul_ne_zero (one_add_cross_ne_zero P Q) (one_sub_cross_ne_zero P Q))
    (one_sub_cross_ne_zero (P + Q) R)

theorem add_add_x (P Q R : Affine) : (P + Q + R).x * (same P Q + other P Q R) =
    tripleX d.residue P.x P.y Q.x Q.y R.x R.y := by
  rw [other_eq, same_eq, tripleX, ← cross, ← add_x P Q, ← add_y P Q]
  linear_combination (1 + cross P Q) * (1 - cross P Q) * add_x (P + Q) R

theorem add_add_y (P Q R : Affine) : (P + Q + R).y * (same P Q - other P Q R) =
    tripleY d.residue P.x P.y Q.x Q.y R.x R.y := by
  rw [other_eq, same_eq, tripleY, ← cross, ← add_x P Q, ← add_y P Q]
  linear_combination (1 + cross P Q) * (1 - cross P Q) * add_y (P + Q) R

protected theorem add_assoc (P Q R : Affine) : P + Q + R = P + (Q + R) := by
  rw [Affine.add_comm P (Q + R)]
  have root := Field.sq_rootOfMinusOne
  refine Affine.ext ?_ ?_
  · refine mul_right_cancel₀ (mul_ne_zero (same_add_other_ne_zero P Q R)
      (same_add_other_ne_zero Q R P)) ?_
    have turned := assoc_x P.on_curve Q.on_curve R.on_curve
    rw [← add_add_x, ← add_add_x, ← same, ← other, ← same, ← other] at turned
    linear_combination turned
  · refine mul_right_cancel₀ (mul_ne_zero (same_sub_other_ne_zero P Q R)
      (same_sub_other_ne_zero Q R P)) ?_
    have turned := assoc_y root P.on_curve Q.on_curve R.on_curve
    rw [← add_add_y, ← add_add_y, ← same, ← other, ← same, ← other] at turned
    linear_combination turned

/-- **The points of the curve are a commutative group.** -/
instance : AddCommGroup Affine where
  add_assoc := Affine.add_assoc
  zero_add := Affine.zero_add
  add_zero P := (Affine.add_comm P 0).trans (Affine.zero_add P)
  neg_add_cancel := Affine.neg_add
  add_comm := Affine.add_comm
  nsmul := nsmulRec
  zsmul := zsmulRec

end Affine

end SealedPost.Edwards
