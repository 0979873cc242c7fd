import Mathlib.GroupTheory.OrderOfElement
import SealedPost.Proofs.Curve.Group

/-!
# Points with a common denominator

What is computed with stands for points of the group (`Point.Is`), and sums, negations, multiples
and the test for small order are those of the group. The base point has the order that is a prime.
-/

namespace SealedPost.Edwards

/-- The Montgomery coordinate of a point, which is zero for the neutral one. -/
def Affine.montgomery (P : Affine) : Octets 32 :=
  Octets.ofNat 32 ((1 + P.y) * (1 - P.y)⁻¹).val

namespace Point

/-- Whether a point with a common denominator stands for this point of the curve. -/
structure Is (p : Point) (P : Affine) : Prop where
  z_ne_zero : p.z.residue ≠ 0
  x_eq : p.x.residue = P.x * p.z.residue
  y_eq : p.y.residue = P.y * p.z.residue
  t_eq : p.t.residue = P.x * P.y * p.z.residue

theorem is_ofAffine {x y : Field} {P : Affine} (hx : x.residue = P.x) (hy : y.residue = P.y) :
    (ofAffine x y).Is P where
  z_ne_zero := by simp [ofAffine]
  x_eq := by simp [ofAffine, hx]
  y_eq := by simp [ofAffine, hy]
  t_eq := by simp [ofAffine, hx, hy]

theorem is_zero : zero.Is 0 := is_ofAffine Field.residue_zero Field.residue_one

namespace Is
variable {p q : Point} {P Q : Affine}

/-- The denominator of a sum is four times those of both squared, times those of the coordinates. -/
theorem add (hp : p.Is P) (hq : q.Is Q) : (p.add q).Is (P + Q) := by
  obtain ⟨hpz, hpx, hpy, hpt⟩ := hp
  obtain ⟨hqz, hqx, hqy, hqt⟩ := hq
  have hz : (p.add q).z.residue = 4 * (p.z.residue * q.z.residue) ^ 2 *
      ((1 - Affine.cross P Q) * (1 + Affine.cross P Q)) := by
    simp only [Point.add, Field.residue_mul, Field.residue_add, Field.residue_sub, hpt, hqt,
      Affine.cross]
    ring
  refine ⟨?_, ?_, ?_, ?_⟩
  · rw [hz]
    have four : (4 : Residue) ≠ 0 := by decide +kernel
    exact mul_ne_zero (mul_ne_zero four (pow_ne_zero 2 (mul_ne_zero hpz hqz)))
      (mul_ne_zero (Affine.one_sub_cross_ne_zero P Q) (Affine.one_add_cross_ne_zero P Q))
  · have hx : (p.add q).x.residue = 4 * (p.z.residue * q.z.residue) ^ 2 *
        ((P.x * Q.y + P.y * Q.x) * (1 - Affine.cross P Q)) := by
      simp only [Point.add, Field.residue_mul, Field.residue_add, Field.residue_sub, hpx, hpy, hpt,
        hqx, hqy, hqt, Affine.cross]
      ring
    rw [hx, hz, ← Affine.add_x]
    ring
  · have hy : (p.add q).y.residue = 4 * (p.z.residue * q.z.residue) ^ 2 *
        ((P.y * Q.y + P.x * Q.x) * (1 + Affine.cross P Q)) := by
      simp only [Point.add, Field.residue_mul, Field.residue_add, Field.residue_sub, hpx, hpy, hpt,
        hqx, hqy, hqt, Affine.cross]
      ring
    rw [hy, hz, ← Affine.add_y]
    ring
  · have ht : (p.add q).t.residue = 4 * (p.z.residue * q.z.residue) ^ 2 *
        ((P.x * Q.y + P.y * Q.x) * (P.y * Q.y + P.x * Q.x)) := by
      simp only [Point.add, Field.residue_mul, Field.residue_add, Field.residue_sub, hpx, hpy, hqx,
        hqy]
      ring
    rw [ht, hz, ← Affine.add_x, ← Affine.add_y]
    ring

theorem double (h : p.Is P) : p.double.Is (2 • P) := by
  rw [two_nsmul]
  exact h.add h

/-- The multiple by doubling is the multiple. -/
theorem mul (h : p.Is P) (n : Nat) : (p.mul n).Is (n • P) := by
  refine foldl_binary (fun k (q : Point) => q.Is (k • P)) ?_ ?_ n
  · rw [zero_nsmul]
    exact is_zero
  · intro k q bit hq
    have doubled : q.double.Is ((2 * k) • P) := by
      rw [mul_nsmul']
      exact hq.double
    cases bit with
    | false => exact doubled
    | true => simpa [add_nsmul] using doubled.add h

theorem isZero_iff (h : p.Is P) : p.isZero = true ↔ P = 0 := by
  rw [Point.isZero, Bool.and_eq_true, decide_eq_true_eq, decide_eq_true_eq, ← Field.residue_inj,
    ← Field.residue_inj, Field.residue_zero, h.x_eq, h.y_eq, mul_eq_zero, or_iff_left h.z_ne_zero,
    mul_eq_right₀ h.z_ne_zero, Affine.ext_iff, Affine.zero_x, Affine.zero_y]

/-- **The test for small order tells whether eight times the point is nought.** -/
theorem smallOrder_iff (h : p.Is P) : p.smallOrder = true ↔ 8 • P = 0 := by
  have eightfold : 8 • P = 2 • 2 • 2 • P := by simp only [smul_smul, Nat.reduceMul]
  rw [eightfold]
  exact h.double.double.double.isZero_iff

/-- The Montgomery coordinate of a point is that of what it stands for. -/
theorem montgomery_eq (h : p.Is P) : p.montgomery = P.montgomery := by
  have numerator : (p.z + p.y).residue = (1 + P.y) * p.z.residue := by
    rw [Field.residue_add, h.y_eq]
    ring
  have denominator : (p.z - p.y).residue = (1 - P.y) * p.z.residue := by
    rw [Field.residue_sub, h.y_eq]
    ring
  rw [Point.montgomery, Field.toOctets_eq, Field.residue_mul, Field.residue_inv, numerator,
    denominator, mul_inv, mul_mul_mul_comm, mul_inv_cancel₀ h.z_ne_zero, mul_one]
  rfl

end Is

/-! ## The base point -/

/-- The base point of the group. -/
def basePoint : Affine where
  x := base.x.residue
  y := base.y.residue
  on_curve := by
    have h : base.y * base.y - base.x * base.x =
        1 + d * (base.x * base.x) * (base.y * base.y) := by decide +kernel
    have h := congrArg Field.residue h
    simp only [Field.residue_add, Field.residue_sub, Field.residue_mul, Field.residue_one] at h
    simpa only [OnCurve, sq] using h

theorem is_base : base.Is basePoint := is_ofAffine rfl rfl

/-- **The order of the base point is the prime.** -/
theorem addOrderOf_basePoint : addOrderOf basePoint = Curve.order := by
  have : Fact Curve.order.Prime := ⟨prime_order⟩
  have whole : (base.mul Curve.order).isZero = true := by decide +kernel
  have first : base.isZero ≠ true := by decide +kernel
  refine addOrderOf_eq_prime ((is_base.mul _).isZero_iff.1 whole) ?_
  rwa [Ne, is_base.isZero_iff] at first

end Point

end SealedPost.Edwards
