import SealedPost.Curve.Curve25519
import SealedPost.Proofs.Curve.Points

/-!
# The ladder

A ratio shows a point if it is the point's Montgomery coordinate (`Shows`). Doubling a ratio doubles
the point, and from two ratios that of the sum is found if the coordinate of the difference is known
and is neither zero nor infinite. So the ladder multiplies points (`ladder_eq`), though all it keeps
of them is one coordinate.
-/

namespace SealedPost.Montgomery
open Edwards (Affine OnCurve)

/-! ## Constants -/

theorem quarter_eq : (1 + quarter.residue) * Edwards.d.residue = -quarter.residue := by
  have h : (1 + quarter) * Edwards.d = -quarter := by decide +kernel
  have h := congrArg Field.residue h
  rwa [Field.residue_mul, Field.residue_add, Field.residue_one, Field.residue_neg] at h

theorem one_add_quarter_ne_zero : 1 + quarter.residue ≠ 0 := by
  have h : 1 + quarter ≠ 0 := by decide +kernel
  rwa [Ne, ← Field.residue_inj, Field.residue_add, Field.residue_one, Field.residue_zero] at h

/-- What sum and difference of a doubled ratio have in common. -/
def common (P : Affine) : Residue := 1 + quarter.residue * (1 - P.y ^ 2)

theorem common_eq (P : Affine) : (1 + P.x ^ 2) * common P = P.y ^ 2 := by
  have curve := P.on_curve
  rw [OnCurve] at curve
  rw [common]
  linear_combination (-(1 + quarter.residue)) * curve - P.x ^ 2 * P.y ^ 2 * quarter_eq

theorem common_ne_zero (P : Affine) : common P ≠ 0 := by
  intro zero
  have square : P.y ^ 2 = 0 := by rw [← common_eq, zero, mul_zero]
  rw [common, square, sub_zero, mul_one] at zero
  exact one_add_quarter_ne_zero zero

/-! ## What a ratio shows -/

/-- The sum of the parts of a ratio. -/
def Ratio.total (r : Ratio) : Residue := r.x.residue + r.z.residue

theorem Ratio.total_eq (r : Ratio) : r.x.residue + r.z.residue = r.total := rfl

/-- Whether a ratio is the Montgomery coordinate of a point: sum and difference of its parts are as
one to the second coordinate of the point. -/
structure Ratio.Shows (r : Ratio) (P : Affine) : Prop where
  total_ne_zero : r.total ≠ 0
  difference_eq : r.x.residue - r.z.residue = r.total * P.y

namespace Ratio.Shows
variable {p q : Ratio} {P Q : Affine}

/-- The ratio in lowest terms is the coordinate. -/
theorem toOctets_eq (h : p.Shows P) :
    Field.toOctets (p.x * Field.inv p.z) = P.montgomery := by
  have numerator : 2 * p.x.residue = p.total * (1 + P.y) := by
    linear_combination h.difference_eq + p.total_eq
  have denominator : 2 * p.z.residue = p.total * (1 - P.y) := by
    linear_combination p.total_eq - h.difference_eq
  have ratio : p.x.residue * p.z.residue⁻¹ = (1 + P.y) * (1 - P.y)⁻¹ := by
    rw [← div_eq_mul_inv, ← mul_div_mul_left _ _ two_ne_zero, numerator, denominator,
      mul_div_mul_left _ _ h.total_ne_zero, div_eq_mul_inv]
  rw [Field.toOctets_eq, Field.residue_mul, Field.residue_inv, ratio]
  rfl

theorem double (h : p.Shows P) : p.double.Shows (2 • P) := by
  obtain ⟨total, difference⟩ := h
  have curve := P.on_curve
  rw [OnCurve] at curve
  have x_eq : p.double.x.residue = p.total ^ 4 * P.y ^ 2 := by
    simp only [Ratio.double, Field.residue_mul, Field.residue_add, Field.residue_sub,
      Ratio.total_eq, difference]
    ring
  have z_eq : p.double.z.residue = p.total ^ 4 * ((1 - P.y ^ 2) * common P) := by
    simp only [Ratio.double, Field.residue_mul, Field.residue_add, Field.residue_sub,
      Ratio.total_eq, difference, common]
    ring
  have cross_eq : 1 - Affine.cross P P = 2 + P.x ^ 2 - P.y ^ 2 := by
    rw [Affine.cross]
    linear_combination curve
  have total_eq : p.double.total = p.total ^ 4 * common P * (1 - Affine.cross P P) := by
    rw [Ratio.total, x_eq, z_eq, cross_eq, ← common_eq]
    ring
  have doubled := Affine.add_y P P
  rw [two_nsmul]
  refine ⟨?_, ?_⟩
  · rw [total_eq]
    exact mul_ne_zero (mul_ne_zero (pow_ne_zero 4 total) (common_ne_zero P))
      (Affine.one_sub_cross_ne_zero P P)
  · rw [total_eq, mul_assoc, mul_comm (1 - _), doubled, x_eq, z_eq]
    linear_combination (-p.total ^ 4) * common_eq P

/-- The second coordinates of the sum and the difference of two points. -/
theorem y_add_y_sub (P Q : Affine) :
    (1 + (P + Q).y) * (1 + (Q - P).y) * (P.y - Q.y) ^ 2 =
      (1 - (P + Q).y) * (1 - (Q - P).y) * (P.y + Q.y) ^ 2 := by
  have hP := P.on_curve
  have hQ := Q.on_curve
  rw [OnCurve] at hP hQ
  have sum := Affine.add_y P Q
  have difference : (Q - P).y * (1 + Affine.cross P Q) = P.y * Q.y - P.x * Q.x := by
    have h := Affine.add_y Q (-P)
    rw [← sub_eq_add_neg, Affine.cross, Affine.neg_x, Affine.neg_y] at h
    rw [Affine.cross]
    linear_combination h
  have nonzero : (1 - Affine.cross P Q) * (1 + Affine.cross P Q) ≠ 0 :=
    mul_ne_zero (Affine.one_sub_cross_ne_zero P Q) (Affine.one_add_cross_ne_zero P Q)
  refine mul_left_cancel₀ nonzero ?_
  calc (1 - Affine.cross P Q) * (1 + Affine.cross P Q) *
        ((1 + (P + Q).y) * (1 + (Q - P).y) * (P.y - Q.y) ^ 2)
      = ((1 - Affine.cross P Q) + (P + Q).y * (1 - Affine.cross P Q)) *
          ((1 + Affine.cross P Q) + (Q - P).y * (1 + Affine.cross P Q)) * (P.y - Q.y) ^ 2 := by
        ring
    _ = ((1 - Affine.cross P Q) + (P.y * Q.y + P.x * Q.x)) *
          ((1 + Affine.cross P Q) + (P.y * Q.y - P.x * Q.x)) * (P.y - Q.y) ^ 2 := by
        rw [sum, difference]
    _ = ((1 - Affine.cross P Q) - (P.y * Q.y + P.x * Q.x)) *
          ((1 + Affine.cross P Q) - (P.y * Q.y - P.x * Q.x)) * (P.y + Q.y) ^ 2 := by
        rw [Affine.cross]
        linear_combination
          -4 * P.y * Q.y * Q.x ^ 2 * (Edwards.d.residue * Q.y ^ 2 + 1) * hP -
            4 * P.y * Q.y * (P.y ^ 2 - 1) * hQ
    _ = ((1 - Affine.cross P Q) - (P + Q).y * (1 - Affine.cross P Q)) *
          ((1 + Affine.cross P Q) - (Q - P).y * (1 + Affine.cross P Q)) * (P.y + Q.y) ^ 2 := by
        rw [sum, difference]
    _ = (1 - Affine.cross P Q) * (1 + Affine.cross P Q) *
          ((1 - (P + Q).y) * (1 - (Q - P).y) * (P.y + Q.y) ^ 2) := by
        ring

/-- Two points whose second coordinates are both zero differ by one whose is one or minus one. -/
theorem sq_y_sub_eq_one {P Q : Affine} (hP : P.y = 0) (hQ : Q.y = 0) : (Q - P).y ^ 2 = 1 := by
  have curveP := P.on_curve
  have curveQ := Q.on_curve
  rw [OnCurve, hP] at curveP
  rw [OnCurve, hQ] at curveQ
  have difference := Affine.add_y Q (-P)
  rw [← sub_eq_add_neg, Affine.cross, Affine.neg_x, Affine.neg_y, hP, hQ] at difference
  have product : (Q - P).y = -(Q.x * P.x) := by linear_combination difference
  rw [product]
  linear_combination (-P.x ^ 2) * curveQ + curveP

/-- Of two ratios whose difference is known, the sum is found. -/
theorem addWith {u : Field} (hp : p.Shows P) (hq : q.Shows Q) (known : (Q - P).y ^ 2 ≠ 1)
    (hu : u.residue * (1 - (Q - P).y) = 1 + (Q - P).y) : (p.addWith u q).Shows (P + Q) := by
  obtain ⟨hpt, hpd⟩ := hp
  obtain ⟨hqt, hqd⟩ := hq
  have scale : (p.total * q.total) ^ 2 ≠ 0 := pow_ne_zero 2 (mul_ne_zero hpt hqt)
  have x_eq : (p.addWith u q).x.residue = (p.total * q.total) ^ 2 * (P.y + Q.y) ^ 2 := by
    simp only [Ratio.addWith, Field.residue_mul, Field.residue_add, Field.residue_sub,
      Ratio.total_eq, hpd, hqd]
    ring
  have z_eq : (p.addWith u q).z.residue =
      (p.total * q.total) ^ 2 * (u.residue * (P.y - Q.y) ^ 2) := by
    simp only [Ratio.addWith, Field.residue_mul, Field.residue_add, Field.residue_sub,
      Ratio.total_eq, hpd, hqd]
    ring
  have one_sub_ne_zero : 1 - (Q - P).y ≠ 0 := by
    intro zero
    exact known (by linear_combination (-(Q - P).y - 1) * zero)
  have one_add_ne_zero : 1 + (Q - P).y ≠ 0 := by
    intro zero
    exact known (by linear_combination ((Q - P).y - 1) * zero)
  have proportion : (P.y + Q.y) ^ 2 * (1 - (P + Q).y) =
      u.residue * (P.y - Q.y) ^ 2 * (1 + (P + Q).y) := by
    refine mul_left_cancel₀ one_sub_ne_zero ?_
    linear_combination -(P.y - Q.y) ^ 2 * (1 + (P + Q).y) * hu - y_add_y_sub P Q
  refine ⟨?_, ?_⟩
  · intro zero
    rw [Ratio.total, x_eq, z_eq, ← mul_add, mul_eq_zero, or_iff_right scale] at zero
    have u_ne_zero : u.residue ≠ 0 := by
      intro none
      rw [none, zero_mul] at hu
      exact one_add_ne_zero hu.symm
    -- Both parts are zero, and with them the sum and the difference of the coordinates.
    have sum_eq : P.y + Q.y = 0 := by
      have twice : 2 * (P.y + Q.y) ^ 2 = 0 := by
        linear_combination proportion + (1 + (P + Q).y) * zero
      rwa [mul_eq_zero, or_iff_right two_ne_zero, pow_eq_zero_iff two_ne_zero] at twice
    have difference_eq : P.y - Q.y = 0 := by
      rwa [sum_eq, zero_pow two_ne_zero, zero_add, mul_eq_zero, or_iff_right u_ne_zero,
        pow_eq_zero_iff two_ne_zero] at zero
    have hQ : Q.y = 0 := by
      have twice : 2 * Q.y = 0 := by linear_combination sum_eq - difference_eq
      rwa [mul_eq_zero, or_iff_right two_ne_zero] at twice
    have hP : P.y = 0 := by rwa [hQ, add_zero] at sum_eq
    exact known (sq_y_sub_eq_one hP hQ)
  · rw [Ratio.total, x_eq, z_eq]
    linear_combination (p.total * q.total) ^ 2 * proportion

end Ratio.Shows

/-! ## Climbing -/

theorem shows_zero : (⟨1, 0⟩ : Ratio).Shows 0 where
  total_ne_zero := by simp [Ratio.total]
  difference_eq := by simp [Ratio.total]

theorem shows_start {u : Field} {P : Affine} (hu : u.residue * (1 - P.y) = 1 + P.y) :
    (⟨u, 1⟩ : Ratio).Shows P := by
  have total_eq : (⟨u, 1⟩ : Ratio).total = u.residue + 1 := by
    rw [Ratio.total, Field.residue_one]
  have product : (u.residue + 1) * (1 - P.y) = 2 := by linear_combination hu
  refine ⟨?_, ?_⟩
  · intro zero
    rw [← total_eq, zero, zero_mul] at product
    exact two_ne_zero product.symm
  · rw [total_eq, Field.residue_one]
    linear_combination hu

/-- One digit takes two neighbouring multiples to two neighbouring multiples. -/
theorem rung_shows {u : Field} {P : Affine} (known : P.y ^ 2 ≠ 1)
    (hu : u.residue * (1 - P.y) = 1 + P.y) {k : Nat} {s : Ratio × Ratio} (bit : Bool)
    (h : s.1.Shows (k • P) ∧ s.2.Shows ((k + 1) • P)) :
    (rung u s bit).1.Shows ((2 * k + bit.toNat) • P) ∧
      (rung u s bit).2.Shows ((2 * k + bit.toNat + 1) • P) := by
  obtain ⟨low, high⟩ := h
  have apart : (k + 1) • P - k • P = P := by rw [succ_nsmul, add_sub_cancel_left]
  have sum : (s.1.addWith u s.2).Shows ((2 * k + 1) • P) := by
    have both : (2 * k + 1) • P = k • P + (k + 1) • P := by
      rw [← add_nsmul]
      congr 1
      omega
    rw [both]
    exact low.addWith high (by rwa [apart]) (by rwa [apart])
  cases bit with
  | false =>
    refine ⟨?_, sum⟩
    have doubled := low.double
    rwa [← mul_nsmul'] at doubled
  | true =>
    refine ⟨sum, ?_⟩
    have doubled := high.double
    rwa [← mul_nsmul'] at doubled

/-- **The ladder multiplies points.** -/
theorem ladder_eq {coordinate : Octets 32} {P : Affine} (known : P.y ^ 2 ≠ 1)
    (hu : (Field.ofOctets coordinate).residue * (1 - P.y) = 1 + P.y) (n : Nat) :
    ladder n coordinate = (n • P).montgomery := by
  refine (foldl_binary
    (fun k (s : Ratio × Ratio) => s.1.Shows (k • P) ∧ s.2.Shows ((k + 1) • P)) ?_ ?_ n).1.toOctets_eq
  · rw [zero_nsmul, zero_add, one_nsmul]
    exact ⟨shows_zero, shows_start hu⟩
  · intro k s bit h
    exact rung_shows known hu bit h

/-- **Multiples of the base coordinate are the coordinates of multiples of the base point.** -/
theorem ladder_baseCoordinate (n : Nat) :
    ladder n Curve.baseCoordinate = (n • Edwards.Point.basePoint).montgomery := by
  refine ladder_eq ?_ ?_ n
  · have known : Edwards.Point.base.y * Edwards.Point.base.y ≠ 1 := by decide +kernel
    rwa [Ne, ← Field.residue_inj, Field.residue_mul, Field.residue_one, ← sq] at known
  · have quotient : Field.ofOctets Curve.baseCoordinate * (1 - Edwards.Point.base.y) =
        1 + Edwards.Point.base.y := by decide +kernel
    have quotient := congrArg Field.residue quotient
    rwa [Field.residue_mul, Field.residue_sub, Field.residue_add, Field.residue_one] at quotient

end SealedPost.Montgomery
