import SealedPost.Proofs.Curve.Points

/-!
# Encoded points

Which point 32 bytes encode (`Encodes`): the low bits are its second coordinate, not necessarily in
lowest terms, and the highest bit is the parity of the first one, unless that is zero. They encode
one point at most; decoding finds it exactly if there is one, and what is written encodes the point
it was written for.
-/

namespace SealedPost.Edwards

/-- The second coordinate that 32 bytes hold. -/
def ordinate (A : Octets 32) : Residue := (A.toNat % 2 ^ 255 : Nat)

/-- Whether 32 bytes encode a point. -/
structure Encodes (A : Octets 32) (P : Affine) : Prop where
  y_eq : P.y = ordinate A
  sign : P.x = 0 ∨ (Field.IsOdd P.x ↔ A.toNat.testBit 255 = true)

/-- The bytes with the sign bit changed. -/
def flipSign (A : Octets 32) : Octets 32 := Octets.ofNat 32 (A.toNat ^^^ 2 ^ 255)

theorem residue_ofOctets (A : Octets 32) : (Field.ofOctets A).residue = ordinate A :=
  Field.residue_ofOctets A

/-- Bytes encode one point at most. -/
theorem Encodes.unique {A : Octets 32} {P Q : Affine} (hP : Encodes A P) (hQ : Encodes A Q) :
    P = Q := by
  have hy : P.y = Q.y := hP.y_eq.trans hQ.y_eq.symm
  have square : P.x ^ 2 = Q.x ^ 2 := Affine.sq_x_eq hy
  refine Affine.ext ?_ hy
  rcases hP.sign with zero | hP
  · rw [zero, zero_pow two_ne_zero, eq_comm, pow_eq_zero_iff two_ne_zero] at square
    rw [zero, square]
  · rcases hQ.sign with zero | hQ
    · rw [zero, zero_pow two_ne_zero, pow_eq_zero_iff two_ne_zero] at square
      rw [zero, square]
    · exact Field.eq_of_sq_eq square (hP.trans hQ.symm)

/-! ## Decoding -/

namespace Point

/-- A root with the sign that is asked for. -/
def signed (bit : Bool) (r : Field) : Field := if bit then -r else r

theorem sq_residue_signed (bit : Bool) (r : Field) : (signed bit r).residue ^ 2 = r.residue ^ 2 := by
  cases bit with
  | false => rfl
  | true => rw [signed, if_pos rfl, Field.residue_neg, neg_sq]

theorem sign_signed (bit : Bool) {r : Field} (even : ¬Field.IsOdd r.residue) :
    (signed bit r).residue = 0 ∨ (Field.IsOdd (signed bit r).residue ↔ bit = true) := by
  cases bit with
  | false => exact .inr (iff_of_false even Bool.false_ne_true)
  | true =>
    rw [signed, if_pos rfl, Field.residue_neg]
    by_cases zero : r.residue = 0
    · exact .inl (by rw [zero, neg_zero])
    · exact .inr (iff_of_true ((Field.isOdd_neg_iff zero).2 even) rfl)

/-- Whether a residue is a root of the ratio that is taken. -/
theorem ratio_iff {A : Octets 32} {r : Residue} :
    (d * (Field.ofOctets A * Field.ofOctets A) + 1).residue * r ^ 2 =
        (Field.ofOctets A * Field.ofOctets A - 1).residue ↔
      OnCurve d.residue r (ordinate A) := by
  simp only [Field.residue_add, Field.residue_mul, Field.residue_sub, Field.residue_one,
    residue_ofOctets]
  rw [onCurve_iff, ← sq]

theorem decode?_eq (A : Octets 32) : decode? A =
    (Field.rootOfRatio? (Field.ofOctets A * Field.ofOctets A - 1)
      (d * (Field.ofOctets A * Field.ofOctets A) + 1)).map fun r =>
        ofAffine (signed (A.toNat.testBit 255) r) (Field.ofOctets A) :=
  rfl

/-- What is decoded stands for a point that the bytes encode. -/
theorem exists_encodes {A : Octets 32} {p : Point} (h : decode? A = some p) :
    ∃ P, p.Is P ∧ Encodes A P := by
  rw [decode?_eq, Option.map_eq_some_iff] at h
  obtain ⟨r, found, rfl⟩ := h
  obtain ⟨root, even⟩ := Field.sq_of_rootOfRatio? found
  rw [← sq_residue_signed (A.toNat.testBit 255)] at root
  exact ⟨⟨_, _, ratio_iff.1 root⟩, is_ofAffine rfl (residue_ofOctets A), rfl, sign_signed _ even⟩

/-- A point that bytes encode is decoded. -/
theorem exists_decode? {A : Octets 32} {P : Affine} (h : Encodes A P) :
    ∃ p, decode? A = some p ∧ p.Is P := by
  have curve := P.on_curve
  rw [h.y_eq] at curve
  obtain ⟨r, found⟩ := Field.exists_rootOfRatio? (ratio_iff.2 curve)
  have decoded := (decode?_eq A).trans (congrArg (Option.map _) found)
  obtain ⟨P', stands, h'⟩ := exists_encodes decoded
  obtain rfl := h.unique h'
  exact ⟨_, decoded, stands⟩

/-- **Decoding finds a point exactly if there is one.** -/
theorem decode?_eq_none_iff {A : Octets 32} : decode? A = none ↔ ∀ P, ¬Encodes A P := by
  constructor
  · intro none P h
    obtain ⟨p, decoded, -⟩ := exists_decode? h
    rw [none] at decoded
    cases decoded
  · intro noPoint
    cases decoded : decode? A with
    | none => rfl
    | some p =>
      obtain ⟨P, -, h⟩ := exists_encodes decoded
      exact absurd h (noPoint P)

/-! ## Encoding -/

/-- **What is written encodes the point.** -/
theorem Is.encodes {p : Point} {P : Affine} (h : p.Is P) : Encodes p.encode P := by
  have hx : (p.x * Field.inv p.z).residue = P.x := by
    rw [Field.residue_mul, Field.residue_inv, h.x_eq, mul_inv_cancel_right₀ h.z_ne_zero]
  have hy : (p.y * Field.inv p.z).residue = P.y := by
    rw [Field.residue_mul, Field.residue_inv, h.y_eq, mul_inv_cancel_right₀ h.z_ne_zero]
  have below : P.y.val < 2 ^ 255 := (ZMod.val_lt P.y).trans (by decide)
  have toNat : p.encode.toNat = P.x.val % 2 * 2 ^ 255 + P.y.val := by
    have bit : P.x.val % 2 < 2 := Nat.mod_lt _ two_pos
    have power : 2 * Curve.topBit = 2 ^ 255 := rfl
    rw [encode, Octets.toNat_ofNat, ← Field.val_residue, ← Field.val_residue, hx, hy, power,
      Nat.add_comm]
    refine Nat.mod_eq_of_lt ?_
    have whole : Nat.pow 256 32 = 2 * 2 ^ 255 := rfl
    omega
  refine ⟨?_, .inr ?_⟩
  · rw [ordinate, toNat, Nat.mul_add_mod_of_lt below, ZMod.natCast_zmod_val]
  · have digit : (P.x.val % 2 * 2 ^ 255 + P.y.val) / 2 ^ 255 % 2 = P.x.val % 2 := by omega
    rw [toNat, Nat.testBit_eq_decide_div_mod_eq, decide_eq_true_eq, digit, Field.IsOdd]

end Point

/-! ## The sign bit -/

theorem toNat_flipSign (A : Octets 32) : (flipSign A).toNat = A.toNat ^^^ 2 ^ 255 := by
  have below : A.toNat < 2 ^ 256 := by
    have h := LittleEndian.toNat_lt A.bytes
    rwa [A.length_eq] at h
  rw [flipSign, Octets.toNat_ofNat]
  exact Nat.mod_eq_of_lt (Nat.xor_lt_two_pow below (by decide))

theorem ordinate_flipSign (A : Octets 32) : ordinate (flipSign A) = ordinate A := by
  rw [ordinate, ordinate, toNat_flipSign, Nat.xor_mod_two_pow, Nat.mod_self, Nat.xor_zero]

theorem testBit_flipSign (A : Octets 32) :
    (flipSign A).toNat.testBit 255 = true ↔ ¬A.toNat.testBit 255 = true := by
  rw [toNat_flipSign, Nat.testBit_xor, Nat.testBit_two_pow_self, Bool.xor_true,
    Bool.not_eq_true', Bool.not_eq_true]

/-- The bytes with the other sign encode the negations. -/
theorem encodes_flipSign_iff {A : Octets 32} {P : Affine} :
    Encodes (flipSign A) P ↔ Encodes A (-P) := by
  have sign : P.x = 0 ∨ (Field.IsOdd P.x ↔ (flipSign A).toNat.testBit 255 = true) ↔
      -P.x = 0 ∨ (Field.IsOdd (-P.x) ↔ A.toNat.testBit 255 = true) := by
    by_cases zero : P.x = 0
    · simp only [zero, neg_zero, true_or]
    · rw [testBit_flipSign, Field.isOdd_neg_iff zero, neg_eq_zero, or_iff_right zero,
        or_iff_right zero]
      exact iff_comm.trans not_iff_comm
  constructor
  · intro h
    exact ⟨h.y_eq.trans (ordinate_flipSign A), sign.1 h.sign⟩
  · intro h
    exact ⟨h.y_eq.trans (ordinate_flipSign A).symm, sign.2 h.sign⟩

end SealedPost.Edwards
