import SealedPost.Proofs.Curve.Ladder
import SealedPost.Proofs.Identity.ReceivingKey
import SealedPost.Proofs.Keyring

/-!
# Every seed has its keys

The two ways to the receiving key meet: the Montgomery form of the signing key and the ladder both
give the coordinate of one multiple of the base point. That is never of small order, because a
clamped number is a multiple of eight whose eighth is below the order. `ofSeed_coherent` says what
every seed gives.
-/

namespace SealedPost

/-! ## Clamping -/

namespace Curve

theorem clampNat_clampNat (n : Nat) : clampNat (clampNat n) = clampNat n := by
  have below : n % topBit / 8 * 8 < topBit := by
    have h : n % topBit < topBit := Nat.mod_lt _ (by decide)
    omega
  rw [clampNat, clampNat, Nat.add_mod_left, Nat.mod_eq_of_lt below]
  omega

/-- An eighth of a clamped number is below the order, and not nought. -/
theorem not_order_dvd_clampNat (n : Nat) : ¬order ∣ 8 * clampNat n := by
  obtain ⟨m, eightfold⟩ := eight_dvd_clampNat n
  have positive : 0 < m := by
    unfold clampNat topBit at eightfold
    omega
  have below : m < order := by
    have h := clampNat_lt n
    rw [eightfold] at h
    unfold topBit at h
    unfold order
    omega
  have coprime : Nat.Coprime order 64 := by decide +kernel
  intro divides
  rw [eightfold, ← mul_assoc] at divides
  exact Nat.not_dvd_of_pos_of_lt positive below (coprime.dvd_of_dvd_mul_left divides)

end Curve

theorem LittleEndian.toNat_append (a b : Bytes) :
    toNat (a ++ b) = toNat a + 256 ^ a.length * toNat b := by
  induction a with
  | nil => simp [toNat]
  | cons x a ih =>
    rw [List.cons_append, toNat, ih, toNat, List.length_cons, pow_succ]
    ring

/-- Bytes with the three lowest bits cleared, and of the two highest bits only the lower one set. -/
def clampBytes (b : Bytes) : Bytes :=
  (b.modify 0 (· &&& 248)).modify 31 fun last => last &&& 127 ||| 64

theorem modify_append_singleton {α : Type*} (f : α → α) (l : List α) (x : α) :
    (l ++ [x]).modify l.length f = l ++ [f x] := by
  induction l with
  | nil => rfl
  | cons y l ih => rw [List.cons_append, List.length_cons, List.modify_succ_cons, ih]; rfl

theorem clampBytes_eq (first last : UInt8) {middle : Bytes} (length : middle.length = 30) :
    clampBytes (first :: (middle ++ [last])) =
      (first &&& 248) :: (middle ++ [last &&& 127 ||| 64]) := by
  rw [clampBytes, List.modify_zero_cons, List.modify_succ_cons, ← length, modify_append_singleton]

theorem toNat_low (b : UInt8) : (b &&& 248).toNat = b.toNat / 8 * 8 := by
  have all : ∀ n < 256, n &&& 248 = n / 8 * 8 := by decide +kernel
  rw [UInt8.toNat_and]
  exact all b.toNat b.toNat_lt

theorem toNat_high (b : UInt8) : (b &&& 127 ||| 64).toNat = b.toNat % 64 + 64 := by
  have all : ∀ n < 256, (n &&& 127) ||| 64 = n % 64 + 64 := by decide +kernel
  rw [UInt8.toNat_or, UInt8.toNat_and]
  exact all b.toNat b.toNat_lt

theorem exists_ends {b : Bytes} (length : b.length = 32) : ∃ first middle last,
    middle.length = 30 ∧ b = first :: (middle ++ [last]) := by
  obtain ⟨first, rest, rfl⟩ := List.exists_cons_of_length_eq_add_one length
  obtain rfl | ⟨middle, last, rfl⟩ := List.eq_nil_or_concat rest
  · cases length
  · exact ⟨first, middle, last, by simpa using length, by rw [List.concat_eq_append]⟩

theorem toNat_clampBytes {b : Bytes} (length : b.length = 32) :
    LittleEndian.toNat (clampBytes b) = Curve.clampNat (LittleEndian.toNat b) := by
  obtain ⟨first, middle, last, inner, rfl⟩ := exists_ends length
  rw [clampBytes_eq _ _ inner]
  have first_lt := first.toNat_lt
  have middle_lt : LittleEndian.toNat middle < 2 ^ 240 := by
    have h := LittleEndian.toNat_lt middle
    rwa [inner] at h
  simp only [LittleEndian.toNat, LittleEndian.toNat_append, inner, toNat_low, toNat_high,
    Curve.clampNat, show Curve.topBit = 2 ^ 254 from rfl, show 256 ^ 30 = 2 ^ 240 from rfl]
  omega

/-- Clamping the number is clamping the bytes. -/
theorem bytes_clamp (a : Octets 32) : (Curve.clamp a).bytes = clampBytes a.bytes := by
  have length : (clampBytes a.bytes).length = 32 := by simp [clampBytes]
  have h := LittleEndian.ofNat_toNat (clampBytes a.bytes)
  rw [length, toNat_clampBytes a.length_eq] at h
  exact h

/-! ## The two ways meet -/

namespace Identity
open Edwards (Encodes)
open Edwards.Point (basePoint)

/-- The receiving key of a multiple of the base point is that multiple of the base coordinate. -/
theorem receivingPublic_mul_base {n : Nat} (large : ¬Curve.order ∣ 8 * n) :
    receivingPublic (Curve.encode (Curve.mul n Curve.base)) =
      .ok (Curve.ladder n Curve.baseCoordinate) := by
  have encodes : Encodes (Curve.encode (Curve.mul n Curve.base)) (n • basePoint) :=
    (Edwards.Point.is_base.mul n).encodes
  have climbed : Curve.ladder n Curve.baseCoordinate = (n • basePoint).montgomery :=
    Montgomery.ladder_baseCoordinate n
  have order : 8 • n • basePoint ≠ 0 := by
    rwa [← mul_nsmul', Ne, ← addOrderOf_dvd_iff_nsmul_eq_zero,
      Edwards.Point.addOrderOf_basePoint]
  rw [receivingPublic_eq encodes, if_neg order, climbed]

/-- The keys that a seed stands for meet, and the seed gives them. -/
theorem ofSeed_eq (seed : Seed) : ofSeed seed = .ok (derived seed) ∧
    receivingPublic (derived seed).signing.publicKey = .ok (derived seed).pair.publicKey := by
  have factor : Curve.clampNat (Curve.clamp (Signature.secretHalf seed.signingSeed)).toNat =
      Signature.factor seed.signingSeed := by
    rw [Curve.toNat_clamp, Curve.clampNat_clampNat, Signature.factor]
  have secret : (derived seed).pair.publicKey =
      Curve.ladder (Signature.factor seed.signingSeed) Curve.baseCoordinate :=
    congrArg (Curve.ladder · Curve.baseCoordinate) factor
  have met : receivingPublic (derived seed).signing.publicKey =
      .ok (derived seed).pair.publicKey := by
    rw [secret]
    exact receivingPublic_mul_base (Curve.not_order_dvd_clampNat _)
  exact ⟨ofSeed_eq_ok_iff.2 ⟨rfl, receivingPublic_eq_ok_iff.1 met⟩, met⟩

/-- **Every seed gives its keys, and the two ways to them meet.** The signing key is the seed, as
many zeros, and a public key that encodes a multiple of the base point; how many times it is taken
is the clamped half of a digest, which is the secret for receiving. The public key for receiving is
the Montgomery form of the signing one and belongs to that secret, and the session id spells it. -/
theorem ofSeed_coherent (seed : Seed) : ∃ identity, ofSeed seed = .ok identity ∧
    identity.seed = seed ∧
    identity.signing.toBytes.bytes =
      seed.octets.bytes ++ List.replicate 16 0 ++ identity.signing.publicKey.bytes ∧
    Encodes identity.signing.publicKey (identity.pair.secret.toNat • basePoint) ∧
    identity.pair.secret.bytes =
      clampBytes ((Sha512.hash (seed.octets.bytes ++ List.replicate 16 0)).bytes.take 32) ∧
    receivingPublic identity.signing.publicKey = .ok identity.pair.publicKey ∧
    identity.pair.publicKey = (KeyPair.ofSecret identity.pair.secret).publicKey ∧
    identity.sessionId = "05" ++ Text.Hex.encode identity.pair.publicKey.bytes := by
  obtain ⟨given, met⟩ := ofSeed_eq seed
  have encodes : Encodes (derived seed).signing.publicKey
      ((derived seed).pair.secret.toNat • basePoint) := by
    have h := (Edwards.Point.is_base.mul (Signature.factor seed.signingSeed)).encodes
    have secret : (derived seed).pair.secret.toNat = Signature.factor seed.signingSeed :=
      Curve.toNat_clamp _
    rw [secret]
    exact h
  exact ⟨derived seed, given, rfl, rfl, encodes, bytes_clamp _, met, rfl, rfl⟩

end Identity

end SealedPost
