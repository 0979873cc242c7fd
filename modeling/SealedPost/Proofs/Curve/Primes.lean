import Mathlib.Data.ZMod.Basic
import Mathlib.NumberTheory.LucasPrimality
import Mathlib.Tactic.NormNum.Prime
import SealedPost.Curve.Field

/-!
# Two primes

The field is taken modulo a prime, and the order of the base point is another. Both are proved prime
by certificates: a number is prime if some element has full order modulo it (`lucas_primality`),
which is checked for the prime factors of its predecessor, and these have certificates of their own.

Powers are taken digit by digit. `foldl_binary` is the induction over binary digits, for these and
for all that is multiplied out by doubling.
-/

namespace SealedPost

/-! ## Binary digits -/

theorem half_testBit (n k : Nat) : 2 * (n / 2 ^ (k + 1)) + (n.testBit k).toNat = n / 2 ^ k := by
  have halved : n / 2 ^ (k + 1) = n / 2 ^ k / 2 := by
    rw [pow_succ, Nat.div_div_eq_div_mul]
  have bit : (n.testBit k).toNat = n / 2 ^ k % 2 := Nat.toNat_testBit n k
  rw [halved, bit]
  omega

/-- **Induction over binary digits.** What holds of nought, and with each further digit of the
number so far, holds of the number in the end. -/
theorem foldl_binary {α : Type*} {f : α → Bool → α} {start : α} (holds : Nat → α → Prop)
    (zero : holds 0 start)
    (digit : ∀ k a bit, holds k a → holds (2 * k + bit.toNat) (f a bit)) (n : Nat) :
    holds n ((binary n).foldl f start) := by
  have digits : ∀ width a, holds (n / 2 ^ width) a →
      holds n ((binaryDigits width n).foldl f a) := by
    intro width
    induction width with
    | zero =>
      intro a h
      rwa [pow_zero, Nat.div_one] at h
    | succ width ih =>
      intro a h
      refine ih _ ?_
      rw [← half_testBit]
      exact digit _ _ _ h
  refine digits (n.log2 + 1) start ?_
  rwa [Nat.div_eq_of_lt Nat.lt_log2_self]

/-! ## Certificates -/

/-- A power modulo a number, by squaring. -/
def powMod (m a n : Nat) : Nat :=
  (binary n).foldl (fun r bit => if bit then r * r * a % m else r * r % m) (1 % m)

theorem powMod_eq (m a n : Nat) : powMod m a n = a ^ n % m := by
  refine foldl_binary (fun k r => r = a ^ k % m) (by rw [pow_zero]) ?_ n
  rintro k _ bit rfl
  have doubled : a ^ k % m * (a ^ k % m) % m = a ^ (2 * k) % m := by
    rw [← Nat.mul_mod, two_mul, pow_add]
  cases bit with
  | false => simpa using doubled
  | true =>
    have odd : a ^ (2 * k + 1) % m = a ^ (2 * k) % m * a % m := by
      rw [pow_succ, Nat.mod_mul_mod]
    rw [Bool.toNat_true, odd, ← doubled, if_pos rfl, Nat.mod_mul_mod]

/-- A number, an element that should have full order modulo it, and the prime factors of its
predecessor, each as often as it divides. -/
structure Certificate where
  number : Nat
  witness : Nat
  factors : List Nat

/-- Whether a certificate shows that its number is prime, where the numbers in `known` are. -/
def Certificate.valid (known : List Nat) (c : Certificate) : Bool :=
  decide (1 < c.number) && c.factors.all (fun q => decide (q ∈ known)) &&
    decide (c.factors.prod = c.number - 1) &&
    decide (powMod c.number c.witness (c.number - 1) = 1) &&
    c.factors.all fun q => decide (powMod c.number c.witness ((c.number - 1) / q) ≠ 1)

/-- Whether each of these certificates is valid after those before it. -/
def validFrom : List Nat → List Certificate → Bool
  | _, [] => true
  | known, c :: rest => c.valid known && validFrom (c.number :: known) rest

theorem powMod_eq_one_iff {m : Nat} (large : 1 < m) (a n : Nat) :
    powMod m a n = 1 ↔ (a : ZMod m) ^ n = 1 := by
  rw [powMod_eq, ← Nat.cast_pow, ← Nat.cast_one (R := ZMod m), ZMod.natCast_eq_natCast_iff',
    Nat.mod_eq_of_lt large]

theorem Certificate.prime_of_valid {known : List Nat} {c : Certificate}
    (primes : ∀ q ∈ known, q.Prime) (h : c.valid known = true) : c.number.Prime := by
  simp only [valid, Bool.and_eq_true, decide_eq_true_eq, List.all_eq_true] at h
  obtain ⟨⟨⟨⟨large, known_factors⟩, product⟩, full⟩, proper⟩ := h
  refine lucas_primality c.number c.witness ((powMod_eq_one_iff large _ _).1 full) ?_
  intro q hq divides
  -- A prime that divides the product is one of the factors.
  rw [← product] at divides
  obtain ⟨p, hp, hqp⟩ := (Prime.dvd_prod_iff hq.prime).1 divides
  obtain rfl := (Nat.prime_dvd_prime_iff_eq hq (primes p (known_factors p hp))).1 hqp
  exact fun whole => proper q hp ((powMod_eq_one_iff large _ _).2 whole)

/-- All numbers of a valid list of certificates are prime. -/
theorem prime_of_validFrom {known : List Nat} {certificates : List Certificate}
    (primes : ∀ q ∈ known, q.Prime) (h : validFrom known certificates = true) :
    ∀ n ∈ certificates.map Certificate.number, n.Prime := by
  induction certificates generalizing known with
  | nil => nofun
  | cons c rest ih =>
    rw [validFrom, Bool.and_eq_true] at h
    have prime := c.prime_of_valid primes h.1
    exact List.forall_mem_cons.2 ⟨prime, ih (List.forall_mem_cons.2 ⟨prime, primes⟩) h.2⟩

/-! ## The two primes -/

/-- Primes that need no certificate. -/
def smallPrimes : List Nat :=
  [2, 3, 5, 7, 11, 13, 17, 19, 23, 31, 41, 43, 47, 73, 97, 103, 107, 127, 131, 223, 269, 307, 353,
    419, 991, 1361, 1723, 2437, 2551, 2851, 3727, 3797, 4153, 5879, 17231, 22111, 30703, 34123,
    57467, 65147, 75707, 82163]

theorem prime_of_mem_smallPrimes : ∀ q ∈ smallPrimes, q.Prime := by
  simp only [smallPrimes, List.forall_mem_cons, List.not_mem_nil, false_imp_iff, implies_true]
  norm_num

/-- The certificates that lead to the prime of the field. -/
def fieldCertificates : List Certificate :=
  [⟨132049, 26, [2, 2, 2, 2, 3, 3, 7, 131]⟩,
    ⟨430751, 17, [2, 5, 5, 5, 1723]⟩,
    ⟨569003, 2, [2, 7, 97, 419]⟩,
    ⟨1923133, 2, [2, 2, 3, 43, 3727]⟩,
    ⟨8574133, 2, [2, 2, 3, 7, 103, 991]⟩,
    ⟨2773320623, 5, [2, 2437, 569003]⟩,
    ⟨72106336199, 7, [2, 13, 2773320623]⟩,
    ⟨1919519569386763, 2, [2, 3, 7, 19, 47, 47, 127, 8574133]⟩,
    ⟨31757755568855353, 10, [2, 2, 2, 3, 31, 107, 223, 4153, 430751]⟩,
    ⟨75445702479781427272750846543864801, 7,
      [2, 2, 2, 2, 2, 3, 3, 5, 5, 75707, 72106336199, 1919519569386763]⟩,
    ⟨74058212732561358302231226437062788676166966415465897661863160754340907, 2,
      [2, 3, 353, 57467, 132049, 1923133, 31757755568855353,
        75445702479781427272750846543864801]⟩,
    ⟨fieldPrime, 2,
      [2, 2, 3, 65147, 74058212732561358302231226437062788676166966415465897661863160754340907]⟩]

/-- The certificates that lead to the order of the base point. -/
def orderCertificates : List Certificate :=
  [⟨132667, 5, [2, 3, 22111]⟩,
    ⟨137849, 3, [2, 2, 2, 17231]⟩,
    ⟨409477, 2, [2, 2, 3, 34123]⟩,
    ⟨531581, 2, [2, 2, 5, 7, 3797]⟩,
    ⟨1224481, 13, [2, 2, 2, 2, 2, 3, 5, 2551]⟩,
    ⟨14741173, 2, [2, 2, 3, 3, 409477]⟩,
    ⟨58964693, 2, [2, 2, 14741173]⟩,
    ⟨292386187, 2, [2, 3, 3, 3, 3, 307, 5879]⟩,
    ⟨213441916511, 13, [2, 5, 73, 292386187]⟩,
    ⟨1257559732178653, 2, [2, 2, 3, 7, 23, 531581, 1224481]⟩,
    ⟨4434155615661930479, 17, [2, 41, 43, 1257559732178653]⟩,
    ⟨3044861653679985063343, 5, [2, 3, 11, 30703, 82163, 132667, 137849]⟩,
    ⟨172054593956031949258510691, 2, [2, 5, 1361, 2851, 4434155615661930479]⟩,
    ⟨198211423230930754013084525763697, 5,
      [2, 2, 2, 2, 3, 23, 58964693, 3044861653679985063343]⟩,
    ⟨19757330305831588566944191468367130476339, 2,
      [2, 269, 213441916511, 172054593956031949258510691]⟩,
    ⟨276602624281642239937218680557139826668747, 2,
      [2, 7, 19757330305831588566944191468367130476339]⟩,
    ⟨Curve.order, 2,
      [2, 2, 3, 11, 198211423230930754013084525763697,
        276602624281642239937218680557139826668747]⟩]

theorem prime_fieldPrime : fieldPrime.Prime := by
  have valid : validFrom smallPrimes fieldCertificates = true := by decide +kernel
  exact prime_of_validFrom prime_of_mem_smallPrimes valid fieldPrime (by decide)

theorem prime_order : Curve.order.Prime := by
  have valid : validFrom smallPrimes orderCertificates = true := by decide +kernel
  exact prime_of_validFrom prime_of_mem_smallPrimes valid Curve.order (by decide)

end SealedPost
