/-!
# Byte strings

A byte string is a list of octets. A seed, a key or a signature is a byte string whose length is
part of its type, so that a function which needs 32 bytes cannot be called with 31. Numbers are
written little-endian throughout: the curve, the one-time authenticator and the stream cipher
agree on it.
-/

namespace SealedPost

/-- A string of octets. -/
abbrev Bytes := List UInt8

theorem ofNat_eq_of_toNat {n : Nat} {b : UInt8} (h : n = b.toNat) : UInt8.ofNat n = b := by
  rw [h, UInt8.ofNat_toNat]

/-- A string of exactly `n` octets. -/
structure Octets (n : Nat) where
  bytes : Bytes
  length_eq : bytes.length = n
deriving DecidableEq

namespace Octets

/-- Reads `b` as `n` octets, if it has that many. -/
def ofBytes? (n : Nat) (b : Bytes) : Option (Octets n) :=
  if h : b.length = n then some ⟨b, h⟩ else none

def zero (n : Nat) : Octets n := ⟨List.replicate n 0, List.length_replicate⟩

/-- The octets of `a` followed by those of `b`. -/
def append {m n : Nat} (a : Octets m) (b : Octets n) : Octets (m + n) :=
  ⟨a.bytes ++ b.bytes, by simp [a.length_eq, b.length_eq]⟩

def front {n : Nat} (m : Nat) (a : Octets (m + n)) : Octets m :=
  ⟨a.bytes.take m, by simp [a.length_eq]⟩

def back {n : Nat} (m : Nat) (a : Octets (m + n)) : Octets n :=
  ⟨a.bytes.drop m, by simp [a.length_eq]⟩

@[ext] theorem ext {n : Nat} {a b : Octets n} (h : a.bytes = b.bytes) : a = b := by
  cases a; cases b; cases h; rfl

@[simp] theorem length_bytes {n : Nat} (a : Octets n) : a.bytes.length = n := a.length_eq

@[simp] theorem ofBytes?_bytes {n : Nat} (a : Octets n) : ofBytes? n a.bytes = some a := by
  simp [ofBytes?]

theorem ofBytes?_eq_some_iff {n : Nat} {b : Bytes} {a : Octets n} :
    ofBytes? n b = some a ↔ a.bytes = b := by
  constructor
  · intro h
    unfold ofBytes? at h
    split at h
    · cases h; rfl
    · cases h
  · rintro rfl; exact ofBytes?_bytes a

@[simp] theorem front_append {m n : Nat} (a : Octets m) (b : Octets n) :
    (a.append b).front m = a := by
  ext1; simp [front, append]

@[simp] theorem back_append {m n : Nat} (a : Octets m) (b : Octets n) :
    (a.append b).back m = b := by
  ext1; simp [back, append]

theorem append_front_back {m n : Nat} (a : Octets (m + n)) : (a.front m).append (a.back m) = a := by
  ext1; simp [front, back, append]

end Octets

namespace LittleEndian

/-- The number whose base-256 digits are `b`, least significant first. -/
def toNat : Bytes → Nat
  | [] => 0
  | b :: rest => b.toNat + 256 * toNat rest

/-- The `count` least significant base-256 digits of `n`. -/
def ofNat : (count : Nat) → Nat → Bytes
  | 0, _ => []
  | count + 1, n => UInt8.ofNat n :: ofNat count (n / 256)

@[simp] theorem length_ofNat (count n : Nat) : (ofNat count n).length = count := by
  induction count generalizing n with
  | zero => rfl
  | succ count ih => simp [ofNat, ih]

theorem toNat_lt (b : Bytes) : toNat b < Nat.pow 256 b.length := by
  induction b with
  | nil => simp [toNat]
  | cons x rest ih =>
    have hx := x.toNat_lt
    have hp : Nat.pow 256 (rest.length + 1) = Nat.pow 256 rest.length * 256 := rfl
    simp only [toNat, List.length_cons]
    omega

theorem toNat_ofNat (count n : Nat) : toNat (ofNat count n) = n % Nat.pow 256 count := by
  induction count generalizing n with
  | zero => simp [toNat, ofNat, Nat.mod_one]
  | succ count ih =>
    have hp : Nat.pow 256 (count + 1) = 256 * Nat.pow 256 count := Nat.mul_comm _ _
    simp only [ofNat, toNat, ih, UInt8.toNat_ofNat', Nat.reducePow]
    rw [hp, Nat.mod_mul]

theorem ofNat_toNat (b : Bytes) : ofNat b.length (toNat b) = b := by
  induction b with
  | nil => rfl
  | cons x rest ih =>
    have hx := x.toNat_lt
    have hd : (x.toNat + 256 * toNat rest) / 256 = toNat rest := by omega
    have hm : UInt8.ofNat (x.toNat + 256 * toNat rest) = x := by
      apply UInt8.toNat_inj.1
      simp only [UInt8.toNat_ofNat', Nat.reducePow]
      omega
    simp [ofNat, toNat, hd, hm, ih]

end LittleEndian

/-- The number that `a` holds, least significant octet first. -/
def Octets.toNat {n : Nat} (a : Octets n) : Nat := LittleEndian.toNat a.bytes

/-- The `n` least significant octets of a number. -/
def Octets.ofNat (n k : Nat) : Octets n := ⟨LittleEndian.ofNat n k, LittleEndian.length_ofNat n k⟩

theorem Octets.toNat_ofNat (n k : Nat) : (Octets.ofNat n k).toNat = k % Nat.pow 256 n :=
  LittleEndian.toNat_ofNat n k

end SealedPost
