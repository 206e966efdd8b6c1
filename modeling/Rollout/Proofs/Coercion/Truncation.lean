/-
Numbers as integers.

A number loses its fraction and nothing else, however large it is and however it is scaled.  The
integer part is computed on the mantissa and the power of its base, without a division unless the
power is negative; that is the floor of the size, and the sign is put back.

* `Number.toRat?` — the exact number that an integer, a float or a decimal is;
* `Truncates` — the integer next to a number on the side of zero;
* `truncates_scaled` — the integer part of a scaled number, to any base;
* `coerceInteger_truncates` — what a number becomes.
-/
import Mathlib.Algebra.Order.Floor.Semifield
import Mathlib.Data.Rat.Floor
import Rollout.Coercion
import Rollout.Proofs.Number.Range

namespace Rollout

open Rollout.Binary64

/-- The exact number that a number is.  Infinities and `NaN`s are none. -/
def Number.toRat? : Number → Option ℚ
  | .int n => some n
  | .float x => x.toRat?
  | .decimal d => d.toRat?

/-- An integer is a number without its fraction. -/
structure Truncates (q : ℚ) (n : ℤ) : Prop where
  le : |(n : ℚ)| ≤ |q|
  lt : |q| < |(n : ℚ)| + 1
  sign : 0 ≤ (n : ℚ) * q

theorem Truncates.neg {q : ℚ} {n : ℤ} (h : Truncates q n) : Truncates (-q) (-n) where
  le := by rw [Int.cast_neg, abs_neg, abs_neg]; exact h.le
  lt := by rw [Int.cast_neg, abs_neg, abs_neg]; exact h.lt
  sign := by rw [Int.cast_neg, neg_mul_neg]; exact h.sign

/-- There is only one integer part. -/
theorem Truncates.unique {q : ℚ} {m n : ℤ} (hm : Truncates q m) (hn : Truncates q n) : m = n := by
  have hsize : |m| = |n| := by
    have hmn : |(m : ℚ)| < |(n : ℚ)| + 1 := hm.le.trans_lt hn.lt
    have hnm : |(n : ℚ)| < |(m : ℚ)| + 1 := hn.le.trans_lt hm.lt
    have hmn' : |m| < |n| + 1 := by exact_mod_cast hmn
    have hnm' : |n| < |m| + 1 := by exact_mod_cast hnm
    omega
  rcases abs_eq_abs.mp hsize with h | h
  · exact h
  · -- Parts of opposite signs both have the sign of the number, so that there is nothing of it.
    have hm' := hm.sign
    rw [h, Int.cast_neg, neg_mul] at hm'
    rcases mul_eq_zero.mp (le_antisymm (neg_nonneg.mp hm') hn.sign) with hzero | rfl
    · have hn0 : n = 0 := by exact_mod_cast hzero
      omega
    · have hzero : |(n : ℚ)| ≤ 0 := by simpa using hn.le
      have hn0 : n = 0 := by exact_mod_cast abs_nonpos_iff.mp hzero
      omega

theorem truncates_intCast (n : ℤ) : Truncates n n where
  le := le_rfl
  lt := lt_add_one _
  sign := mul_self_nonneg _

/-- The integer part of a number that is not negative is its floor. -/
theorem truncates_floor {x : ℚ} (h : 0 ≤ x) : Truncates x (⌊x⌋₊ : ℤ) where
  le := by
    rw [Int.cast_natCast, Nat.abs_cast, abs_of_nonneg h]
    exact Nat.floor_le h
  lt := by
    rw [Int.cast_natCast, Nat.abs_cast, abs_of_nonneg h]
    exact Nat.lt_floor_add_one x
  sign := mul_nonneg (by positivity) h

/-! ### Scaled numbers -/

section Scaled

variable (base : Nat) (negative : Bool) (size : Nat) (exponent : Int)

/-- The integer part of a scaled number is a floor, whichever way it is computed. -/
theorem floor_scaled :
    (if 0 ≤ exponent then size * base ^ exponent.toNat else size / base ^ (-exponent).toNat)
      = ⌊(size : ℚ) * (base : ℚ) ^ exponent⌋₊ := by
  split
  · rename_i h
    lift exponent to ℕ using h
    rw [Int.toNat_natCast, zpow_natCast, ← Nat.cast_pow, ← Nat.cast_mul, Nat.floor_natCast]
  · obtain ⟨k, rfl⟩ : ∃ k : ℕ, exponent = -(k : ℤ) := ⟨(-exponent).toNat, by omega⟩
    rw [neg_neg, Int.toNat_natCast, zpow_neg, zpow_natCast, ← div_eq_mul_inv, ← Nat.cast_pow,
      Nat.floor_div_eq_div]

/-- A scaled number as a fraction of integers. -/
theorem scaled_eq :
    (if 0 ≤ exponent then ((signed negative (size * base ^ exponent.toNat) : ℤ) : ℚ)
      else mkRat (signed negative size) (base ^ (-exponent).toNat))
      = (signed negative size : ℚ) * (base : ℚ) ^ exponent := by
  split
  · rename_i h
    lift exponent to ℕ using h
    cases negative <;> simp [signed]
  · obtain ⟨k, rfl⟩ : ∃ k : ℕ, exponent = -(k : ℤ) := ⟨(-exponent).toNat, by omega⟩
    rw [neg_neg, Int.toNat_natCast, Rat.mkRat_eq_div, zpow_neg, zpow_natCast, ← div_eq_mul_inv,
      Nat.cast_pow]

/-- The integer part of a scaled number loses the fraction and nothing else. -/
theorem truncates_scaled :
    Truncates ((signed negative size : ℚ) * (base : ℚ) ^ exponent)
      (signed negative (if 0 ≤ exponent then size * base ^ exponent.toNat
        else size / base ^ (-exponent).toNat)) := by
  have hsize : Truncates ((size : ℚ) * (base : ℚ) ^ exponent)
      (⌊(size : ℚ) * (base : ℚ) ^ exponent⌋₊ : ℤ) := truncates_floor (by positivity)
  rw [floor_scaled]
  cases negative with
  | false => simpa [signed] using hsize
  | true =>
    have hneg := hsize.neg
    rw [← neg_mul] at hneg
    simpa [signed] using hneg

end Scaled

/-! ### All numbers -/

namespace Number

/-- The exact number of a finite float, as a power of two. -/
theorem toRat?_float (negative : Bool) (mantissa : Nat) (exponent : Int) :
    (float (.finite negative mantissa exponent)).toRat?
      = some ((signed negative mantissa : ℚ) * 2 ^ exponent) :=
  congrArg some (scaled_eq 2 negative mantissa exponent)

/-- The exact number of a finite decimal, as a power of ten. -/
theorem toRat?_decimal (negative : Bool) (coefficient : Nat) (exponent : Int) :
    (decimal (.finite negative coefficient exponent)).toRat?
      = some ((signed negative coefficient : ℚ) * 10 ^ exponent) :=
  congrArg some (scaled_eq 10 negative coefficient exponent)

/-- The integer part of a number that is exact, as it is computed. -/
theorem exists_toInteger {n : Number} {q : ℚ} (h : n.toRat? = some q) :
    ∃ k, n.toInteger = .ok k ∧ Truncates q k := by
  cases n with
  | int k =>
    cases h
    exact ⟨k, rfl, truncates_intCast k⟩
  | float x =>
    cases x with
    | finite negative mantissa exponent =>
      rw [toRat?_float] at h
      cases h
      exact ⟨_, rfl, truncates_scaled 2 negative mantissa exponent⟩
    | _ => cases h
  | decimal d =>
    cases d with
    | finite negative coefficient exponent =>
      rw [toRat?_decimal] at h
      cases h
      exact ⟨_, rfl, truncates_scaled 10 negative coefficient exponent⟩
    | _ => cases h

/-- The numbers that are not exact are the infinities and the `NaN`s. -/
theorem toRat?_eq_none_iff {n : Number} : n.toRat? = none ↔
    (∃ x, n = .float x ∧ x.isFinite = false) ∨ ∃ d, n = .decimal d ∧ d.isFinite = false := by
  cases n with
  | int k => simp [toRat?]
  | float x => cases x <;> simp [toRat?, Binary64.toRat?, Binary64.isFinite]
  | decimal d => cases d <;> simp [toRat?, Decimal.toRat?, Decimal.isFinite]

end Number

/-- A number that is exact becomes its integer part. -/
theorem coerceInteger_of_toRat? {n : Number} {q : ℚ} (h : n.toRat? = some q) :
    ∃ k, coerceInteger (.number n) = .ok (some (.int k)) ∧ Truncates q k := by
  obtain ⟨k, hk, htruncates⟩ := Number.exists_toInteger h
  refine ⟨k, ?_, htruncates⟩
  rw [coerceInteger, hk]
  rfl

theorem coerceInteger_of_toRat?_eq_none {n : Number} (h : n.toRat? = none) :
    coerceInteger (.number n) = .error (.typeMismatch
      ("payload " ++ n.value.literal ++ " has no integer value") "integer" "number" none) := by
  rcases Number.toRat?_eq_none_iff.mp h with ⟨x, rfl, hx⟩ | ⟨d, rfl, hd⟩
  · cases x with
    | finite negative mantissa exponent => cases hx
    | _ => rfl
  · cases d with
    | finite negative coefficient exponent => cases hd
    | _ => rfl

/-- **Integers of numbers are truncated exactly.**  A number that is exact, be it an integer, a finite
float or a finite decimal, becomes the one integer that is the number without its fraction.  The
others are the infinities and the `NaN`s, signaling or not, and they are type mismatches. -/
theorem coerceInteger_truncates (n : Number) :
    Payload.ofValue n.value = .ok (.number n) ∧
    (∀ q, n.toRat? = some q → ∃ k, coerceInteger (.number n) = .ok (some (.int k)) ∧
      Truncates q k ∧ ∀ m, Truncates q m → m = k) ∧
    (n.toRat? = none → coerceInteger (.number n) = .error (.typeMismatch
      ("payload " ++ n.value.literal ++ " has no integer value") "integer" "number" none)) ∧
    (n.toRat? = none ↔
      (∃ x, n = .float x ∧ x.isFinite = false) ∨ ∃ d, n = .decimal d ∧ d.isFinite = false) := by
  refine ⟨by cases n <;> rfl, fun q hq => ?_, coerceInteger_of_toRat?_eq_none,
    Number.toRat?_eq_none_iff⟩
  obtain ⟨k, hk, htruncates⟩ := coerceInteger_of_toRat? hq
  exact ⟨k, hk, htruncates, fun m hm => hm.unique htruncates⟩

/-- A negative fraction is not rounded down. -/
example : coerceInteger (.number (.decimal (.finite true 29 (-1)))) = .ok (some (.int (-2))) := rfl

end Rollout
