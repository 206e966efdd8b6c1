/-
Numbers as floats.

An integer, a finite decimal and a numeral each denote an exact number.  Below the limit of the range
each becomes a finite float.  From there on they part: an integer is refused, while a decimal and a
numeral go through their text and become an infinity without notice.

* `Payload.Denotes` — the exact number that a payload denotes;
* `coerceFloat_denotes` — what a payload that denotes a number becomes.
-/
import Rollout.Coercion
import Rollout.Proofs.Number.Grammar
import Rollout.Proofs.Number.Range

namespace Rollout

open Rollout.Text Rollout.Numeral Rollout.Binary64

/-- The exact number that a payload denotes. -/
inductive Payload.Denotes : Payload → ℚ → Prop
  | int (n : Int) : Denotes (.number (.int n)) n
  | decimal (n : Scientific) :
      Denotes (.number (.decimal (.finite n.negative n.coefficient n.exponent))) n.value
  | text {s : String} {n : Scientific} (h : DecimalText digit? s.toList n) :
      Denotes (.text s) n.value

/-- Whether a payload is an integer; a decimal is none, even without a fraction. -/
def Payload.isInt : Payload → Bool
  | .number (.int _) => true
  | _ => false

/-- The refusal of a number that no finite float is near. -/
def outOfRange : Failure :=
  .typeMismatch "payload is out of range for a float" "float" "number" (some .floatOverflow)

/-! ### The three ways to a float -/

theorem coerceFloat_int (n : Int) : coerceFloat (.number (.int n))
    = if |(n : ℚ)| < limit then .ok (some (.float (.ofInt n))) else .error outOfRange := by
  by_cases h : |(n : ℚ)| < limit
  · rw [if_pos h]
    simp only [coerceFloat, Number.toFloat, if_pos ((isFinite_ofInt_iff n).mpr h)]
    rfl
  · rw [if_neg h]
    simp only [coerceFloat, Number.toFloat, if_neg (fun hf => h ((isFinite_ofInt_iff n).mp hf))]
    rfl

theorem coerceFloat_decimal (n : Scientific) :
    coerceFloat (.number (.decimal (.finite n.negative n.coefficient n.exponent)))
      = .ok (some (.float n.toBinary64)) := rfl

/-- A text has a float if it is a numeral. -/
theorem coerceFloat_text {s : String} {n : Scientific} (h : DecimalText digit? s.toList n) :
    coerceFloat (.text s) = .ok (some (.float n.toBinary64)) := by
  rw [coerceFloat, floatOfText, (scientific?_eq_some_iff readsAscii_digit).mpr h]
  rfl

/-- A decimal or a numeral is taken for the float that is nearest, even if that is an infinity. -/
theorem exists_scientific_of_denotes {p : Payload} {q : ℚ} (h : p.Denotes q)
    (hint : p.isInt = false) :
    ∃ n : Scientific, q = n.value ∧ coerceFloat p = .ok (some (.float n.toBinary64)) := by
  cases h with
  | int n => cases hint
  | decimal n => exact ⟨n, rfl, coerceFloat_decimal n⟩
  | text h => exact ⟨_, rfl, coerceFloat_text h⟩

theorem exists_int_of_denotes {p : Payload} {q : ℚ} (h : p.Denotes q) (hint : p.isInt = true) :
    ∃ n : Int, q = n ∧ p = .number (.int n) := by
  cases h with
  | int n => exact ⟨n, rfl, rfl⟩
  | decimal n => cases hint
  | text h => cases hint

/-! ### Numbers in and out of range -/

/-- **Only integers are refused for their size.**  A payload that denotes a number below the limit
becomes the finite float that the number rounds to.  From the limit on, an integer is a type
mismatch, and a decimal or a numeral becomes the infinity of its sign. -/
theorem coerceFloat_denotes {p : Payload} {q : ℚ} (h : p.Denotes q) :
    (|q| < limit → ∃ x, x.isFinite = true ∧ RoundsTo q x ∧
      coerceFloat p = .ok (some (.float x))) ∧
    (limit ≤ |q| → coerceFloat p = if p.isInt then .error outOfRange
      else .ok (some (.float (.infinity (decide (q < 0)))))) := by
  cases hint : p.isInt with
  | true =>
    obtain ⟨n, rfl, rfl⟩ := exists_int_of_denotes h hint
    rw [coerceFloat_int]
    constructor
    · intro hlt
      have hround := roundsTo_ofInt hlt
      exact ⟨.ofInt n, hround.isFinite, hround, if_pos hlt⟩
    · intro hle
      rw [if_neg (not_lt.mpr hle), if_pos rfl]
  | false =>
    obtain ⟨n, rfl, hn⟩ := exists_scientific_of_denotes h hint
    rw [hn]
    constructor
    · intro hlt
      have hround := Scientific.roundsTo_toBinary64 hlt
      exact ⟨n.toBinary64, hround.isFinite, hround, rfl⟩
    · intro hle
      rw [if_neg Bool.false_ne_true, Scientific.toBinary64_of_limit_le hle]

/-- The same number as an integer, as a decimal and as a text. -/
theorem coerceFloat_denotes_tenPow :
    coerceFloat (.number (.int (-10 ^ 400))) = .error outOfRange ∧
    coerceFloat (.number (.decimal (.finite true 1 400))) = .ok (some (.float (.infinity true))) ∧
    coerceFloat (.text "-1e400") = .ok (some (.float (.infinity true))) := by
  let n : Scientific := ⟨true, 1, 400⟩
  have hint : limit ≤ |((-10 ^ 400 : Int) : ℚ)| := by
    rw [Int.cast_neg, abs_neg, Int.cast_pow, Int.cast_ofNat, abs_of_pos (by positivity)]
    exact limit_le_tenPow (by decide)
  have hsize : limit ≤ |n.value| := by
    rw [n.abs_value, Nat.cast_one, one_mul]
    exact (limit_le_tenPow (by decide)).trans_eq (zpow_natCast 10 400).symm
  have hminus : decide (n.value < 0) = true :=
    Scientific.decide_value_neg (Scientific.value_ne_zero hsize)
  have htext : DecimalText digit? "-1e400".toList n :=
    (scientific?_eq_some_iff readsAscii_digit).mp (by decide +kernel)
  refine ⟨(coerceFloat_denotes (.int _)).2 hint, ?_, ?_⟩
  · have hdecimal := (coerceFloat_denotes (.decimal n)).2 hsize
    rwa [hminus] at hdecimal
  · have hnumeral := (coerceFloat_denotes (.text htext)).2 hsize
    rwa [hminus] at hnumeral

/-- A finite decimal becomes neither a finite float nor a type mismatch. -/
theorem coerceFloat_denotes_infinity :
    ¬ ∀ (p : Payload) (q : ℚ), p.Denotes q →
      (∃ x, x.isFinite = true ∧ coerceFloat p = .ok (some (.float x))) ∨
      ∃ message expected found cause,
        coerceFloat p = .error (.typeMismatch message expected found cause) := by
  intro hclaim
  have hinfinity : coerceFloat (.number (.decimal (.finite false 1 400)))
      = .ok (some (.float (.infinity false))) := rfl
  rcases hclaim _ _ (.decimal ⟨false, 1, 400⟩) with ⟨x, hx, hfloat⟩ | ⟨_, _, _, _, herror⟩
  · rw [hinfinity] at hfloat
    cases hfloat
    cases hx
  · rw [hinfinity] at herror
    cases herror

end Rollout
