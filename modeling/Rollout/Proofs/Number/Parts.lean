/-
The parts of a written number.

A number is written as digits, perhaps with a point among them, and perhaps with an exponent after
a letter.  Every writer of numbers makes such parts, and every reader takes them apart again, so
that writers and readers meet here.

* `Parts.text`, `Parts.coefficient`, `Parts.scale` — what the parts are written as, and the number
  they stand for;
* `scientific?_text` — the strict reader of decimal numbers finds the parts;
* `integer?_text_of_isWhole`, `integer?_text_of_not_isWhole` — the strict reader of whole numbers
  finds digits, and refuses a point and an exponent;
* `exists_parts_decimalText` — a decimal is written in parts that keep its coefficient and
  exponent.
-/
import Mathlib.Algebra.Order.Field.Power
import Mathlib.Tactic.Ring
import Rollout.Number.Decimal
import Rollout.Proofs.Number.Grammar

namespace Rollout.Numeral

open Rollout.Text

/-- An exponent: a letter, a sign and digits. -/
structure Exponent where
  letter : Char
  negative : Bool
  digits : List Char

/-- The digits before and after the point, and the exponent. -/
structure Parts where
  whole : List Char
  part : List Char
  exponent : Option Exponent

/-- An exponent as it is written. -/
def Exponent.text (x : Exponent) : List Char :=
  x.letter :: (if x.negative then '-' else '+') :: x.digits

/-- The number that an exponent denotes. -/
def Exponent.value (x : Exponent) : Int := Binary64.signed x.negative (decimalValue x.digits)

/-- An exponent that can be read. -/
structure Exponent.WellFormed (x : Exponent) : Prop where
  letter : x.letter = 'e' ∨ x.letter = 'E'
  digits : AllDigits x.digits
  ne_nil : x.digits ≠ []

namespace Parts

/-- The digits after the point with the point. -/
def pointed (part : List Char) : List Char := if part = [] then [] else '.' :: part

/-- The exponent as it is written. -/
def tail (p : Parts) : List Char := p.exponent.elim [] Exponent.text

/-- The parts as they are written. -/
def text (p : Parts) : List Char := p.whole ++ (pointed p.part ++ p.tail)

/-- All digits as one number. -/
def coefficient (p : Parts) : Nat := decimalValue (p.whole ++ p.part)

/-- The power of ten of the last digit. -/
def scale (p : Parts) : Int := p.exponent.elim 0 Exponent.value - p.part.length

/-- Parts that can be read. -/
structure WellFormed (p : Parts) : Prop where
  whole : AllDigits p.whole
  ne_nil : p.whole ≠ []
  part : AllDigits p.part
  exponent : ∀ x ∈ p.exponent, x.WellFormed

/-- Whether there is neither a point nor an exponent. -/
def IsWhole (p : Parts) : Prop := p.part = [] ∧ p.exponent = none

end Parts

/-! ### Reading the parts -/

variable {digit : Char → Option Nat}

theorem map_digitValue_ne_nil {cs : List Char} (h : cs ≠ []) : cs.map digitValue ≠ [] :=
  fun hnil => h (List.map_eq_nil_iff.mp hnil)

theorem sign_signText (negative : Bool) : Sign (Decimal.signText negative) negative := by
  cases negative with
  | false => exact .none
  | true => exact .minus

theorem intText_eq (n : Int) :
    intText n = Decimal.signText (decide (n < 0)) ++ natText n.natAbs := by
  unfold intText Decimal.signText
  split
  · rename_i h
    rw [if_pos (decide_eq_true h)]
    rfl
  · rename_i h
    rw [if_neg (by simpa using h)]
    rfl

/-- An integer is written as a numeral. -/
theorem integerText_intText (hd : ReadsAscii digit) (n : Int) :
    IntegerText digit (intText n) (decide (n < 0)) ((natText n.natAbs).map digitValue) := by
  rw [intText_eq]
  exact .mk (sign_signText _) (hd.digits (allDigits_natText _))
    (map_digitValue_ne_nil (natText_ne_nil _))

theorem Parts.WellFormed.head?_text {p : Parts} (h : p.WellFormed) :
    ∀ c ∈ p.text.head?, c.isDigit = true := by
  intro c hc
  obtain ⟨d, ds, hw⟩ := List.exists_cons_of_ne_nil h.ne_nil
  rw [Parts.text, hw] at hc
  cases hc
  exact h.whole _ (by rw [hw]; exact List.mem_cons_self)

theorem Exponent.WellFormed.exponentText (hd : ReadsAscii digit) {x : Exponent}
    (h : x.WellFormed) : ExponentText digit x.text x.value := by
  have hsign : Sign [if x.negative then '-' else '+'] x.negative := by
    cases x.negative with
    | false => exact .plus
    | true => exact .minus
  exact .some h.letter (.mk hsign (hd.digits h.digits) (map_digitValue_ne_nil h.ne_nil))

theorem Parts.WellFormed.exponentText (hd : ReadsAscii digit) {p : Parts} (h : p.WellFormed) :
    ExponentText digit p.tail (p.exponent.elim 0 Exponent.value) := by
  cases hx : p.exponent with
  | none =>
    rw [Parts.tail, hx]
    exact .none
  | some x =>
    rw [Parts.tail, hx]
    exact (h.exponent x hx).exponentText hd

/-- What is written before the exponent is a mantissa. -/
theorem Parts.WellFormed.mantissaText (hd : ReadsAscii digit) {p : Parts} (h : p.WellFormed) :
    MantissaText digit (p.whole ++ pointed p.part) (p.whole.map digitValue)
      (p.part.map digitValue) := by
  have hne := map_digitValue_ne_nil h.ne_nil
  by_cases hpart : p.part = []
  · rw [pointed, if_pos hpart, hpart, List.append_nil]
    exact .whole (hd.digits h.whole) hne
  · rw [pointed, if_neg hpart]
    exact .pointed (hd.digits h.whole) hne (hd.digits h.part)

/-- The strict reader finds the parts of a number. -/
theorem scientific?_text (hd : ReadsAscii digit) (negative : Bool) {p : Parts}
    (h : p.WellFormed) :
    scientific? digit (Decimal.signText negative ++ p.text)
      = some ⟨negative, p.coefficient, p.scale⟩ := by
  have hdecimal := DecimalText.mk (sign_signText negative) (h.mantissaText hd) (h.exponentText hd)
  rw [List.append_assoc, ← List.map_append, List.length_map] at hdecimal
  exact (scientific?_eq_some_iff hd).mpr hdecimal

theorem Parts.WellFormed.stops_tail (hd : ReadsAscii digit) {p : Parts} (h : p.WellFormed) :
    Stops digit p.tail :=
  (h.exponentText hd).stops hd

theorem Parts.WellFormed.stops_rest (hd : ReadsAscii digit) {p : Parts} (h : p.WellFormed) :
    Stops digit (pointed p.part ++ p.tail) := by
  unfold pointed
  split
  · exact h.stops_tail hd
  · exact hd.stops_cons (by decide) (by decide) _

theorem Parts.rest_ne_nil {p : Parts} (h : ¬ p.IsWhole) : pointed p.part ++ p.tail ≠ [] := by
  intro hnil
  rw [List.append_eq_nil_iff] at hnil
  refine h ⟨?_, ?_⟩
  · by_contra hpart
    rw [pointed, if_neg hpart] at hnil
    cases hnil.1
  · cases hx : p.exponent with
    | none => rfl
    | some x =>
      rw [tail, hx] at hnil
      cases hnil.2

theorem Parts.text_of_isWhole {p : Parts} (h : p.IsWhole) : p.text = p.whole := by
  simp [Parts.text, Parts.pointed, Parts.tail, h.1, h.2]

/-- The strict reader of whole numbers takes digits only. -/
theorem integer?_text_of_isWhole (hd : ReadsAscii digit) (negative : Bool) {p : Parts}
    (h : p.WellFormed) (hwhole : p.IsWhole) :
    integer? digit (Decimal.signText negative ++ p.text)
      = some (negative, p.whole.map digitValue) := by
  rw [Parts.text_of_isWhole hwhole]
  exact (integer?_eq_some_iff hd).mpr
    (.mk (sign_signText negative) (hd.digits h.whole) (map_digitValue_ne_nil h.ne_nil))

theorem integer?_text_of_not_isWhole (hd : ReadsAscii digit) (negative : Bool) {p : Parts}
    (h : p.WellFormed) (hwhole : ¬ p.IsWhole) :
    integer? digit (Decimal.signText negative ++ p.text) = none := by
  have hne := map_digitValue_ne_nil h.ne_nil
  have hunsigned := (hd.digits h.whole).unsigned_append hd hne (Parts.pointed p.part ++ p.tail)
  have hspan := spanDigits_append hd h.whole (h.stops_rest hd)
  obtain ⟨d, ds, hds⟩ := List.exists_cons_of_ne_nil hne
  obtain ⟨c, cs, hc⟩ := List.exists_cons_of_ne_nil (Parts.rest_ne_nil hwhole)
  simp only [Parts.text, integer?, (sign_signText negative).splitSign_append hunsigned]
  rw [hspan, hds, hc]

/-! ### The parts of a decimal -/

theorem signed_natAbs (n : Int) : Binary64.signed (decide (n < 0)) n.natAbs = n := by
  unfold Binary64.signed
  split
  · rename_i h
    rw [decide_eq_true_eq] at h
    omega
  · rename_i h
    rw [decide_eq_true_eq] at h
    omega

/-- Digits behind a zero, a point and more zeros. -/
def Parts.behindZeros (zeros : Nat) (digits : List Char) : Parts :=
  ⟨['0'], List.replicate zeros '0' ++ digits, none⟩

/-- Digits with a point after some of them. -/
def Parts.pointAfter (point : Nat) (digits : List Char) : Parts :=
  ⟨digits.take point, digits.drop point, none⟩

/-- Digits with a point after the first and an exponent. -/
def Parts.withExponent (digits : List Char) (exponent : Exponent) : Parts :=
  ⟨digits.take 1, digits.drop 1, some exponent⟩

theorem Parts.behindZeros_wellFormed (zeros : Nat) {digits : List Char} (h : AllDigits digits) :
    (behindZeros zeros digits).WellFormed where
  whole := by
    intro c hc
    rw [List.mem_singleton.mp hc]
    rfl
  ne_nil := List.cons_ne_nil _ _
  part := (allDigits_replicate_zero zeros).append h
  exponent := by
    intro x hx
    cases hx

@[simp] theorem Parts.behindZeros_coefficient (zeros : Nat) (digits : List Char) :
    (behindZeros zeros digits).coefficient = decimalValue digits := by
  rw [coefficient, behindZeros, decimalValue_append, decimalValue_append,
    decimalValue_replicate_zero]
  simp

@[simp] theorem Parts.behindZeros_scale (zeros : Nat) (digits : List Char) :
    (behindZeros zeros digits).scale = -((zeros + digits.length : Nat) : Int) := by
  simp [scale, behindZeros]

theorem Parts.behindZeros_text (zeros : Nat) {digits : List Char} (h : digits ≠ []) :
    (behindZeros zeros digits).text = '0' :: '.' :: List.replicate zeros '0' ++ digits := by
  rw [text, behindZeros, pointed, if_neg (by simp [h])]
  simp [tail]

theorem Parts.behindZeros_not_isWhole (zeros : Nat) {digits : List Char} (h : digits ≠ []) :
    ¬ (behindZeros zeros digits).IsWhole := by
  intro hwhole
  have := hwhole.1
  simp [behindZeros, h] at this

theorem Parts.pointAfter_wellFormed {point : Nat} {digits : List Char} (h : AllDigits digits)
    (hne : digits ≠ []) (hpoint : 0 < point) : (pointAfter point digits).WellFormed where
  whole := h.take point
  ne_nil := by
    simp only [pointAfter, ne_eq, List.take_eq_nil_iff, not_or]
    exact ⟨by omega, hne⟩
  part := h.drop point
  exponent := by
    intro x hx
    cases hx

theorem Parts.pointAfter_text (point : Nat) (digits : List Char) :
    (pointAfter point digits).text = digits.take point ++ pointed (digits.drop point) :=
  congrArg (digits.take point ++ ·) (List.append_nil _)

@[simp] theorem Parts.pointAfter_coefficient (point : Nat) (digits : List Char) :
    (pointAfter point digits).coefficient = decimalValue digits := by
  rw [coefficient, pointAfter, List.take_append_drop]

@[simp] theorem Parts.pointAfter_scale (point : Nat) (digits : List Char) :
    (pointAfter point digits).scale = -((digits.length - point : Nat) : Int) := by
  simp [scale, pointAfter]

theorem Parts.pointAfter_isWhole_iff (point : Nat) (digits : List Char) :
    (pointAfter point digits).IsWhole ↔ digits.length ≤ point := by
  simp only [IsWhole, pointAfter, List.drop_eq_nil_iff, and_true]

theorem Parts.withExponent_wellFormed {digits : List Char} {x : Exponent} (h : AllDigits digits)
    (hne : digits ≠ []) (hx : x.WellFormed) : (withExponent digits x).WellFormed where
  whole := h.take 1
  ne_nil := by
    obtain ⟨c, cs, rfl⟩ := List.exists_cons_of_ne_nil hne
    exact List.cons_ne_nil c []
  part := h.drop 1
  exponent := by
    intro y hy
    cases hy
    exact hx

@[simp] theorem Parts.withExponent_coefficient (digits : List Char) (x : Exponent) :
    (withExponent digits x).coefficient = decimalValue digits := by
  rw [coefficient, withExponent, List.take_append_drop]

@[simp] theorem Parts.withExponent_scale (digits : List Char) (x : Exponent) :
    (withExponent digits x).scale = x.value - ((digits.length - 1 : Nat) : Int) := by
  simp [scale, withExponent]

/-- A decimal is written in parts that keep its coefficient and exponent. -/
theorem exists_parts_decimalText (coefficient : Nat) (exponent : Int) :
    ∃ p : Parts, p.WellFormed ∧ p.text = Decimal.magnitudeText coefficient exponent ∧
      p.coefficient = coefficient ∧ p.scale = exponent ∧ (p.IsWhole ↔ exponent = 0) := by
  have hall := allDigits_natText coefficient
  have hne := natText_ne_nil coefficient
  have hlen : 0 < (natText coefficient).length := List.length_pos_iff.mpr hne
  simp only [Decimal.magnitudeText, Decimal.withPoint]
  set digits := natText coefficient with hdigits
  have hvalue : decimalValue digits = coefficient := decimalValue_natText coefficient
  set left := exponent + digits.length with hleft
  by_cases hpos : exponent ≤ 0 ∧ -6 < left
  · rw [if_pos hpos]
    by_cases hzero : left ≤ 0
    · rw [if_pos hzero]
      refine ⟨Parts.behindZeros (-left).toNat digits, Parts.behindZeros_wellFormed _ hall,
        Parts.behindZeros_text _ hne, ?_, ?_, ?_⟩
      · rw [Parts.behindZeros_coefficient, hvalue]
      · rw [Parts.behindZeros_scale]
        omega
      · exact iff_of_false (Parts.behindZeros_not_isWhole _ hne) (by omega)
    · rw [if_neg hzero]
      -- The exponent is not positive, so the point stands among the digits or right after them.
      have hfill : left.toNat - (digits.take left.toNat).length = 0 := by
        rw [List.length_take]
        omega
      refine ⟨Parts.pointAfter left.toNat digits,
        Parts.pointAfter_wellFormed hall hne (by omega), ?_, ?_, ?_, ?_⟩
      · simp only [Parts.pointAfter_text, Parts.pointed, List.isEmpty_iff, hfill,
          List.replicate_zero]
        split
        · rfl
        · rfl
      · rw [Parts.pointAfter_coefficient, hvalue]
      · rw [Parts.pointAfter_scale]
        omega
      · rw [Parts.pointAfter_isWhole_iff]
        omega
  · rw [if_neg hpos, if_neg (by omega)]
    -- With one digit before the point the exponent would not be positive, and no letter is written.
    have hleft1 : left ≠ 1 := by omega
    refine ⟨Parts.withExponent digits ⟨'E', decide (left - 1 < 0), natText (left - 1).natAbs⟩,
      Parts.withExponent_wellFormed hall hne ⟨Or.inr rfl, allDigits_natText _, natText_ne_nil _⟩,
      ?_, ?_, ?_, ?_⟩
    · rw [if_neg hleft1]
      obtain ⟨d, ds, hds⟩ := List.exists_cons_of_ne_nil hne
      rw [hds]
      by_cases hds' : ds = []
      · simp [Parts.text, Parts.withExponent, Parts.pointed, Parts.tail, Exponent.text, hds']
      · simp [Parts.text, Parts.withExponent, Parts.pointed, Parts.tail, Exponent.text, hds']
    · rw [Parts.withExponent_coefficient, hvalue]
    · rw [Parts.withExponent_scale, Exponent.value, decimalValue_natText, signed_natAbs]
      omega
    · refine iff_of_false (fun hwhole => ?_) (by omega)
      cases hwhole.2

end Rollout.Numeral
