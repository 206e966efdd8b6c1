/-
Decimals read from their own texts.

The text of a finite decimal denotes the decimal, and is a numeral when nothing was shifted: when
the exponent is zero.  The text of an infinity or a `NaN` is no number at all.

* `scientific?_text_finite`, `integer?_text_finite` — the texts of finite decimals;
* `numeral_none_of_not_isFinite` — the others.
-/
import Rollout.Number.Decimal
import Rollout.Proofs.Number.Parts

namespace Rollout

open Rollout.Text Rollout.Numeral

/-- A text that begins with neither a digit, a sign nor a point is no number. -/
theorem numeral_none_of_head (negative : Bool) {c : Char} (cs : List Char)
    (hdigit : digit? c = none) (hpoint : c ≠ '.') (hplus : c ≠ '+') (hminus : c ≠ '-') :
    scientific? digit? (Decimal.signText negative ++ c :: cs) = none ∧
      integer? digit? (Decimal.signText negative ++ c :: cs) = none := by
  have hunsigned : Unsigned (c :: cs) := by
    intro d hd
    cases hd
    exact ⟨hplus, hminus⟩
  have hsplit := (sign_signText negative).splitSign_append hunsigned
  have hspan : spanDigits digit? (c :: cs) = ([], c :: cs) := by
    rw [spanDigits, hdigit]
  have hfraction : fraction digit? (c :: cs) = ([], c :: cs) := by
    unfold fraction
    split
    · rename_i heq
      exact absurd (List.cons.inj heq).1 hpoint
    · rfl
  constructor
  · simp only [scientific?, hsplit, hspan, hfraction]
    rfl
  · simp only [integer?, hsplit, hspan]

theorem toList_text_finite (negative : Bool) (coefficient : Nat) (exponent : Int) :
    (Decimal.finite negative coefficient exponent).text.toList
      = Decimal.signText negative ++ Decimal.magnitudeText coefficient exponent :=
  String.toList_ofList

/-- The text of a finite decimal denotes the decimal. -/
theorem scientific?_text_finite (negative : Bool) (coefficient : Nat) (exponent : Int) :
    scientific? digit? (Decimal.finite negative coefficient exponent).text.toList
      = some ⟨negative, coefficient, exponent⟩ := by
  obtain ⟨p, hwf, htext, hcoefficient, hscale, -⟩ := exists_parts_decimalText coefficient exponent
  rw [toList_text_finite, ← htext, scientific?_text readsAscii_digit negative hwf, hcoefficient,
    hscale]

theorem magnitudeText_zero (coefficient : Nat) :
    Decimal.magnitudeText coefficient 0 = natText coefficient := by
  have hlen : 0 < (natText coefficient).length := List.length_pos_iff.mpr (natText_ne_nil _)
  simp only [Decimal.magnitudeText, Decimal.withPoint]
  rw [if_pos ⟨le_refl _, by omega⟩, if_neg (by omega)]
  simp

/-- The text of a finite decimal is a whole number exactly when its exponent is zero. -/
theorem integer?_text_finite (negative : Bool) (coefficient : Nat) (exponent : Int) :
    integer? digit? (Decimal.finite negative coefficient exponent).text.toList
      = if exponent = 0 then some (negative, (natText coefficient).map digitValue) else none := by
  obtain ⟨p, hwf, htext, -, -, hwhole⟩ := exists_parts_decimalText coefficient exponent
  rw [toList_text_finite, ← htext]
  split
  · rename_i hzero
    rw [integer?_text_of_isWhole readsAscii_digit negative hwf (hwhole.mpr hzero)]
    rw [Parts.text_of_isWhole (hwhole.mpr hzero), hzero, magnitudeText_zero] at htext
    rw [htext]
  · rename_i hzero
    exact integer?_text_of_not_isWhole readsAscii_digit negative hwf (mt hwhole.mp hzero)

/-- The text of a decimal that is not finite is no number. -/
theorem numeral_none_of_not_isFinite {d : Decimal} (h : d.isFinite = false) :
    scientific? digit? d.text.toList = none ∧ integer? digit? d.text.toList = none := by
  cases d with
  | finite => cases h
  | infinity negative =>
    rw [show (Decimal.infinity negative).text.toList
      = Decimal.signText negative ++ 'I' :: "nfinity".toList from String.toList_ofList]
    exact numeral_none_of_head negative _ (by decide) (by decide) (by decide) (by decide)
  | nan negative signaling diagnostic =>
    cases signaling with
    | true =>
      rw [show (Decimal.nan negative true diagnostic).text.toList
        = Decimal.signText negative ++ 's' :: ("NaN".toList ++
          (if diagnostic = 0 then [] else natText diagnostic)) by
            simp [Decimal.text]]
      exact numeral_none_of_head negative _ (by decide) (by decide) (by decide) (by decide)
    | false =>
      rw [show (Decimal.nan negative false diagnostic).text.toList
        = Decimal.signText negative ++ 'N' :: ("aN".toList ++
          (if diagnostic = 0 then [] else natText diagnostic)) by
            simp [Decimal.text]]
      exact numeral_none_of_head negative _ (by decide) (by decide) (by decide) (by decide)

end Rollout
