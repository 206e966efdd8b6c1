/-
Readers that allow more than the grammar of numerals.

The looser readers strip the blanks around a text and take out the underscores between its digits
before they read it.  A numeral of the strict grammar has neither.  So there is nothing to tidy, and
what comes after the check for the grammar cannot fail where the check succeeded.

* `NumeralChar` — the characters that numerals are made of, none of which is a blank;
* `IntegerText.decimalText` — a whole number is a decimal number too;
* `IntegerText.lenientInteger?`, `DecimalText.lenientFloat?` — the looser readers on the numerals of
  the strict grammar.
-/
import Rollout.Proofs.Number.Grammar

namespace Rollout.Text

theorem trimBy_eq_self {set : Char → Bool} {cs : List Char} (h : ∀ c ∈ cs, set c = false) :
    trimBy set cs = cs := by
  have hdrop : ∀ ds : List Char, (∀ c ∈ ds, set c = false) → ds.dropWhile set = ds := by
    intro ds hds
    cases ds with
    | nil => rfl
    | cons d ds => rw [List.dropWhile_cons_of_neg (by simp [hds d List.mem_cons_self])]
  rw [trimBy, hdrop cs h, hdrop cs.reverse fun c hc => h c (List.mem_reverse.mp hc),
    List.reverse_reverse]

/-- No digit is blank. -/
theorem isBlank_of_digit? {c : Char} {d : Nat} (h : digit? c = some d) : isBlank c = false := by
  obtain ⟨hd, base, hbase, hc⟩ := digit?_eq_some_iff.mp h
  -- The blanks come in four places, and no script is in any of them.
  have hgaps : ∀ base ∈ 48 :: digitZeros, 0x20 < base ∧ base + 9 < 0x85 ∨
      0xA0 < base ∧ base + 9 < 0x1680 ∨ 0x1680 < base ∧ base + 9 < 0x2000 ∨ 0x3000 < base := by
    decide
  have := hgaps base hbase
  simp only [isBlank, isWhite, Bool.or_eq_false_iff, Bool.and_eq_false_iff, decide_eq_false_iff_not,
    beq_eq_false_iff_ne]
  omega

end Rollout.Text

namespace Rollout.Numeral

open Rollout.Text

/-- The characters that numerals are made of. -/
inductive NumeralChar (digit : Char → Option Nat) : Char → Prop
  | digit (c : Char) (d : Nat) (h : digit c = some d) : NumeralChar digit c
  | plus : NumeralChar digit '+'
  | minus : NumeralChar digit '-'
  | point : NumeralChar digit '.'
  | exponent (c : Char) (h : c = 'e' ∨ c = 'E') : NumeralChar digit c

variable {digit : Char → Option Nat} {blank : Char → Bool}

/-! ### What numerals are made of -/

theorem Sign.numeralChar {sign : List Char} {negative : Bool} (h : Sign sign negative) :
    ∀ c ∈ sign, NumeralChar digit c := by
  intro c hc
  cases h with
  | none => cases hc
  | plus =>
    rw [List.mem_singleton.mp hc]
    exact .plus
  | minus =>
    rw [List.mem_singleton.mp hc]
    exact .minus

theorem Digits.numeralChar {cs : List Char} {ds : List Nat} (h : Digits digit cs ds) :
    ∀ c ∈ cs, NumeralChar digit c := by
  induction h with
  | nil => simp
  | cons hc _ ih => exact List.forall_mem_cons.mpr ⟨.digit _ _ hc, ih⟩

theorem IntegerText.numeralChar {cs : List Char} {negative : Bool} {ds : List Nat}
    (h : IntegerText digit cs negative ds) : ∀ c ∈ cs, NumeralChar digit c := by
  obtain ⟨hsign, hcs, -⟩ := h
  exact List.forall_mem_append.mpr ⟨hsign.numeralChar, hcs.numeralChar⟩

theorem MantissaText.numeralChar {cs : List Char} {ds ps : List Nat}
    (h : MantissaText digit cs ds ps) : ∀ c ∈ cs, NumeralChar digit c := by
  cases h with
  | whole hcs _ => exact hcs.numeralChar
  | pointed hcs _ hbs =>
    exact List.forall_mem_append.mpr
      ⟨hcs.numeralChar, List.forall_mem_cons.mpr ⟨.point, hbs.numeralChar⟩⟩
  | leading hbs _ => exact List.forall_mem_cons.mpr ⟨.point, hbs.numeralChar⟩

theorem ExponentText.numeralChar {cs : List Char} {e : Int} (h : ExponentText digit cs e) :
    ∀ c ∈ cs, NumeralChar digit c := by
  cases h with
  | none => simp
  | some hletter hcs => exact List.forall_mem_cons.mpr ⟨.exponent _ hletter, hcs.numeralChar⟩

theorem DecimalText.numeralChar {cs : List Char} {n : Scientific} (h : DecimalText digit cs n) :
    ∀ c ∈ cs, NumeralChar digit c := by
  obtain ⟨hsign, hms, hes⟩ := h
  exact List.forall_mem_append.mpr ⟨hsign.numeralChar,
    List.forall_mem_append.mpr ⟨hms.numeralChar, hes.numeralChar⟩⟩

/-- A whole number is a decimal number without a point and an exponent. -/
theorem IntegerText.decimalText {cs : List Char} {negative : Bool} {ds : List Nat}
    (h : IntegerText digit cs negative ds) :
    DecimalText digit cs ⟨negative, ofDigits ds, 0⟩ := by
  obtain ⟨hsign, hcs, hne⟩ := h
  have hdecimal := DecimalText.mk hsign (.whole hcs hne) .none
  simpa using hdecimal

/-! ### The looser readers -/

theorem NumeralChar.ne_underscore (hd : ReadsAscii digit) {c : Char} (h : NumeralChar digit c) :
    c ≠ '_' := by
  cases h with
  | digit c d h => exact hd.ne_of_digit h (by decide) (by decide)
  | exponent c h => obtain rfl | rfl := h <;> decide
  | _ => decide

/-- No character of a numeral is blank. -/
theorem NumeralChar.isBlank {c : Char} (h : NumeralChar digit? c) : isBlank c = false := by
  cases h with
  | digit c d h => exact isBlank_of_digit? h
  | exponent c h => obtain rfl | rfl := h <;> rfl
  | _ => rfl

theorem joinDigits?_eq_self {cs : List Char} (h : ∀ c ∈ cs, c ≠ '_') (after : Bool) :
    joinDigits? digit after cs = some cs := by
  induction cs generalizing after with
  | nil => rfl
  | cons c cs ih =>
    obtain ⟨hc, hcs⟩ := List.forall_mem_cons.mp h
    rw [joinDigits?, if_neg hc, ih hcs]
    rfl

/-- There is nothing to tidy in the characters of a numeral. -/
theorem tidy?_eq_self {cs : List Char} (h : ∀ c ∈ cs, NumeralChar digit? c) :
    tidy? isBlank digit? cs = some cs := by
  rw [tidy?, trimBy_eq_self fun c hc => (h c hc).isBlank]
  exact joinDigits?_eq_self (fun c hc => (h c hc).ne_underscore readsAscii_digit) false

theorem IntegerText.lenientInteger? {cs : List Char} {negative : Bool} {ds : List Nat}
    (h : IntegerText digit? cs negative ds) :
    lenientInteger? isBlank digit? cs = bounded? (negative, ds) := by
  rw [Numeral.lenientInteger?, tidy?_eq_self h.numeralChar, Option.bind_some,
    h.integer? readsAscii_digit, Option.bind_some]

theorem DecimalText.lenientFloat? {cs : List Char} {n : Scientific}
    (h : DecimalText digit? cs n) :
    lenientFloat? isBlank digit? cs = some n.toBinary64 := by
  rw [Numeral.lenientFloat?, tidy?_eq_self h.numeralChar, Option.bind_some,
    (scientific?_eq_some_iff readsAscii_digit).mpr h]

end Rollout.Numeral
