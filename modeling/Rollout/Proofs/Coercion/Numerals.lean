/-
Texts as numbers.

A text is taken for an integer if it is a whole number of at most 4300 digits, and for a float if it
is a decimal number.  Anything else is a type mismatch, and so is a whole number with more digits.
The looser reader that comes after the check of the grammar finds the same number, and has no failure
of its own but the one for too many digits.

* `DenotesInteger` — the texts that are integers, and which;
* `coerceInteger_text_eq_ok_iff`, `coerceFloat_text_eq_ok_iff` — the texts that are taken;
* `denotesInteger_intText` — the text of an integer denotes it;
* `coerce_text_reads_numerals` — all that is taken, and that the rest is refused.
-/
import Mathlib.Data.List.Induction
import Mathlib.Data.Nat.Digits.Defs
import Rollout.Proofs.Coercion
import Rollout.Proofs.Number.Lenient
import Rollout.Proofs.Number.Parts

namespace Rollout

open Rollout.Text Rollout.Numeral

/-- A text is an integer: an optional sign and at most 4300 digits of any scripts, the leading one
first. -/
def DenotesInteger (s : String) (n : Int) : Prop :=
  ∃ negative ds, IntegerText digit? s.toList negative ds ∧ ds.length ≤ 4300 ∧
    n = Binary64.signed negative (Nat.ofDigits 10 ds.reverse)

theorem ofDigits_eq_ofDigits_reverse (ds : List Nat) :
    ofDigits ds = Nat.ofDigits 10 ds.reverse := by
  induction ds using List.reverseRecOn with
  | nil => rfl
  | append_singleton ds d ih =>
    rw [List.reverse_concat, Nat.ofDigits_cons, ← ih, ofDigits, List.foldl_concat, Nat.add_comm]
    rfl

/-! ### Integers -/

theorem integerOfText_of_integerText {s : String} {negative : Bool} {ds : List Nat}
    (h : IntegerText digit? s.toList negative ds) :
    integerOfText s = if ds.length ≤ 4300 then
        .ok (Binary64.signed negative (Nat.ofDigits 10 ds.reverse))
      else .error (.typeMismatch "payload is too long for an integer" "integer" "string"
        (some (.numeralTooLong ds.length))) := by
  rw [integerOfText, h.integer? readsAscii_digit, ← ofDigits_eq_ofDigits_reverse]
  rfl

theorem integerOfText_of_not_integerText {s : String}
    (h : ¬ ∃ negative ds, IntegerText digit? s.toList negative ds) :
    integerOfText s = .error (.typeMismatch
      ("payload " ++ quoted s ++ " is not a base-10 integer") "integer" "string" none) := by
  have hnone : integer? digit? s.toList = none := by
    rw [Option.eq_none_iff_forall_ne_some]
    rintro ⟨negative, ds⟩ hsome
    exact h ⟨negative, ds, (integer?_eq_some_iff readsAscii_digit).mp hsome⟩
  rw [integerOfText, hnone]

theorem DenotesInteger.coerceInteger {s : String} {n : Int} (h : DenotesInteger s n) :
    coerceInteger (.text s) = .ok (some (.int n)) := by
  obtain ⟨negative, ds, htext, hlength, rfl⟩ := h
  rw [Rollout.coerceInteger, integerOfText_of_integerText htext, if_pos hlength]
  rfl

/-- A text that is no integer is refused, for what it is or for its length. -/
theorem coerceInteger_text_of_not_denotes {s : String} (h : ¬ ∃ n, DenotesInteger s n) :
    ∃ message cause, message ≠ "" ∧
      coerceInteger (.text s) = .error (.typeMismatch message "integer" "string" cause) := by
  by_cases htext : ∃ negative ds, IntegerText digit? s.toList negative ds
  · obtain ⟨negative, ds, htext⟩ := htext
    have hlong : ¬ ds.length ≤ 4300 := fun hlength => h ⟨_, negative, ds, htext, hlength, rfl⟩
    rw [coerceInteger, integerOfText_of_integerText htext, if_neg hlong]
    exact ⟨_, _, by simp, rfl⟩
  · rw [coerceInteger, integerOfText_of_not_integerText htext]
    exact ⟨_, _, by simp, rfl⟩

/-- A text is taken for an integer exactly if it is one. -/
theorem coerceInteger_text_eq_ok_iff {s : String} {v : Option Value} :
    coerceInteger (.text s) = .ok v ↔ ∃ n, DenotesInteger s n ∧ v = some (.int n) := by
  constructor
  · intro h
    by_cases hn : ∃ n, DenotesInteger s n
    · obtain ⟨n, hn⟩ := hn
      rw [hn.coerceInteger, Except.ok.injEq] at h
      exact ⟨n, hn, h.symm⟩
    · obtain ⟨message, cause, -, herror⟩ := coerceInteger_text_of_not_denotes hn
      rw [herror] at h
      cases h
  · rintro ⟨n, hn, rfl⟩
    exact hn.coerceInteger

/-- The text of an integer denotes it. -/
theorem denotesInteger_intText {n : Int} (h : digitCount n.natAbs ≤ 4300) :
    DenotesInteger (.ofList (intText n)) n := by
  refine ⟨decide (n < 0), (natText n.natAbs).map digitValue, ?_, ?_, ?_⟩
  · rw [String.toList_ofList]
    exact integerText_intText readsAscii_digit n
  · rwa [List.length_map]
  · have hvalue := decimalValue_natText n.natAbs
    rw [decimalValue, ofDigits_eq_ofDigits_reverse] at hvalue
    rw [hvalue, signed_natAbs]

/-! ### Decimal numbers -/

/-- A text that is no decimal number is refused. -/
theorem coerceFloat_text_of_not_decimalText {s : String}
    (h : ¬ ∃ n, DecimalText digit? s.toList n) :
    coerceFloat (.text s) = .error (.typeMismatch
      ("payload " ++ quoted s ++ " is not a decimal number") "float" "string" none) := by
  have hnone : scientific? digit? s.toList = none := by
    rw [Option.eq_none_iff_forall_ne_some]
    intro n hsome
    exact h ⟨n, (scientific?_eq_some_iff readsAscii_digit).mp hsome⟩
  rw [coerceFloat, floatOfText, hnone]
  rfl

/-- A text is taken for a float exactly if it is a decimal number. -/
theorem coerceFloat_text_eq_ok_iff {s : String} {v : Option Value} :
    coerceFloat (.text s) = .ok v ↔
      ∃ n, DecimalText digit? s.toList n ∧ v = some (.float n.toBinary64) := by
  constructor
  · intro h
    by_cases hn : ∃ n, DecimalText digit? s.toList n
    · obtain ⟨n, hn⟩ := hn
      rw [coerceFloat_text hn, Except.ok.injEq] at h
      exact ⟨n, hn, h.symm⟩
    · rw [coerceFloat_text_of_not_decimalText hn] at h
      cases h
  · rintro ⟨n, hn, rfl⟩
    exact coerceFloat_text hn

/-! ### All texts -/

/-- **Numerals are read exactly, and nothing else is.**  A text is taken for an integer if it is one,
and for a float if it is a decimal number; all other texts are type mismatches.  Every integer is a
decimal number too, and the text of an integer denotes it.  Behind the check of the grammar the
looser readers find the same numbers, and they fail only on a whole number with too many digits. -/
theorem coerce_text_reads_numerals :
    (∀ (s : String) v, coerceInteger (.text s) = .ok v ↔ ∃ n, DenotesInteger s n ∧ v = some (.int n)) ∧
    (∀ (s : String) f, coerceInteger (.text s) = .error f →
      ∃ message cause, f = .typeMismatch message "integer" "string" cause) ∧
    (∀ (s : String) v, coerceFloat (.text s) = .ok v ↔
      ∃ n, DecimalText digit? s.toList n ∧ v = some (.float n.toBinary64)) ∧
    (∀ (s : String) f, coerceFloat (.text s) = .error f →
      ∃ message, f = .typeMismatch message "float" "string" none) ∧
    (∀ (s : String) negative ds, IntegerText digit? s.toList negative ds →
      lenientInteger? isBlank digit? s.toList = if ds.length ≤ 4300 then
        some (Binary64.signed negative (Nat.ofDigits 10 ds.reverse)) else none) ∧
    (∀ (s : String) n, DecimalText digit? s.toList n →
      lenientFloat? isBlank digit? s.toList = some n.toBinary64 ∧
        ∀ c ∈ s.toList, NumeralChar digit? c) ∧
    (∀ s n, DenotesInteger s n → ∃ x, coerceFloat (.text s) = .ok (some (.float x))) ∧
    ∀ n : Int, digitCount n.natAbs ≤ 4300 →
      coerceInteger (.text (.ofList (intText n))) = .ok (some (.int n)) := by
  refine ⟨fun s v => coerceInteger_text_eq_ok_iff, fun s f h => ?_,
    fun s v => coerceFloat_text_eq_ok_iff, fun s f h => ?_, fun s negative ds h => ?_,
    fun s n h => ⟨h.lenientFloat?, h.numeralChar⟩, fun s n h => ?_,
    fun n h => (denotesInteger_intText h).coerceInteger⟩
  · obtain ⟨message, cause, -, herror⟩ := coerceInteger_text_of_not_denotes (s := s) fun ⟨n, hn⟩ => by
      rw [hn.coerceInteger] at h
      cases h
    rw [herror] at h
    cases h
    exact ⟨message, cause, rfl⟩
  · rw [coerceFloat_text_of_not_decimalText fun ⟨n, hn⟩ => by
      rw [coerceFloat_text hn] at h
      cases h] at h
    cases h
    exact ⟨_, rfl⟩
  · rw [h.lenientInteger?, ← ofDigits_eq_ofDigits_reverse]
    rfl
  · obtain ⟨negative, ds, htext, -⟩ := h
    exact ⟨_, coerceFloat_text htext.decimalText⟩

end Rollout
