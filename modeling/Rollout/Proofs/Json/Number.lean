/-
Numbers read back from JSON.

A written number is made of parts, and the reader of JSON finds the same parts.  Digits alone are
an integer; a point or an exponent make a float.

* `Ends` — what may follow a value;
* `scanAtom_parts` — the parts of a number are read back;
* `scanAtom_int`, `scanAtom_float` — integers and finite floats read back.
-/
import Rollout.Json.Reader
import Rollout.Json.Writer
import Rollout.Proofs.Number.ShortestText

namespace Rollout.Json

open Rollout.Text Rollout.Numeral

/-- What may follow a value: nothing, a gap, a comma or a closing mark. -/
def Ends (rest : List Char) : Prop :=
  ∀ c ∈ rest.head?, isGap c = true ∨ c = ',' ∨ c = ']' ∨ c = '\x7d'

theorem ends_nil : Ends [] := by
  intro c hc
  cases hc

theorem Ends.cases {rest : List Char} (h : Ends rest) {c : Char} (hc : c ∈ rest.head?) :
    c = ' ' ∨ c = '\t' ∨ c = '\n' ∨ c = '\r' ∨ c = ',' ∨ c = ']' ∨ c = '\x7d' := by
  rcases h c hc with hgap | h
  · simp only [isGap, Bool.or_eq_true, beq_iff_eq] at hgap
    tauto
  · tauto

theorem Ends.stops {rest : List Char} (h : Ends rest) : Stops asciiDigit? rest := by
  intro c hc
  rcases h.cases hc with rfl | rfl | rfl | rfl | rfl | rfl | rfl <;> rfl

theorem Ends.head_ne {rest : List Char} (h : Ends rest) {c : Char} (hc : c ∈ rest.head?) :
    c ≠ '.' ∧ c ≠ 'e' ∧ c ≠ 'E' := by
  rcases h.cases hc with rfl | rfl | rfl | rfl | rfl | rfl | rfl <;> decide

/-! ### The parts of a number -/

theorem scanWhole?_append {p : Parts} (h : p.WellFormed)
    (hunpadded : p.whole = ['0'] ∨ p.whole.head? ≠ some '0') {rest : List Char}
    (hrest : Stops asciiDigit? rest) :
    scanWhole? (p.whole ++ rest) = some (p.whole.map digitValue, rest) := by
  obtain ⟨c, cs, hw⟩ := List.exists_cons_of_ne_nil h.ne_nil
  have hspan := spanDigits_append readsAscii_asciiDigit h.whole hrest
  -- The reader takes a leading zero as the whole number, so only a lone zero may begin with one.
  rcases hunpadded with hzero | hhead
  · rw [hzero]
    rfl
  · have hc : c ≠ '0' := by
      rintro rfl
      exact hhead (by rw [hw]; rfl)
    rw [scanWhole?, hspan, hw, List.map_cons]
    intro tail heq
    rw [hw, List.cons_append, List.cons.injEq] at heq
    exact hc heq.1

theorem scanFraction_of_head_ne {cs : List Char} (h : ∀ c ∈ cs.head?, c ≠ '.') :
    scanFraction cs = (none, cs) := by
  cases cs with
  | nil => rfl
  | cons c cs =>
    rw [scanFraction]
    intro rest heq
    rw [List.cons.injEq] at heq
    exact h c rfl heq.1

theorem scanExponent_of_head_ne {cs : List Char} (h : ∀ c ∈ cs.head?, c ≠ 'e' ∧ c ≠ 'E') :
    scanExponent cs = (none, cs) := by
  cases cs with
  | nil => rfl
  | cons c cs =>
    obtain ⟨he, hE⟩ := h c rfl
    rw [scanExponent.eq_def]
    simp only [he, hE, or_self, if_false]

theorem scanExponent_tail {p : Parts} (h : p.WellFormed) {rest : List Char} (hrest : Ends rest) :
    scanExponent (p.tail ++ rest) = (p.exponent.map Exponent.value, rest) := by
  cases hx : p.exponent with
  | none =>
    rw [Parts.tail, hx, Option.elim_none, List.nil_append]
    exact scanExponent_of_head_ne fun c hc => (hrest.head_ne hc).2
  | some x =>
    have hwf := h.exponent x hx
    have hsplit : splitSign ((if x.negative then '-' else '+') :: (x.digits ++ rest))
        = (x.negative, x.digits ++ rest) := by
      cases x.negative <;> rfl
    have hspan := spanDigits_append readsAscii_asciiDigit hwf.digits hrest.stops
    obtain ⟨d, ds, hds⟩ := List.exists_cons_of_ne_nil (map_digitValue_ne_nil hwf.ne_nil)
    simp only [Parts.tail, hx, Option.elim_some, Exponent.text, List.cons_append, scanExponent,
      if_pos hwf.letter, hsplit, hspan, hds, Option.map_some, Exponent.value, decimalValue]

theorem Parts.stops_tail_append {p : Parts} (h : p.WellFormed) {rest : List Char}
    (hrest : Ends rest) : Stops asciiDigit? (p.tail ++ rest) := by
  cases hx : p.exponent with
  | none =>
    rw [Parts.tail, hx]
    exact hrest.stops
  | some x =>
    rw [Parts.tail, hx]
    rcases (h.exponent x hx).letter with hl | hl <;>
      exact readsAscii_asciiDigit.stops_cons (by rw [hl]; rfl) (by rw [hl]; decide) _

/-- The digits after the point, if there is one. -/
def partDigits (p : Parts) : Option (List Nat) :=
  if p.part = [] then none else some (p.part.map digitValue)

theorem scanFraction_rest {p : Parts} (h : p.WellFormed) {rest : List Char} (hrest : Ends rest) :
    scanFraction (Parts.pointed p.part ++ (p.tail ++ rest)) = (partDigits p, p.tail ++ rest) := by
  unfold Parts.pointed partDigits
  split
  · refine scanFraction_of_head_ne ?_
    rw [List.nil_append]
    cases hx : p.exponent with
    | none =>
      rw [Parts.tail, hx, Option.elim_none, List.nil_append]
      exact fun c hc => (hrest.head_ne hc).1
    | some x =>
      intro c hc
      rw [Parts.tail, hx, Option.elim_some, Exponent.text, List.cons_append] at hc
      cases hc
      rcases (h.exponent x hx).letter with hl | hl <;> rw [hl] <;> decide
  · rename_i hpart
    have hspan := spanDigits_append readsAscii_asciiDigit h.part (Parts.stops_tail_append h hrest)
    obtain ⟨d, ds, hds⟩ := List.exists_cons_of_ne_nil (map_digitValue_ne_nil hpart)
    rw [List.cons_append, scanFraction, hspan, hds]

/-- The value of parts: an integer, if they are digits only. -/
def partsValue (negative : Bool) (p : Parts) : Except Stop Value :=
  numberValue negative (p.whole.map digitValue) (partDigits p) (p.exponent.map Exponent.value)

theorem partsValue_of_isWhole (negative : Bool) {p : Parts} (hwhole : p.IsWhole)
    (hshort : p.whole.length ≤ maxDigits) :
    partsValue negative p = .ok (.int (Binary64.signed negative (decimalValue p.whole))) := by
  rw [partsValue, partDigits, if_pos hwhole.1, hwhole.2]
  simp only [numberValue, Option.map_none, List.length_map, if_pos hshort, decimalValue]

theorem partsValue_of_not_isWhole (negative : Bool) {p : Parts} (hwhole : ¬ p.IsWhole) :
    partsValue negative p = .ok (.float (.ofScaled negative p.coefficient p.scale)) := by
  have hpart : (partDigits p).getD [] = p.part.map digitValue := by
    unfold partDigits
    split
    · rename_i hnil
      rw [hnil]
      rfl
    · rfl
  have hscale : (p.exponent.map Exponent.value).getD 0 = p.exponent.elim 0 Exponent.value := by
    cases p.exponent <;> rfl
  unfold partsValue numberValue
  split
  · rename_i hnone hnone'
    refine absurd ⟨?_, Option.map_eq_none_iff.mp hnone'⟩ hwhole
    by_contra hne
    rw [partDigits, if_neg hne] at hnone
    cases hnone
  · rw [hpart, hscale]
    simp only [← List.map_append, List.length_map, Parts.coefficient, Parts.scale, decimalValue]

theorem scanNumber_parts (negative : Bool) {p : Parts} (h : p.WellFormed)
    (hunpadded : p.whole = ['0'] ∨ p.whole.head? ≠ some '0') {value : Value}
    (hvalue : partsValue negative p = .ok value) {rest : List Char} (hrest : Ends rest) :
    scanNumber (Decimal.signText negative ++ p.text ++ rest) = .ok (value, rest) := by
  have hstops : Stops asciiDigit? (Parts.pointed p.part ++ (p.tail ++ rest)) := by
    unfold Parts.pointed
    split
    · exact Parts.stops_tail_append h hrest
    · exact readsAscii_asciiDigit.stops_cons (by decide) (by decide) _
  have hwhole : scanWhole? (p.text ++ rest)
      = some (p.whole.map digitValue, Parts.pointed p.part ++ (p.tail ++ rest)) := by
    rw [Parts.text, List.append_assoc, List.append_assoc]
    exact scanWhole?_append h hunpadded hstops
  rw [partsValue] at hvalue
  cases negative with
  | true =>
    have hsign : Decimal.signText true ++ p.text ++ rest = '-' :: (p.text ++ rest) := rfl
    rw [hsign, scanNumber]
    simp only [hwhole, scanFraction_rest h hrest, scanExponent_tail h hrest, hvalue]
  | false =>
    have hsign : Decimal.signText false ++ p.text ++ rest = p.text ++ rest := rfl
    rw [hsign, scanNumber]
    · simp only [hwhole, scanFraction_rest h hrest, scanExponent_tail h hrest, hvalue]
    -- Without a sign the text begins with a digit, so the reader's case for a minus does not apply.
    · intro unsigned heq
      have hhead := h.head?_text
      obtain ⟨c, cs, hw⟩ := List.exists_cons_of_ne_nil h.ne_nil
      rw [Parts.text, hw] at heq hhead
      cases heq
      exact absurd (hhead '-' rfl) (by decide)

/-! ### Numbers are no words -/

/-- A text that begins with a digit, perhaps after a minus, begins with no word. -/
theorem words_signText (negative : Bool) {cs : List Char} (hne : cs ≠ [])
    (h : ∀ c ∈ cs.head?, c.isDigit = true) :
    (words.findSome? fun word =>
      (dropWord? word.1 (Decimal.signText negative ++ cs)).map fun rest => (word.2, rest))
        = none := by
  obtain ⟨c, cs, rfl⟩ := List.exists_cons_of_ne_nil hne
  have hc : c.isDigit = true := h c rfl
  have hne : ∀ d : Char, d.isDigit = false → d ≠ c := by
    rintro d hd rfl
    rw [hd] at hc
    cases hc
  have hn := hne 'n' (by decide)
  have ht := hne 't' (by decide)
  have hf := hne 'f' (by decide)
  have hN := hne 'N' (by decide)
  have hI := hne 'I' (by decide)
  have hminus := hne '-' (by decide)
  cases negative <;>
    simp [words, Decimal.signText, dropWord?, hn, ht, hf, hN, hI, hminus]

/-- **Numbers read back.**  The parts of a number are read as its value, whatever follows them. -/
theorem scanAtom_parts (negative : Bool) {p : Parts} (h : p.WellFormed)
    (hunpadded : p.whole = ['0'] ∨ p.whole.head? ≠ some '0') {value : Value}
    (hvalue : partsValue negative p = .ok value) {rest : List Char} (hrest : Ends rest) :
    scanAtom (Decimal.signText negative ++ p.text ++ rest) = .ok (value, rest) := by
  have hwords := @words_signText negative (p.text ++ rest)
    (List.append_ne_nil_of_left_ne_nil (List.append_ne_nil_of_left_ne_nil h.ne_nil _) _) (by
      intro c hc
      obtain ⟨d, ds, hw⟩ := List.exists_cons_of_ne_nil h.ne_nil
      refine h.head?_text c ?_
      rw [Parts.text, hw] at hc ⊢
      exact hc)
  rw [← List.append_assoc] at hwords
  rw [scanAtom, hwords]
  exact scanNumber_parts negative h hunpadded hvalue hrest

theorem scanAtom_int (n : Int) (h : digitCount n.natAbs ≤ maxDigits) {rest : List Char}
    (hrest : Ends rest) : scanAtom (intText n ++ rest) = .ok (.int n, rest) := by
  have hwf : (Parts.mk (natText n.natAbs) [] none).WellFormed :=
    ⟨allDigits_natText _, natText_ne_nil _, allDigits_replicate_zero 0, fun x hx => by cases hx⟩
  have hunpadded : natText n.natAbs = ['0'] ∨ (natText n.natAbs).head? ≠ some '0' := by
    by_cases hzero : n.natAbs = 0
    · left
      rw [hzero]
      rfl
    · exact Or.inr (head?_natText hzero)
  have hvalue := @partsValue_of_isWhole (decide (n < 0)) ⟨natText n.natAbs, [], none⟩ ⟨rfl, rfl⟩ h
  have hscan := scanAtom_parts _ hwf hunpadded hvalue hrest
  rw [Parts.text_of_isWhole ⟨rfl, rfl⟩, decimalValue_natText, signed_natAbs] at hscan
  rw [intText_eq]
  exact hscan

/-- A finite float is written in parts that stand for it. -/
theorem exists_parts_writeFloat (negative : Bool) {m : Nat} {e : Int}
    (h : Binary64.Canonical m e) :
    ∃ p : Parts, p.WellFormed ∧ (p.whole = ['0'] ∨ p.whole.head? ≠ some '0') ∧
      writeFloat (.finite negative m e) = Decimal.signText negative ++ p.text ∧
      partsValue negative p = .ok (.float (.finite negative m e)) := by
  obtain ⟨p, hwf, htext, hunpadded, hwhole, hround⟩ := Binary64.exists_parts_text h
  refine ⟨p, hwf, hunpadded, ?_, ?_⟩
  · rw [htext]
    exact String.toList_ofList
  · rw [partsValue_of_not_isWhole negative hwhole, hround]

theorem scanAtom_float (negative : Bool) {m : Nat} {e : Int} (h : Binary64.Canonical m e)
    {rest : List Char} (hrest : Ends rest) :
    scanAtom (writeFloat (.finite negative m e) ++ rest)
      = .ok (.float (.finite negative m e), rest) := by
  obtain ⟨p, hwf, hunpadded, htext, hvalue⟩ := exists_parts_writeFloat negative h
  rw [htext]
  exact scanAtom_parts negative hwf hunpadded hvalue hrest

end Rollout.Json
