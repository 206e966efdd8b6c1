/-
The grammar of numerals.

The strict readers cut a text up from the left and never look back.  What they accept is a grammar
all the same: an optional sign, digits with an optional point among them, and an optional exponent,
each of which says what number it stands for.  The readers are right about it in both directions:
a text is read exactly if the grammar has it, and as the number that the grammar gives it.

* `IntegerText`, `DecimalText` — the grammars of whole and of decimal numbers;
* `integer?_eq_some_iff`, `scientific?_eq_some_iff` — the readers accept just those texts.
-/
import Rollout.Proofs.Number.Digits

namespace Rollout.Numeral

open Rollout.Text

/-- An optional sign, and whether it is a minus. -/
inductive Sign : List Char → Bool → Prop
  | none : Sign [] false
  | plus : Sign ['+'] false
  | minus : Sign ['-'] true

/-- A whole number: an optional sign and at least one digit. -/
inductive IntegerText (digit : Char → Option Nat) : List Char → Bool → List Nat → Prop
  | mk {sign cs : List Char} {negative : Bool} {ds : List Nat} (hsign : Sign sign negative)
      (hcs : Digits digit cs ds) (hne : ds ≠ []) : IntegerText digit (sign ++ cs) negative ds

/-- The digits of a decimal number before and after the point: a point may follow digits, and
needs digits after it if none come before. -/
inductive MantissaText (digit : Char → Option Nat) : List Char → List Nat → List Nat → Prop
  | whole {cs : List Char} {ds : List Nat} (hcs : Digits digit cs ds) (hne : ds ≠ []) :
      MantissaText digit cs ds []
  | pointed {cs bs : List Char} {ds ps : List Nat} (hcs : Digits digit cs ds) (hne : ds ≠ [])
      (hbs : Digits digit bs ps) : MantissaText digit (cs ++ '.' :: bs) ds ps
  | leading {bs : List Char} {ps : List Nat} (hbs : Digits digit bs ps) (hne : ps ≠ []) :
      MantissaText digit ('.' :: bs) [] ps

/-- An optional exponent: a letter and a whole number. -/
inductive ExponentText (digit : Char → Option Nat) : List Char → Int → Prop
  | none : ExponentText digit [] 0
  | some {letter : Char} {cs : List Char} {negative : Bool} {ds : List Nat}
      (hletter : letter = 'e' ∨ letter = 'E') (hcs : IntegerText digit cs negative ds) :
      ExponentText digit (letter :: cs) (Binary64.signed negative (ofDigits ds))

/-- A decimal number, with the digits on both sides of the point taken as one coefficient. -/
inductive DecimalText (digit : Char → Option Nat) : List Char → Scientific → Prop
  | mk {sign cs es : List Char} {negative : Bool} {ds ps : List Nat} {e : Int}
      (hsign : Sign sign negative) (hcs : MantissaText digit cs ds ps)
      (hes : ExponentText digit es e) :
      DecimalText digit (sign ++ (cs ++ es)) ⟨negative, ofDigits (ds ++ ps), e - ps.length⟩

variable {digit : Char → Option Nat}

/-! ### Signs -/

theorem exists_sign {cs rest : List Char} {negative : Bool}
    (h : splitSign cs = (negative, rest)) : ∃ sign, Sign sign negative ∧ cs = sign ++ rest := by
  unfold splitSign at h
  split at h
  · cases h
    exact ⟨['+'], .plus, rfl⟩
  · cases h
    exact ⟨['-'], .minus, rfl⟩
  · cases h
    exact ⟨[], .none, rfl⟩

/-- Whether a text begins with no sign. -/
def Unsigned (cs : List Char) : Prop := ∀ c ∈ cs.head?, c ≠ '+' ∧ c ≠ '-'

theorem splitSign_of_unsigned {cs : List Char} (h : Unsigned cs) : splitSign cs = (false, cs) := by
  unfold splitSign
  split
  · exact absurd rfl (h '+' rfl).1
  · exact absurd rfl (h '-' rfl).2
  · rfl

theorem Sign.splitSign_append {sign cs : List Char} {negative : Bool} (h : Sign sign negative)
    (hcs : Unsigned cs) : splitSign (sign ++ cs) = (negative, cs) := by
  cases h with
  | none => exact splitSign_of_unsigned hcs
  | plus => rfl
  | minus => rfl

/-! ### Digits -/

theorem ReadsAscii.ne_of_digit (hd : ReadsAscii digit) {c other : Char} {d : Nat}
    (h : digit c = some d) (hother : other.isDigit = false) (hascii : other.toNat < 128) :
    c ≠ other := by
  intro heq
  rw [heq, hd.of_other other hother hascii] at h
  cases h

theorem Digits.unsigned_append (hd : ReadsAscii digit) {cs : List Char} {ds : List Nat}
    (h : Digits digit cs ds) (hne : ds ≠ []) (rest : List Char) : Unsigned (cs ++ rest) := by
  cases h with
  | nil => exact absurd rfl hne
  | cons hc _ =>
    intro c hhead
    cases hhead
    exact ⟨hd.ne_of_digit hc (by decide) (by decide), hd.ne_of_digit hc (by decide) (by decide)⟩

/-- What a reader takes from a text are digits, and it leaves the rest as it is. -/
theorem exists_digits {cs rest : List Char} {ds : List Nat}
    (h : spanDigits digit cs = (ds, rest)) : ∃ ws, Digits digit ws ds ∧ cs = ws ++ rest := by
  induction cs generalizing ds with
  | nil =>
    cases h
    exact ⟨[], .nil, rfl⟩
  | cons c cs ih =>
    rcases hspan : spanDigits digit cs with ⟨taken, left⟩
    rw [hspan] at ih
    rw [spanDigits, hspan] at h
    split at h
    · rename_i d hc
      cases h
      obtain ⟨ws, hws, rfl⟩ := ih rfl
      exact ⟨c :: ws, .cons hc hws, rfl⟩
    · cases h
      exact ⟨[], .nil, rfl⟩

/-! ### Whole numbers -/

theorem IntegerText.integer? (hd : ReadsAscii digit) {cs : List Char} {negative : Bool}
    {ds : List Nat} (h : IntegerText digit cs negative ds) :
    integer? digit cs = some (negative, ds) := by
  obtain ⟨hsign, hcs, hne⟩ := h
  have hunsigned := hcs.unsigned_append hd hne []
  rw [List.append_nil] at hunsigned
  obtain ⟨d, ds, rfl⟩ := List.exists_cons_of_ne_nil hne
  simp only [Numeral.integer?, hsign.splitSign_append hunsigned, hcs.spanDigits_self]

/-- **The grammar of whole numbers.**  The strict reader accepts an optional sign and digits, and
nothing else. -/
theorem integer?_eq_some_iff (hd : ReadsAscii digit) {cs : List Char} {negative : Bool}
    {ds : List Nat} :
    integer? digit cs = some (negative, ds) ↔ IntegerText digit cs negative ds := by
  refine ⟨fun h => ?_, fun h => h.integer? hd⟩
  rcases hsplit : splitSign cs with ⟨minus, rest⟩
  rcases hspan : spanDigits digit rest with ⟨digits, after⟩
  simp only [Numeral.integer?, hsplit, hspan] at h
  split at h
  · rename_i heq
    cases heq
    cases h
    obtain ⟨sign, hsign, rfl⟩ := exists_sign hsplit
    obtain ⟨body, hbody, rfl⟩ := exists_digits hspan
    rw [List.append_nil]
    exact .mk hsign hbody (List.cons_ne_nil _ _)
  · cases h

/-! ### Exponents -/

/-- The reader of exponents accepts the optional exponents, and nothing else. -/
theorem exponent?_eq_some_iff (hd : ReadsAscii digit) {cs : List Char} {e : Int} :
    exponent? digit cs = some e ↔ ExponentText digit cs e := by
  constructor
  · intro h
    cases cs with
    | nil =>
      cases h
      exact .none
    | cons c cs =>
      by_cases hletter : c = 'e' ∨ c = 'E'
      · rw [exponent?, if_pos hletter] at h
        obtain ⟨⟨negative, ds⟩, hint, rfl⟩ := Option.map_eq_some_iff.mp h
        exact .some hletter ((integer?_eq_some_iff hd).mp hint)
      · rw [exponent?, if_neg hletter] at h
        cases h
  · intro h
    cases h with
    | none => rfl
    | some hletter hcs => rw [exponent?, if_pos hletter, hcs.integer? hd, Option.map_some]

theorem ExponentText.stops (hd : ReadsAscii digit) {cs : List Char} {e : Int}
    (h : ExponentText digit cs e) : Stops digit cs := by
  cases h with
  | none => exact stops_nil
  | some hletter _ =>
    obtain rfl | rfl := hletter <;> exact hd.stops_cons (by decide) (by decide) _

theorem ExponentText.fraction {cs : List Char} {e : Int} (h : ExponentText digit cs e) :
    fraction digit cs = ([], cs) := by
  cases h with
  | none => rfl
  | some hletter _ => obtain rfl | rfl := hletter <;> rfl

/-! ### Decimal numbers -/

theorem MantissaText.unsigned_append (hd : ReadsAscii digit) {cs : List Char} {ds ps : List Nat}
    (h : MantissaText digit cs ds ps) (rest : List Char) : Unsigned (cs ++ rest) := by
  cases h with
  | whole hcs hne => exact hcs.unsigned_append hd hne rest
  | pointed hcs hne _ =>
    rw [List.append_assoc]
    exact hcs.unsigned_append hd hne _
  | leading _ _ =>
    intro c hc
    cases hc
    decide

theorem MantissaText.not_both_empty {cs : List Char} {ds ps : List Nat}
    (h : MantissaText digit cs ds ps) : (ds.isEmpty && ps.isEmpty) = false := by
  cases h with
  | whole _ hne => simp [hne]
  | pointed _ hne _ => simp [hne]
  | leading _ hne => simp [hne]

/-- The digits before the point are taken first, and those after it from what is left. -/
theorem MantissaText.exists_spanDigits (hd : ReadsAscii digit) {cs es : List Char}
    {ds ps : List Nat} {e : Int} (h : MantissaText digit cs ds ps)
    (hes : ExponentText digit es e) :
    ∃ rest, spanDigits digit (cs ++ es) = (ds, rest) ∧ fraction digit rest = (ps, es) := by
  have hpoint (bs : List Char) : Stops digit ('.' :: (bs ++ es)) :=
    hd.stops_cons (by decide) (by decide) _
  cases h with
  | whole hcs _ => exact ⟨es, hcs.spanDigits_append (hes.stops hd), hes.fraction⟩
  | @pointed cs bs ds ps hcs _ hbs =>
    refine ⟨'.' :: (bs ++ es), ?_, hbs.spanDigits_append (hes.stops hd)⟩
    rw [List.append_assoc]
    exact hcs.spanDigits_append (hpoint bs)
  | @leading bs ps hbs _ =>
    refine ⟨'.' :: (bs ++ es), ?_, hbs.spanDigits_append (hes.stops hd)⟩
    exact Digits.spanDigits_append .nil (hpoint bs)

/-- What is read before an exponent has the form of a mantissa. -/
theorem exists_mantissaText {cs rest es : List Char} {ds ps : List Nat}
    (hspan : spanDigits digit cs = (ds, rest)) (hfraction : fraction digit rest = (ps, es))
    (hne : ¬ (ds.isEmpty && ps.isEmpty) = true) :
    ∃ ms, MantissaText digit ms ds ps ∧ cs = ms ++ es := by
  obtain ⟨ws, hws, rfl⟩ := exists_digits hspan
  unfold fraction at hfraction
  split at hfraction
  · obtain ⟨bs, hbs, rfl⟩ := exists_digits hfraction
    refine ⟨ws ++ '.' :: bs, ?_, by simp⟩
    by_cases hds : ds = []
    · subst hds
      cases hws
      exact .leading hbs (by simpa using hne)
    · exact .pointed hws hds hbs
  · cases hfraction
    exact ⟨ws, .whole hws (by simpa using hne), rfl⟩

/-- **The grammar of decimal numbers.**  The strict reader accepts an optional sign, digits with an
optional point and an optional exponent, and nothing else; it finds the number that they denote. -/
theorem scientific?_eq_some_iff (hd : ReadsAscii digit) {cs : List Char} {n : Scientific} :
    scientific? digit cs = some n ↔ DecimalText digit cs n := by
  constructor
  · intro h
    rcases hsplit : splitSign cs with ⟨negative, rest⟩
    rcases hspan : spanDigits digit rest with ⟨ds, after⟩
    rcases hfraction : fraction digit after with ⟨ps, es⟩
    simp only [scientific?, hsplit, hspan, hfraction] at h
    split at h
    · cases h
    · rename_i hne
      obtain ⟨e, he, rfl⟩ := Option.map_eq_some_iff.mp h
      obtain ⟨sign, hsign, rfl⟩ := exists_sign hsplit
      obtain ⟨ms, hms, rfl⟩ := exists_mantissaText hspan hfraction hne
      exact .mk hsign hms ((exponent?_eq_some_iff hd).mp he)
  · intro h
    obtain ⟨hsign, hms, hes⟩ := h
    obtain ⟨rest, hspan, hfraction⟩ := hms.exists_spanDigits hd hes
    simp only [scientific?, hsign.splitSign_append (hms.unsigned_append hd _), hspan, hfraction,
      hms.not_both_empty, (exponent?_eq_some_iff hd).mpr hes]
    rfl

end Rollout.Numeral
