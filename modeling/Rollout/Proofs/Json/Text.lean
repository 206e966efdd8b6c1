/-
Texts in quotes read back.

A text is written character by character, and each character is read back as its code point, or as
the two halves of a surrogate pair that stand for it.

* `hexText_succ` — padded hexadecimal digits, one at a time;
* `scanUnits_writeChar` — what a written character is read as;
* `scanString_writeText` — a text in quotes reads back as the text.
-/
import Mathlib.Tactic.Linarith
import Rollout.Json.Reader
import Rollout.Json.Writer

namespace Rollout

open Rollout.Text

/-! ### Hexadecimal digits -/

namespace Text

theorem hexText_one {n : Nat} (h : n < 16) : hexText 1 n = [n.digitChar] := by
  rw [hexText, Nat.toDigits_of_lt_base h]
  rfl

theorem hexText_zero (width : Nat) : hexText (width + 1) 0 = List.replicate (width + 1) '0' := by
  rw [hexText, Nat.toDigits_of_lt_base (by decide), List.replicate_succ']
  rfl

theorem hexText_succ (width n : Nat) :
    hexText (width + 2) n = hexText (width + 1) (n / 16) ++ [(n % 16).digitChar] := by
  by_cases h : n < 16
  · rw [Nat.div_eq_of_lt h, Nat.mod_eq_of_lt h, hexText_zero, hexText,
      Nat.toDigits_of_lt_base h]
    rfl
  · rw [hexText, hexText, Nat.toDigits_of_base_le (by decide) (by omega), List.length_append]
    simp only [List.length_singleton, List.append_assoc]
    congr 2
    omega

theorem hexText_four {n : Nat} (h : n < 65536) :
    hexText 4 n = [(n / 4096).digitChar, (n / 256 % 16).digitChar, (n / 16 % 16).digitChar,
      (n % 16).digitChar] := by
  have h256 : n / 16 / 16 = n / 256 := Nat.div_div_eq_div_mul n 16 16
  have h4096 : n / 256 / 16 = n / 4096 := Nat.div_div_eq_div_mul n 256 16
  rw [hexText_succ, hexText_succ, hexText_succ, h256, h4096, hexText_one (by omega)]
  rfl

end Text

namespace Json

theorem hexDigit?_digitChar : ∀ d < 16, hexDigit? d.digitChar = some d := by decide

theorem hexWord?_hexText {n : Nat} (h : n < 65536) :
    ∃ a b c d, hexText 4 n = [a, b, c, d] ∧ hexWord? a b c d = some n := by
  refine ⟨_, _, _, _, hexText_four h, ?_⟩
  rw [hexWord?, hexDigit?_digitChar _ (by omega), hexDigit?_digitChar _ (by omega),
    hexDigit?_digitChar _ (by omega), hexDigit?_digitChar _ (by omega)]
  simp only [Option.some.injEq]
  omega

/-! ### Characters as units -/

/-- The units that a character is read back as. -/
def charUnits (escapesAll : Bool) (c : Char) : List Nat :=
  if escapesAll ∧ 0x10000 ≤ c.toNat then
    [0xD800 + (c.toNat - 0x10000) / 1024, 0xDC00 + (c.toNat - 0x10000) % 1024]
  else [c.toNat]

theorem char_toNat_valid (c : Char) :
    c.toNat < 0xD800 ∨ (0xDFFF < c.toNat ∧ c.toNat < 0x110000) := c.valid

theorem unitChar_toNat (c : Char) : unitChar c.toNat = c := by
  have := char_toNat_valid c
  rw [unitChar, if_neg]
  · exact Char.ofNat_toNat c
  · simp only [isHigh, isLow, Bool.or_eq_true, Bool.and_eq_true, decide_eq_true_eq]
    omega

theorem joinUnits_cons {n : Nat} (h : isHigh n = false) (units : List Nat) :
    joinUnits (n :: units) = unitChar n :: joinUnits units := by
  cases units with
  | nil => rfl
  | cons low rest => rw [joinUnits, h, Bool.false_and, if_neg (by decide)]

theorem joinUnits_charUnits (escapesAll : Bool) (c : Char) (units : List Nat) :
    joinUnits (charUnits escapesAll c ++ units) = c :: joinUnits units := by
  have hvalid := char_toNat_valid c
  unfold charUnits
  split
  · rename_i h
    have hhigh : isHigh (0xD800 + (c.toNat - 0x10000) / 1024) = true := by
      simp only [isHigh, Bool.and_eq_true, decide_eq_true_eq]
      omega
    have hlow : isLow (0xDC00 + (c.toNat - 0x10000) % 1024) = true := by
      simp only [isLow, Bool.and_eq_true, decide_eq_true_eq]
      omega
    have hcode : 0x10000 + (0xD800 + (c.toNat - 0x10000) / 1024 - 0xD800) * 1024
        + (0xDC00 + (c.toNat - 0x10000) % 1024 - 0xDC00) = c.toNat := by omega
    rw [List.cons_append, List.cons_append, List.nil_append, joinUnits, hhigh, hlow,
      if_pos (by decide), hcode, Char.ofNat_toNat]
  · have hhigh : isHigh c.toNat = false := by
      simp only [isHigh, Bool.and_eq_false_iff, decide_eq_false_iff_not]
      omega
    rw [List.singleton_append, joinUnits_cons hhigh, unitChar_toNat]

theorem joinUnits_flatMap (escapesAll : Bool) (cs : List Char) :
    joinUnits (cs.flatMap (charUnits escapesAll)) = cs := by
  induction cs with
  | nil => rfl
  | cons c cs ih => rw [List.flatMap_cons, joinUnits_charUnits, ih]

/-! ### Reading written characters -/

/-- Units put before what a scan finds. -/
def prepend (units : List Nat) (r : Except Stop (List Nat × List Char)) :
    Except Stop (List Nat × List Char) :=
  match r with
  | .ok (more, rest) => .ok (units ++ more, rest)
  | .error stop => .error stop

theorem scanUnits_unitEscape (opening : List Char) {n : Nat} (h : n < 65536) (next : Char)
    (tail : List Char) :
    scanUnits opening (unitEscape n ++ next :: tail)
      = prepend [n] (scanUnits opening (next :: tail)) := by
  obtain ⟨a, b, c, d, htext, hword⟩ := hexWord?_hexText h
  rw [unitEscape, htext]
  simp only [List.cons_append, List.nil_append]
  rw [scanUnits]
  simp only [hword, prepend]
  rfl

theorem prepend_prepend (first second : List Nat) (r : Except Stop (List Nat × List Char)) :
    prepend first (prepend second r) = prepend (first ++ second) r := by
  cases r with
  | ok found => simp [prepend]
  | error stop => rfl

theorem scanUnits_charEscape (opening : List Char) (c next : Char) (tail : List Char) :
    scanUnits opening (charEscape c.toNat ++ next :: tail)
      = prepend (charUnits true c) (scanUnits opening (next :: tail)) := by
  have hvalid := char_toNat_valid c
  unfold charEscape charUnits
  split
  · rename_i h
    rw [if_neg (by omega), scanUnits_unitEscape opening h]
  · rw [if_pos ⟨rfl, by omega⟩, List.append_assoc]
    -- A character beyond the basic plane is written as two escapes, read one after the other.
    have hlow := scanUnits_unitEscape opening
      (show 0xDC00 + (c.toNat - 0x10000) % 1024 < 65536 by omega) next tail
    have hhigh := scanUnits_unitEscape opening
      (show 0xD800 + (c.toNat - 0x10000) / 1024 < 65536 by omega) '\\'
      ('u' :: hexText 4 (0xDC00 + (c.toNat - 0x10000) % 1024) ++ next :: tail)
    have hjoin : '\\' :: ('u' :: hexText 4 (0xDC00 + (c.toNat - 0x10000) % 1024) ++ next :: tail)
        = unitEscape (0xDC00 + (c.toNat - 0x10000) % 1024) ++ next :: tail := rfl
    rw [hjoin] at hhigh
    rw [hhigh, hlow, prepend_prepend]
    rfl

/-- A character after a backslash. -/
theorem scanUnits_escaped (opening : List Char) {e : Char} {n : Nat} (hu : e ≠ 'u')
    (he : escaped? e = some n) (tail : List Char) :
    scanUnits opening ('\\' :: e :: tail) = prepend [n] (scanUnits opening tail) := by
  rw [scanUnits.eq_def]
  simp only [Char.reduceEq, if_false, if_true, if_neg hu, he, prepend]
  rfl

theorem scanUnits_literal (opening : List Char) {c : Char} (hquote : c ≠ '"')
    (hslash : c ≠ '\\') (hcontrol : ¬ c.toNat < 32) (tail : List Char) :
    scanUnits opening (c :: tail) = prepend [c.toNat] (scanUnits opening tail) := by
  rw [scanUnits.eq_def]
  simp only [if_neg hquote, if_neg hslash, if_neg hcontrol, prepend]
  rfl

theorem charUnits_of_lt {escapesAll : Bool} {c : Char} (h : c.toNat < 0x10000) :
    charUnits escapesAll c = [c.toNat] := by
  rw [charUnits, if_neg (by omega)]

/-- A written character is read back as its units. -/
theorem scanUnits_writeChar (opening : List Char) (escapesAll : Bool) (c next : Char)
    (tail : List Char) :
    scanUnits opening (writeChar escapesAll c ++ next :: tail)
      = prepend (charUnits escapesAll c) (scanUnits opening (next :: tail)) := by
  have hshort : ∀ e n, e ≠ 'u' → escaped? e = some n → c.toNat = n → n < 0x10000 →
      scanUnits opening ('\\' :: e :: next :: tail)
        = prepend (charUnits escapesAll c) (scanUnits opening (next :: tail)) := by
    intro e n hu he hc hn
    rw [scanUnits_escaped opening hu he, charUnits_of_lt (by omega), hc]
  unfold writeChar
  split
  · rename_i hc
    exact hshort '"' _ (by decide) rfl (by rw [hc]) (by decide)
  · split
    · rename_i hc
      exact hshort '\\' _ (by decide) rfl (by rw [hc]) (by decide)
    · rename_i hquote hslash
      split
      · rename_i hc
        exact hshort 'n' 10 (by decide) rfl (by rw [hc]; rfl) (by decide)
      · split
        · rename_i hc
          exact hshort 'r' 13 (by decide) rfl (by rw [hc]; rfl) (by decide)
        · split
          · rename_i hc
            exact hshort 't' 9 (by decide) rfl (by rw [hc]; rfl) (by decide)
          · split
            · rename_i hc
              exact hshort 'f' 12 (by decide) rfl (by rw [hc]; rfl) (by decide)
            · split
              · rename_i hc
                exact hshort 'b' 8 (by decide) rfl (by rw [hc]; rfl) (by decide)
              · split
                · rename_i hescape
                  have hunits : charUnits escapesAll c = charUnits true c := by
                    rcases hescape with hlow | ⟨hall, -⟩
                    · rw [charUnits_of_lt (by omega), charUnits_of_lt (by omega)]
                    · rw [hall]
                  rw [hunits]
                  exact scanUnits_charEscape opening c next tail
                -- What is left stands for itself, as it need not be escaped.
                · rename_i hplain
                  rw [not_or, not_and, not_lt, not_lt] at hplain
                  have hunits : charUnits escapesAll c = [c.toNat] := by
                    rw [charUnits, if_neg]
                    rintro ⟨hall, hbig⟩
                    have := hplain.2 hall
                    omega
                  rw [hunits]
                  exact scanUnits_literal opening hquote hslash (by omega) (next :: tail)

theorem scanUnits_flatMap (opening : List Char) (escapesAll : Bool) (cs rest : List Char) :
    scanUnits opening (cs.flatMap (writeChar escapesAll) ++ '"' :: rest)
      = .ok (cs.flatMap (charUnits escapesAll), rest) := by
  induction cs with
  | nil =>
    rw [List.flatMap_nil, List.nil_append, scanUnits.eq_def]
    simp only [if_true]
    rfl
  | cons c cs ih =>
    -- What follows a character begins with another one or with the closing quote.
    obtain ⟨next, tail, hnext⟩ : ∃ next tail,
        cs.flatMap (writeChar escapesAll) ++ '"' :: rest = next :: tail :=
      List.exists_cons_of_ne_nil (by simp)
    rw [List.flatMap_cons, List.flatMap_cons, List.append_assoc, hnext, scanUnits_writeChar,
      ← hnext, ih]
    rfl

/-- **Texts read back.**  A text in quotes is read as the text, whatever follows it. -/
theorem scanString_writeText (opening : List Char) (escapesAll : Bool) (s : String)
    (rest : List Char) :
    scanString opening (s.toList.flatMap (writeChar escapesAll) ++ '"' :: rest)
      = .ok (s, rest) := by
  rw [scanString, scanUnits_flatMap]
  simp only [joinUnits_flatMap, String.ofList_toList]

end Json

end Rollout
