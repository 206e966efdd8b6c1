/-
Names that are the same word.

A spelling changes the case of a name, and adds, changes and drops the joiners between its parts, and
that is all it does.  So two names with a spelling in common are equal up to case, underscores and
hyphens.  Equality of this kind is defined by aligning the two texts, and decided by comparing the
words that are left of them.

* `word` — a text without underscores and hyphens, in lower case;
* `SameWord` — equality up to case, underscores and hyphens, which is equality of the two words
  (`sameWord_iff_word_eq`);
* `spellings_same_word` — the spellings of a name, and names that share a spelling.
-/
import Rollout.Proofs.Spelling

namespace Rollout

open Rollout.Text

/-- Whether a character only joins the parts of a name. -/
def isJoiner (c : Char) : Bool := c == '_' || c == '-'

/-- A text without its joiners, in lower case. -/
def word (s : String) : String := lower (.ofList (s.toList.filter fun c => !isJoiner c))

/-- Two texts that are equal up to case and joiners: read side by side, with the joiners of either
skipped, they have the same letters. -/
inductive SameWord : List Char → List Char → Prop
  | nil : SameWord [] []
  | skipLeft {c : Char} {as bs : List Char} (h : isJoiner c) (rest : SameWord as bs) :
      SameWord (c :: as) bs
  | skipRight {c : Char} {as bs : List Char} (h : isJoiner c) (rest : SameWord as bs) :
      SameWord as (c :: bs)
  | letter {a b : Char} {as bs : List Char} (h : a.toLower = b.toLower) (rest : SameWord as bs) :
      SameWord (a :: as) (b :: bs)

/-! ### Letters -/

theorem isJoiner_of_isAlpha {c : Char} (h : c.isAlpha) : isJoiner c = false := by
  rw [isJoiner, Bool.or_eq_false_iff, beq_eq_false_iff_ne, beq_eq_false_iff_ne]
  constructor
  · rintro rfl
    exact absurd h (by decide)
  · rintro rfl
    exact absurd h (by decide)

theorem isJoiner_toLower (c : Char) : isJoiner c.toLower = isJoiner c := by
  by_cases hletter : c.isAlpha
  · rw [isJoiner_of_isAlpha hletter, isJoiner_of_isAlpha (by rwa [Char.isAlpha_toLower_eq_isAlpha])]
  · have hupper : ¬ c.isUpper := fun hupper => hletter (by rw [Char.isAlpha, hupper, Bool.true_or])
    rw [Char.toLower_eq_of_not_isUpper hupper]

/-- Joiners may be dropped before the case is changed or after it. -/
theorem letters_eq_map_filter (cs : List Char) :
    letters cs = (cs.filter fun c => !isJoiner c).map Char.toLower := by
  rw [letters, List.filter_map]
  congr 2
  funext c
  rw [← isJoiner_toLower, isJoiner, Bool.not_or]
  rfl

theorem letters_cons_of_isJoiner {c : Char} (h : isJoiner c) (cs : List Char) :
    letters (c :: cs) = letters cs := by
  rw [letters_eq_map_filter, List.filter_cons_of_neg (by simp [h]), ← letters_eq_map_filter]

theorem letters_cons_of_not_isJoiner {c : Char} (h : ¬ isJoiner c) (cs : List Char) :
    letters (c :: cs) = c.toLower :: letters cs := by
  rw [letters_eq_map_filter, List.filter_cons_of_pos (by simp [h]), List.map_cons,
    ← letters_eq_map_filter]

theorem word_eq {s : String} (h : AllAscii s.toList) : word s = .ofList (letters s.toList) := by
  have hfilter : AllAscii (s.toList.filter fun c => !isJoiner c) := fun c hc =>
    h c (List.mem_of_mem_filter hc)
  rw [word, lower, String.toList_ofList, lowerChars_of_allAscii hfilter, letters_eq_map_filter]

/-! ### The same word -/

theorem SameWord.letters_eq {as bs : List Char} (h : SameWord as bs) : letters as = letters bs := by
  induction h with
  | nil => rfl
  | skipLeft h rest ih => rw [letters_cons_of_isJoiner h, ih]
  | skipRight h rest ih => rw [letters_cons_of_isJoiner h, ih]
  | @letter a b as bs h rest ih =>
    have hone : letters [a] = letters [b] := by
      simp only [letters, List.map_cons, List.map_nil, h]
    rw [letters_cons, hone, ih, ← letters_cons]

theorem sameWord_of_letters_eq {as bs : List Char} (h : letters as = letters bs) :
    SameWord as bs := by
  induction as generalizing bs with
  | nil =>
    -- No letters are left of the other text, so all of it is joiners.
    induction bs with
    | nil => exact .nil
    | cons b bs ih =>
      by_cases hb : isJoiner b
      · exact .skipRight hb (ih (by rw [h, letters_cons_of_isJoiner hb]))
      · rw [letters_cons_of_not_isJoiner hb] at h
        cases h
  | cons a as iha =>
    by_cases ha : isJoiner a
    · exact .skipLeft ha (iha (by rw [← h, letters_cons_of_isJoiner ha]))
    · rw [letters_cons_of_not_isJoiner ha] at h
      -- The same letter stands in the other text, behind the joiners that it begins with.
      induction bs with
      | nil => cases h
      | cons b bs ihb =>
        by_cases hb : isJoiner b
        · exact .skipRight hb (ihb (by rw [h, letters_cons_of_isJoiner hb]))
        · rw [letters_cons_of_not_isJoiner hb] at h
          obtain ⟨hletter, hrest⟩ := List.cons.inj h
          exact .letter hletter (iha hrest)

/-- Alignment is decided by comparing words. -/
theorem sameWord_iff_word_eq {a b : String} (ha : AllAscii a.toList) (hb : AllAscii b.toList) :
    SameWord a.toList b.toList ↔ word a = word b := by
  rw [word_eq ha, word_eq hb, String.ofList_inj]
  exact ⟨SameWord.letters_eq, sameWord_of_letters_eq⟩

/-! ### Spellings -/

theorem allAscii_of_mem_spellings {name spelling : String} (h : AllAscii name.toList)
    (hspelling : spelling ∈ spellings name) : AllAscii spelling.toList :=
  (spelled_of_mem_spellings hspelling).allAscii (allAscii_underscoreForm h)

theorem underscoreForm_mem_spellings (name : String) : underscoreForm name ∈ spellings name := by
  refine List.mem_map.mpr ⟨(underscoreForm name).toList, ?_, String.ofList_toList⟩
  simp [spellingsOf]

theorem word_of_mem_spellings {name spelling : String} (h : AllAscii name.toList)
    (hspelling : spelling ∈ spellings name) : word spelling = word name := by
  rw [word_eq (allAscii_of_mem_spellings h hspelling), word_eq h,
    letters_of_mem_spellings h hspelling]

/-- **Every spelling of a name is the same word.**  The underscore form of a name is one of its
spellings; without underscores and hyphens and in lower case, each of them is the same text as the
name.  So a name with which it shares a spelling differs from it in case, underscores and hyphens
only. -/
theorem spellings_same_word {name : String} (h : AllAscii name.toList) :
    underscoreForm name ∈ spellings name ∧
    (∀ spelling ∈ spellings name, word spelling = word name) ∧
    ∀ other : String, AllAscii other.toList →
      (∃ spelling ∈ spellings name, spelling ∈ spellings other) →
        SameWord name.toList other.toList := by
  refine ⟨underscoreForm_mem_spellings name, fun spelling => word_of_mem_spellings h, ?_⟩
  rintro other hother ⟨spelling, hname, hshared⟩
  rw [sameWord_iff_word_eq h hother]
  calc word name
      = word spelling := (word_of_mem_spellings h hname).symm
    _ = word other := word_of_mem_spellings hother hshared

/-- A run of underscores is halved, and an underscore before a line feed is no break.  The camel
case of the one name is the other name. -/
theorem spellings_same_word_camel :
    let name := "_log__\n_ids"
    let other := "Log_\nIds"
    AllAscii name.toList ∧ AllAscii other.toList ∧ other ∈ spellings name ∧
      other ∈ spellings other ∧ "_log__\nIDs" ∈ spellings name ∧
      word "_log__\nIDs" = word name ∧ word other = word name ∧
      SameWord name.toList other.toList := by
  intro name other
  have hname : AllAscii name.toList := by decide +kernel
  have hother : AllAscii other.toList := by decide +kernel
  have hcamel : other ∈ spellings name := by decide +kernel
  have hexact : other ∈ spellings other := by decide +kernel
  have hsuffix : "_log__\nIDs" ∈ spellings name := by decide +kernel
  obtain ⟨-, hword, hshared⟩ := spellings_same_word hname
  exact ⟨hname, hother, hcamel, hexact, hsuffix, hword _ hsuffix, hword _ hcamel,
    hshared other hother ⟨other, hcamel, hexact⟩⟩

/-- Outside ASCII the upper case of a character may be another word. -/
example : "SS" ∈ spellings "ß" ∧ word "SS" ≠ word "ß" := by decide +kernel

end Rollout
