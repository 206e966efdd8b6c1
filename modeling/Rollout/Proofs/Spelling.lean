/-
The letters of spellings.

Spellings differ in case and in how the words of a name are joined.  Without underscores and hyphens
and in lower case they are all alike, so the names of which a spelling is one are alike as well.

* `letters` — what all spellings of a name have in common;
* `letters_mapBreaks` — word breaks that are taken away or written otherwise;
* `Spelled` — the forms of a name, each of ASCII characters if the name is (`Spelled.allAscii`);
* `letters_of_mem_spellings` — the letters of a spelling are those of the name.
-/
import Mathlib
import Rollout.Spelling

namespace Rollout

open Rollout.Text

/-- The letters of a text in lower case, without the breaks between its words. -/
def letters (cs : List Char) : List Char :=
  (cs.map Char.toLower).filter fun c => c != '_' && c != '-'

/-- Characters whose case is mapped by arithmetic. -/
def AllAscii (cs : List Char) : Prop := ∀ c ∈ cs, c.toNat < 128

instance (cs : List Char) : Decidable (AllAscii cs) :=
  decidable_of_iff (cs.all fun c => decide (c.toNat < 128)) (by simp [AllAscii])

theorem AllAscii.append {as bs : List Char} (has : AllAscii as) (hbs : AllAscii bs) :
    AllAscii (as ++ bs) :=
  List.forall_mem_append.mpr ⟨has, hbs⟩

theorem letters_append (as bs : List Char) : letters (as ++ bs) = letters as ++ letters bs := by
  rw [letters, List.map_append, List.filter_append]
  rfl

theorem letters_cons (c : Char) (cs : List Char) : letters (c :: cs) = letters [c] ++ letters cs :=
  letters_append [c] cs

/-! ### Case -/

section Case

variable {c : Char} {cs : List Char}

theorem letters_toUpper (c : Char) : letters [c.toUpper] = letters [c] := by
  simp only [letters, List.map_cons, List.map_nil, Char.toLower_toUpper_eq_toLower]

theorem letters_upperChar (h : c.toNat < 128) : letters (upperChar c) = letters [c] := by
  rw [upperChar, if_pos h, letters_toUpper]

theorem lowerChars_of_allAscii (h : AllAscii cs) : lowerChars cs = cs.map Char.toLower := by
  -- A sigma looks back at the characters before it, but it is no ASCII character.
  have hafter : ∀ before, lowerAfter before cs = cs.map Char.toLower := by
    induction cs with
    | nil => intro before; rfl
    | cons c cs ih =>
      intro before
      obtain ⟨hc, hcs⟩ := List.forall_mem_cons.mp h
      have hsigma : c ≠ 'Σ' := by
        rintro rfl
        exact absurd hc (by decide)
      rw [lowerAfter, if_neg hsigma, lowerChar, if_pos hc, ih hcs]
      rfl
  exact hafter []

theorem letters_lowerChars (h : AllAscii cs) : letters (lowerChars cs) = letters cs := by
  rw [lowerChars_of_allAscii h, letters, letters, List.map_map]
  congr 2
  funext c
  exact Char.toLower_toLower_eq_toLower c

theorem letters_upperChars (h : AllAscii cs) : letters (upperChars cs) = letters cs := by
  induction cs with
  | nil => rfl
  | cons c cs ih =>
    obtain ⟨hc, hcs⟩ := List.forall_mem_cons.mp h
    calc letters (upperChars (c :: cs))
        = letters (upperChar c ++ upperChars cs) := rfl
      _ = letters [c] ++ letters cs := by rw [letters_append, letters_upperChar hc, ih hcs]
      _ = letters (c :: cs) := (letters_cons c cs).symm

theorem letters_capitalizeChars (h : AllAscii cs) : letters (capitalizeChars cs) = letters cs := by
  cases cs with
  | nil => rfl
  | cons c cs =>
    rw [capitalizeChars, letters_append, letters_upperChar (h c List.mem_cons_self),
      ← letters_cons]

end Case

/-! ### Characters that case keeps ASCII -/

section AllAscii

variable {c : Char} {cs : List Char}

theorem allAscii_toLower (h : c.toNat < 128) : c.toLower.toNat < 128 := by
  by_cases hupper : c.isUpper
  · have hletter : c.toNat ≤ 90 := by
      simp only [Char.isUpper, decide_eq_true_eq] at hupper
      exact hupper.2
    rw [Char.toLower_eq_of_isUpper hupper, Char.toNat_ofNat]
    split <;> omega
  · rwa [Char.toLower_eq_of_not_isUpper hupper]

theorem allAscii_upperChar (h : c.toNat < 128) : AllAscii (upperChar c) := by
  intro d hd
  rw [upperChar, if_pos h, List.mem_singleton] at hd
  rw [hd]
  by_cases hlower : c.isLower
  · rw [Char.toUpper_eq_of_isLower hlower, Char.toNat_ofNat]
    split <;> omega
  · rwa [Char.toUpper_eq_of_not_isLower hlower]

theorem allAscii_lowerChars (h : AllAscii cs) : AllAscii (lowerChars cs) := by
  rw [lowerChars_of_allAscii h]
  exact List.forall_mem_map.mpr fun c hc => allAscii_toLower (h c hc)

theorem allAscii_upperChars (h : AllAscii cs) : AllAscii (upperChars cs) := by
  intro d hd
  obtain ⟨c, hc, hd⟩ := List.mem_flatMap.mp hd
  exact allAscii_upperChar (h c hc) d hd

theorem allAscii_capitalizeChars (h : AllAscii cs) : AllAscii (capitalizeChars cs) := by
  cases cs with
  | nil => exact h
  | cons c cs =>
    obtain ⟨hc, hcs⟩ := List.forall_mem_cons.mp h
    exact (allAscii_upperChar hc).append hcs

end AllAscii

/-! ### Word breaks -/

/-- An underscore and the character after it may be written in any way that keeps the letter. -/
theorem letters_mapBreaks {f : Char → List Char} {cs : List Char}
    (h : ∀ c ∈ cs, letters (f c) = letters [c]) : letters (mapBreaks f cs) = letters cs := by
  induction cs using mapBreaks.induct with
  | case1 rest ih =>
    rw [mapBreaks, if_pos rfl, letters_cons, ih fun c hc => h c (List.mem_cons_of_mem _ hc),
      ← letters_cons]
  | case2 c rest hc ih =>
    obtain ⟨-, hnext, hrest⟩ := List.forall_mem_cons.mp h |>.imp_right List.forall_mem_cons.mp
    rw [mapBreaks, if_neg hc, letters_append, hnext, ih hrest, ← letters_append]
    rfl
  | case3 c rest hbreak ih =>
    rw [mapBreaks, letters_cons, ih fun c hc => h c (List.mem_cons_of_mem _ hc), ← letters_cons]
    exact hbreak
  | case4 => rfl

theorem allAscii_mapBreaks {f : Char → List Char} {cs : List Char} (h : AllAscii cs)
    (hf : ∀ c ∈ cs, AllAscii (f c)) : AllAscii (mapBreaks f cs) := by
  intro d hd
  induction cs using mapBreaks.induct with
  | case1 rest ih =>
    rw [mapBreaks, if_pos rfl] at hd
    rcases List.mem_cons.mp hd with rfl | hd
    · decide
    · exact ih (fun c hc => h c (List.mem_cons_of_mem _ hc))
        (fun c hc => hf c (List.mem_cons_of_mem _ hc)) hd
  | case2 c rest hc ih =>
    rw [mapBreaks, if_neg hc] at hd
    rcases List.mem_append.mp hd with hd | hd
    · exact hf c (by simp) d hd
    · exact ih (fun c hc => h c (by simp [hc])) (fun c hc => hf c (by simp [hc])) hd
  | case3 c rest hbreak ih =>
    rw [mapBreaks.eq_2 _ _ _ hbreak] at hd
    rcases List.mem_cons.mp hd with rfl | hd
    · exact h d List.mem_cons_self
    · exact ih (fun c hc => h c (List.mem_cons_of_mem _ hc))
        (fun c hc => hf c (List.mem_cons_of_mem _ hc)) hd
  | case4 => cases hd

section Breaks

variable {cs : List Char} (h : AllAscii cs)
include h

theorem letters_camelCase : letters (camelCase cs) = letters cs :=
  letters_mapBreaks fun c hc => letters_upperChar (h c hc)

theorem letters_kebabCase : letters (kebabCase cs) = letters cs := by
  refine letters_mapBreaks fun c hc => ?_
  have hone : AllAscii [c] := List.forall_mem_singleton.mpr (h c hc)
  calc letters ('-' :: lowerChars [c])
      = letters (lowerChars [c]) := letters_append ['-'] (lowerChars [c])
    _ = letters [c] := letters_lowerChars hone

theorem allAscii_camelCase : AllAscii (camelCase cs) :=
  allAscii_mapBreaks h fun c hc => allAscii_upperChar (h c hc)

theorem allAscii_kebabCase : AllAscii (kebabCase cs) := by
  refine allAscii_mapBreaks h fun c hc => List.forall_mem_cons.mpr ⟨by decide, ?_⟩
  exact allAscii_lowerChars (List.forall_mem_singleton.mpr (h c hc))

theorem letters_pascalCase : letters (capitalizeChars (camelCase cs)) = letters cs := by
  rw [letters_capitalizeChars (allAscii_camelCase h), letters_camelCase h]

end Breaks

/-! ### Identifier suffixes -/

theorem eq_append_of_dropSuffix? {ending stem cs : List Char}
    (h : dropSuffix? ending cs = some stem) : cs = stem ++ ending := by
  unfold dropSuffix? at h
  split at h
  · rename_i hsuffix
    cases h
    obtain ⟨before, rfl⟩ := List.isSuffixOf_iff_suffix.mp hsuffix
    rw [List.length_append, Nat.add_sub_cancel, List.take_left]
  · cases h

/-- The forms of a suffix keep the letters, as long as the suffix in each form does. -/
theorem letters_suffixForms {stem capitals word ending p : List Char}
    (h : AllAscii (stem ++ ending)) (hword : AllAscii word)
    (hcapitals : letters capitals = letters ending) (hletters : letters word = letters ending)
    (hp : p ∈ suffixForms stem capitals word) : letters p = letters (stem ++ ending) := by
  have hstem : AllAscii stem := fun c hc => h c (List.mem_append_left _ hc)
  rw [letters_append, suffixForms] at *
  simp only [List.mem_cons, List.not_mem_nil, or_false] at hp
  rcases hp with rfl | rfl | rfl
  · rw [letters_append, hcapitals]
  · have hkebab : AllAscii ('-' :: word) := List.forall_mem_cons.mpr ⟨by decide, hword⟩
    rw [letters_lowerChars (hstem.append hkebab), letters_append, ← hletters]
    rfl
  · rw [letters_lowerChars (hstem.append hword), letters_append, hletters]

theorem allAscii_suffixForms {stem capitals word p : List Char} (hstem : AllAscii stem)
    (hcapitals : AllAscii capitals) (hword : AllAscii word)
    (hp : p ∈ suffixForms stem capitals word) : AllAscii p := by
  rw [suffixForms] at hp
  simp only [List.mem_cons, List.not_mem_nil, or_false] at hp
  rcases hp with rfl | rfl | rfl
  · exact hstem.append hcapitals
  · exact allAscii_lowerChars (hstem.append (List.forall_mem_cons.mpr ⟨by decide, hword⟩))
  · exact allAscii_lowerChars (hstem.append hword)

/-! ### Spellings -/

/-- The forms of a name, one constructor for each rule of spelling. -/
inductive Spelled (cs : List Char) : List Char → Prop
  | unchanged : Spelled cs cs
  | lower : Spelled cs (lowerChars cs)
  | upper : Spelled cs (upperChars cs)
  | capitalized : Spelled cs (capitalizeChars cs)
  | camel : Spelled cs (camelCase cs)
  | kebab : Spelled cs (kebabCase cs)
  | pascal : Spelled cs (capitalizeChars (camelCase cs))
  | plural {stem p : List Char} (ending : cs = stem ++ ['_', 'i', 'd', 's'])
      (h : p ∈ suffixForms stem ['I', 'D', 's'] ['i', 'd', 's']) : Spelled cs p
  | singular {stem p : List Char} (ending : cs = stem ++ ['_', 'i', 'd'])
      (h : p ∈ suffixForms stem ['I', 'D'] ['i', 'd']) : Spelled cs p

theorem spelled_of_mem_spellingsOf {cs p : List Char} (hp : p ∈ spellingsOf cs) : Spelled cs p := by
  rw [spellingsOf, List.append_assoc, List.mem_append, List.mem_append] at hp
  rcases hp with hcase | hbreaks | hsuffix
  · simp only [List.mem_cons, List.not_mem_nil, or_false] at hcase
    rcases hcase with rfl | rfl | rfl | rfl
    · exact .unchanged
    · exact .lower
    · exact .upper
    · exact .capitalized
  · split at hbreaks
    · simp only [List.mem_cons, List.not_mem_nil, or_false] at hbreaks
      rcases hbreaks with rfl | rfl | rfl
      · exact .camel
      · exact .kebab
      · exact .pascal
    · cases hbreaks
  · split at hsuffix
    · rename_i stem hstem
      exact .plural (eq_append_of_dropSuffix? hstem) hsuffix
    · split at hsuffix
      · rename_i stem hstem
        exact .singular (eq_append_of_dropSuffix? hstem) hsuffix
      · cases hsuffix

/-- A spelling is a form of the underscore form, which is the name itself but for one name of two
words. -/
theorem spelled_of_mem_spellings {name spelling : String} (h : spelling ∈ spellings name) :
    Spelled (underscoreForm name).toList spelling.toList := by
  obtain ⟨p, hp, rfl⟩ := List.mem_map.mp h
  rw [String.toList_ofList]
  exact spelled_of_mem_spellingsOf hp

theorem Spelled.letters_eq {cs p : List Char} (hp : Spelled cs p) (h : AllAscii cs) :
    letters p = letters cs := by
  cases hp with
  | unchanged => rfl
  | lower => exact letters_lowerChars h
  | upper => exact letters_upperChars h
  | capitalized => exact letters_capitalizeChars h
  | camel => exact letters_camelCase h
  | kebab => exact letters_kebabCase h
  | pascal => exact letters_pascalCase h
  | plural ending hforms =>
    subst ending
    exact letters_suffixForms h (by decide) (by decide) (by decide) hforms
  | singular ending hforms =>
    subst ending
    exact letters_suffixForms h (by decide) (by decide) (by decide) hforms

theorem Spelled.allAscii {cs p : List Char} (hp : Spelled cs p) (h : AllAscii cs) : AllAscii p := by
  cases hp with
  | unchanged => exact h
  | lower => exact allAscii_lowerChars h
  | upper => exact allAscii_upperChars h
  | capitalized => exact allAscii_capitalizeChars h
  | camel => exact allAscii_camelCase h
  | kebab => exact allAscii_kebabCase h
  | pascal => exact allAscii_capitalizeChars (allAscii_camelCase h)
  | plural ending hforms =>
    subst ending
    obtain ⟨hstem, -⟩ := List.forall_mem_append.mp h
    exact allAscii_suffixForms hstem (by decide) (by decide) hforms
  | singular ending hforms =>
    subst ending
    obtain ⟨hstem, -⟩ := List.forall_mem_append.mp h
    exact allAscii_suffixForms hstem (by decide) (by decide) hforms

theorem letters_underscoreForm (name : String) :
    letters (underscoreForm name).toList = letters name.toList := by
  unfold underscoreForm
  split
  · rename_i hname
    rw [hname]
    decide
  · rfl

theorem allAscii_underscoreForm {name : String} (h : AllAscii name.toList) :
    AllAscii (underscoreForm name).toList := by
  unfold underscoreForm
  split
  · decide
  · exact h

/-- A spelling has the letters of the name. -/
theorem letters_of_mem_spellings {name spelling : String} (h : AllAscii name.toList)
    (hspelling : spelling ∈ spellings name) : letters spelling.toList = letters name.toList := by
  rw [(spelled_of_mem_spellings hspelling).letters_eq (allAscii_underscoreForm h),
    letters_underscoreForm]

end Rollout
