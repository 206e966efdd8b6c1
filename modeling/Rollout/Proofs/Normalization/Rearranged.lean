/-
Contexts that say the same in another way.

A context can be rearranged: its entries put in another order, and names that stand for a key of the
shape replaced by other spellings of the key.  Sorting does not see the difference, as long as no
two names of the context stand for one key.

* `Rearranged`, `Unambiguous` — the contexts that are compared, and those that are considered;
* `Rearranged.fieldEntries_perm`, `looseEntries_perm`, `bag_eq` — what is left of the difference in
  the three kinds of attributes;
* `Rearranged.normalize_perm` — sorting two such contexts gives the same entries.
-/
import Mathlib.Data.List.Forall2
import Rollout.Proofs.Normalization
import Rollout.Proofs.Value.SameKey

namespace Rollout

variable {table : AliasTable} {shape : Shape}

/-- One attribute as itself, or under another name for its key.  A plain value for a field that
holds maps keeps its name, under which it goes into the bag. -/
inductive Respelled (table : AliasTable) (shape : Shape) : Value × Value → Value × Value → Prop
  | same (e : Value × Value) : Respelled table shape e e
  | other (name other value : Value) (key : CanonicalKey)
      (hname : table.resolve? shape name = some key)
      (hother : table.resolve? shape other = some key) (hplaced : misplaced key value = false) :
      Respelled table shape (name, value) (other, value)

/-- One context is the other in another order and with other names for the same keys. -/
def Rearranged (table : AliasTable) (shape : Shape) (context other : Attributes) : Prop :=
  ∃ respelled, List.Forall₂ (Respelled table shape) context respelled ∧ respelled.Perm other

/-- No two names of a context stand for one key of the shape. -/
def Unambiguous (table : AliasTable) (shape : Shape) (context : Attributes) : Prop :=
  context.Pairwise fun x y =>
    ∀ key, table.resolve? shape x.1 = some key → table.resolve? shape y.1 ≠ some key

/-! ### One attribute -/

theorem fieldFor?_of_placed {name value : Value} {key : CanonicalKey}
    (hname : table.resolve? shape name = some key) (hplaced : misplaced key value = false) :
    fieldFor? table shape name value = some key := by
  rw [fieldFor?_eq, hname, Option.filter_some, hplaced]
  simp

theorem bagContents_of_placed (name other : Value) {value : Value}
    (hplaced : misplaced shape.overflowKey value = false) :
    bagContents (name, value) = bagContents (other, value) := by
  have hmap : shape.overflowKey.holdsMap = true := by cases shape <;> rfl
  rw [misplaced, hmap] at hplaced
  cases value with
  | null => rfl
  | map entries => rfl
  | _ => cases hplaced

/-! ### All attributes -/

section Respelled

variable {context respelled : Attributes}

theorem fieldEntries_respelled (h : List.Forall₂ (Respelled table shape) context respelled) :
    fieldEntries table shape context = fieldEntries table shape respelled := by
  induction h with
  | nil => rfl
  | cons hfirst _ ih =>
    rw [fieldEntries, fieldEntries, List.filterMap_cons, List.filterMap_cons, ← fieldEntries,
      ← fieldEntries, ih]
    cases hfirst with
    | same e => rfl
    | other name other value key hname hother hplaced =>
      rw [fieldFor?_of_placed hname hplaced, fieldFor?_of_placed hother hplaced]

theorem looseEntries_respelled (h : List.Forall₂ (Respelled table shape) context respelled) :
    looseEntries table shape context = looseEntries table shape respelled := by
  induction h with
  | nil => rfl
  | cons hfirst _ ih =>
    rw [looseEntries, looseEntries, List.filter_cons, List.filter_cons, ← looseEntries,
      ← looseEntries, ih]
    cases hfirst with
    | same e => rfl
    | other name other value key hname hother hplaced =>
      rw [fieldFor?_of_placed hname hplaced, fieldFor?_of_placed hother hplaced]
      rfl

theorem bagContents_respelled (h : List.Forall₂ (Respelled table shape) context respelled) :
    (bagEntries table shape context).map bagContents
      = (bagEntries table shape respelled).map bagContents := by
  induction h with
  | nil => rfl
  | cons hfirst _ ih =>
    rw [bagEntries, bagEntries, List.filter_cons, List.filter_cons, ← bagEntries, ← bagEntries]
    cases hfirst with
    | same e => split <;> simp only [List.map_cons, ih]
    | other name other value key hname hother hplaced =>
      rw [fieldFor?_of_placed hname hplaced, fieldFor?_of_placed hother hplaced]
      by_cases hkey : key = shape.overflowKey
      · subst hkey
        simp only [decide_true, if_true, List.map_cons, ih,
          bagContents_of_placed name other hplaced]
      · simp [hkey, ih]

end Respelled

/-! ### Contexts in which no two names stand for one key -/

namespace Unambiguous

variable {context : Attributes} (h : Unambiguous table shape context)
include h

theorem distinct_fieldEntries : Assoc.Distinct (fieldEntries table shape context) := by
  rw [Assoc.Distinct, List.pairwise_map, fieldEntries, List.pairwise_filterMap]
  refine h.imp fun hxy a ha b hb => ?_
  obtain ⟨key, hkey, rfl⟩ := Option.map_eq_some_iff.mp ha
  obtain ⟨other, hother, rfl⟩ := Option.map_eq_some_iff.mp hb
  have hx := resolve?_of_fieldFor? (Option.filter_eq_some_iff.mp hkey).1
  have hy := resolve?_of_fieldFor? (Option.filter_eq_some_iff.mp hother).1
  rw [beq_eq_false_iff_ne]
  rintro rfl
  exact hxy _ hx hy

theorem length_bagEntries : (bagEntries table shape context).length ≤ 1 := by
  have hpairwise := h.sublist (List.filter_sublist (p := fun e =>
    fieldFor? table shape e.1 e.2 = some shape.overflowKey))
  rw [← bagEntries] at hpairwise
  rcases hbag : bagEntries table shape context with _ | ⟨x, _ | ⟨y, rest⟩⟩
  · exact Nat.zero_le 1
  · exact Nat.le_refl 1
  · -- Two attributes for the bag would have names for one key.
    have hmem : ∀ e ∈ bagEntries table shape context,
        table.resolve? shape e.1 = some shape.overflowKey := by
      intro e he
      exact resolve?_of_fieldFor? (of_decide_eq_true (List.mem_filter.mp he).2)
    rw [hbag] at hpairwise hmem
    exact absurd (hmem y (by simp))
      ((List.pairwise_cons.mp hpairwise).1 y (by simp) _ (hmem x (by simp)))

end Unambiguous

/-! ### Rearranged contexts -/

namespace Rearranged

variable {context other : Attributes} (h : Rearranged table shape context other)
include h

theorem fieldEntries_perm :
    (fieldEntries table shape context).Perm (fieldEntries table shape other) := by
  obtain ⟨respelled, hrespelled, hperm⟩ := h
  rw [fieldEntries_respelled hrespelled]
  exact hperm.filterMap _

theorem looseEntries_perm :
    (looseEntries table shape context).Perm (looseEntries table shape other) := by
  obtain ⟨respelled, hrespelled, hperm⟩ := h
  rw [looseEntries_respelled hrespelled]
  exact hperm.filter _

theorem bag_eq (hcontext : Unambiguous table shape context) :
    bagOf table shape context = bagOf table shape other := by
  obtain ⟨respelled, hrespelled, hperm⟩ := h
  have hbag : ((bagEntries table shape context).map bagContents).Perm
      ((bagEntries table shape other).map bagContents) := by
    rw [bagContents_respelled hrespelled]
    exact (hperm.filter _).map _
  have hlength := hcontext.length_bagEntries
  rw [bagOf, bagOf]
  -- There is one attribute for the bag at most, so there is nothing to reorder.
  rcases hone : (bagEntries table shape context).map bagContents with _ | ⟨contents, _ | ⟨_, _⟩⟩
  · rw [hone] at hbag
    rw [List.nil_perm.mp hbag]
  · rw [hone] at hbag
    rw [List.singleton_perm.mp hbag]
  · have := congrArg List.length hone
    rw [List.length_map, List.length_cons, List.length_cons] at this
    omega

/-- Sorting two contexts that say the same: the fields hold the same values, and the bag is what was
passed for it with the loose attributes written over it, in the order of either context. -/
theorem normalize_eq (hdistinct : Assoc.Distinct context)
    (hcontext : Unambiguous table shape context) :
    ∃ bag, Assoc.Distinct bag ∧
      normalize table shape context = ⟨shape, fieldEntries table shape context,
        Assoc.update bag (looseEntries table shape context)⟩ ∧
      normalize table shape other = ⟨shape, fieldEntries table shape other,
        Assoc.update bag (looseEntries table shape other)⟩ := by
  have hfields := hcontext.distinct_fieldEntries
  have hloose : Assoc.Distinct (looseEntries table shape context) :=
    hdistinct.sublist List.filter_sublist
  refine ⟨Assoc.ofEntries (bagOf table shape context), Assoc.distinct_ofEntries _, ?_, ?_⟩
  · rw [Rollout.normalize_eq, hfields.ofEntries_eq, hloose.ofEntries_eq]
  · rw [Rollout.normalize_eq, (hfields.perm h.fieldEntries_perm).ofEntries_eq,
      (hloose.perm h.looseEntries_perm).ofEntries_eq, h.bag_eq hcontext]

/-- **Sorting does not see how a context is written.** -/
theorem normalize_perm (hdistinct : Assoc.Distinct context)
    (hcontext : Unambiguous table shape context) :
    (normalize table shape context).canonical.Perm (normalize table shape other).canonical ∧
      (normalize table shape context).overflow.Perm (normalize table shape other).overflow := by
  obtain ⟨bag, hbag, heq, heq'⟩ := h.normalize_eq hdistinct hcontext
  rw [heq, heq']
  exact ⟨h.fieldEntries_perm,
    hbag.update_perm (hdistinct.sublist List.filter_sublist) h.looseEntries_perm⟩

end Rearranged

end Rollout
