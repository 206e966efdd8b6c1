/-
What a value that fits its type was made from.

A list that fits was made item by item and a map entry by entry, with texts for its keys; nothing is
left out.  What does not fit is reported by the paths of all its parts that do not, and of these there
is always one.

* `gather_eq_ok_iff` — all results are there exactly when each of them is;
* `gather_eq_error_iff` — the paths of all that is wrong, if anything is;
* `FieldType.convert_listOf_iff`, `FieldType.convert_mapOf_iff` — lists and maps that fit;
* `FieldType.Converts`, `FieldType.convert_eq_ok_iff` — what a value becomes in a field, type by type;
* `FieldType.convert_ne_nil` — a value that does not fit has a part that does not.
-/
import Mathlib.Data.List.Forall2
import Rollout.FieldType

namespace Rollout

/-! ### Results with paths -/

theorem gather_eq_ok_iff {α : Type} {results : List (Except (List Path) α)} {items : List α} :
    gather results = .ok items ↔ results = items.map .ok := by
  induction results generalizing items with
  | nil =>
    cases items with
    | nil => simp [gather]
    | cons a items => simp [gather]
  | cons result results ih =>
    cases result with
    | error paths =>
      rw [gather]
      cases items with
      | nil => split <;> simp
      | cons a items => split <;> simp
    | ok a =>
      rw [gather]
      cases hrest : gather results with
      | error paths =>
        simp only [reduceCtorEq, false_iff]
        intro h
        cases items with
        | nil => cases h
        | cons b items =>
          rw [List.map_cons, List.cons.injEq] at h
          rw [ih.mpr h.2] at hrest
          cases hrest
      | ok rest =>
        rw [ih] at hrest
        subst hrest
        cases items with
        | nil => simp
        | cons b items =>
          simp only [Except.ok.injEq, List.cons.injEq, List.map_cons]
          rw [(List.map_injective_iff.mpr fun x y h => Except.ok.inj h).eq_iff]

/-- All results of a list are there exactly when each of them is. -/
theorem gather_map_eq_ok_iff {α β : Type} {read : α → Except (List Path) β} {as : List α}
    {bs : List β} :
    gather (as.map read) = .ok bs ↔ List.Forall₂ (fun a b => read a = .ok b) as bs := by
  rw [gather_eq_ok_iff, ← List.forall₂_eq_eq_eq, List.forall₂_map_left_iff,
    List.forall₂_map_right_iff]

theorem map_eq_ok_iff {α β ε : Type} {x : Except ε α} {f : α → β} {b : β} :
    x.map f = .ok b ↔ ∃ a, x = .ok a ∧ f a = b := by
  cases x <;> simp [Except.map]

theorem exists_map_eq_ok_iff {α β ε : Type} {x : Except ε α} {f : α → β} :
    (∃ b, x.map f = .ok b) ↔ ∃ a, x = .ok a := by
  cases x <;> simp [Except.map]

theorem exists_of_mem_right {α β : Type} {R : α → β → Prop} {as : List α} {bs : List β}
    (h : List.Forall₂ R as bs) {b : β} (hb : b ∈ bs) : ∃ a ∈ as, R a b := by
  induction h with
  | nil => cases hb
  | cons hfirst _ ih =>
    rcases List.mem_cons.mp hb with rfl | hb
    · exact ⟨_, List.mem_cons_self, hfirst⟩
    · obtain ⟨a, ha, hab⟩ := ih hb
      exact ⟨a, List.mem_cons_of_mem _ ha, hab⟩

theorem exists_forall₂_iff {α β : Type} {R : α → β → Prop} {as : List α} :
    (∃ bs, List.Forall₂ R as bs) ↔ ∀ a ∈ as, ∃ b, R a b := by
  induction as with
  | nil => simp
  | cons a as ih =>
    simp only [List.forall_mem_cons, ← ih, List.forall₂_cons_left_iff]
    constructor
    · rintro ⟨_, b, bs, hfirst, hrest, rfl⟩
      exact ⟨⟨b, hfirst⟩, bs, hrest⟩
    · rintro ⟨⟨b, hfirst⟩, bs, hrest⟩
      exact ⟨b :: bs, b, bs, hfirst, hrest, rfl⟩

theorem map_eq_error_iff {α β ε : Type} {x : Except ε α} {f : α → β} {e : ε} :
    x.map f = .error e ↔ x = .error e := by
  cases x <;> simp [Except.map]

/-- Something is wrong exactly when one of the results is, and then all that is wrong is reported. -/
theorem gather_eq_error_iff {α : Type} {results : List (Except (List Path) α)} {paths : List Path} :
    gather results = .error paths ↔
      (∃ more, .error more ∈ results) ∧ paths = results.flatMap faults := by
  induction results generalizing paths with
  | nil => simp [gather]
  | cons result results ih =>
    cases result with
    | ok a =>
      rw [gather]
      cases hrest : gather results with
      | ok items =>
        -- There is nothing wrong further down either.
        have hnone : ¬ ∃ more, Except.error more ∈ results := by
          rintro ⟨more, hmore⟩
          rw [gather_eq_ok_iff.mp hrest] at hmore
          obtain ⟨_, -, h⟩ := List.mem_map.mp hmore
          cases h
        simp only [reduceCtorEq, List.mem_cons, false_or, hnone, false_and]
      | error more =>
        obtain ⟨hwrong, rfl⟩ := ih.mp hrest
        simp only [List.mem_cons, reduceCtorEq, false_or, hwrong, List.flatMap_cons, faults,
          List.nil_append, true_and, Except.error.injEq]
        exact eq_comm
    | error first =>
      have hfirst : ∃ more, Except.error more ∈ Except.error (α := α) first :: results :=
        ⟨first, List.mem_cons_self⟩
      rw [gather]
      cases hrest : gather results with
      | ok items =>
        have hnone : results.flatMap faults = [] := by
          rw [gather_eq_ok_iff.mp hrest, List.flatMap_map]
          exact List.flatMap_eq_nil_iff.mpr fun _ _ => rfl
        simp only [hfirst, List.flatMap_cons, hnone, faults, List.append_nil, true_and,
          Except.error.injEq]
        exact eq_comm
      | error more =>
        obtain ⟨-, rfl⟩ := ih.mp hrest
        simp only [hfirst, List.flatMap_cons, faults, true_and, Except.error.injEq]
        exact eq_comm

/-- If each result that is wrong has a path, so have all of them together. -/
theorem gather_ne_nil {α : Type} {results : List (Except (List Path) α)} {paths : List Path}
    (h : gather results = .error paths) (hne : ∀ more, .error more ∈ results → more ≠ []) :
    paths ≠ [] := by
  obtain ⟨⟨more, hmore⟩, rfl⟩ := gather_eq_error_iff.mp h
  intro hnil
  exact hne more hmore (List.flatMap_eq_nil_iff.mp hnil _ hmore)

theorem fitHere_eq_ok_iff {α : Type} {a? : Option α} {a : α} :
    fitHere a? = .ok a ↔ a? = some a := by
  cases a? <;> simp [fitHere]

theorem fitHere_ne_nil {α : Type} {a? : Option α} {paths : List Path}
    (h : fitHere a? = .error paths) : paths ≠ [] := by
  cases a? with
  | none =>
    cases h
    exact List.cons_ne_nil _ _
  | some a => cases h

theorem below_eq_ok_iff {α : Type} {step : Step} {result : Except (List Path) α} {a : α} :
    below step result = .ok a ↔ result = .ok a := by
  cases result <;> simp [below]

theorem below_eq_error_iff {α : Type} {step : Step} {result : Except (List Path) α}
    {paths : List Path} :
    below step result = .error paths ↔
      ∃ more, result = .error more ∧ paths = more.map (step :: ·) := by
  cases result with
  | ok a => simp [below]
  | error more => simp [below, eq_comm]

theorem exists_text_of_convertText {v w : Value} (h : convertText v = some w) :
    ∃ s, w = .text s := by
  unfold convertText at h
  split at h
  · cases h
    exact ⟨_, rfl⟩
  · obtain ⟨cs, -, rfl⟩ := Option.map_eq_some_iff.mp h
    exact ⟨_, rfl⟩
  · cases h

theorem convertEntry_eq_ok_iff {convert : Value → Except (List Path) Value}
    {e x : Value × Value} :
    convertEntry convert e = .ok x ↔ convertText e.1 = some x.1 ∧ convert e.2 = .ok x.2 := by
  unfold convertEntry
  cases convertText e.1 <;> cases convert e.2 <;> simp [Prod.ext_iff]

theorem convertEntry_ne_nil {convert : Value → Except (List Path) Value} {e : Value × Value}
    {paths : List Path} (h : convertEntry convert e = .error paths)
    (hne : ∀ more, convert e.2 = .error more → more ≠ []) : paths ≠ [] := by
  simp only [convertEntry] at h
  split at h
  · cases h
  · rename_i hvalue
    cases h
    simpa using hne _ hvalue
  · cases h
    exact List.cons_ne_nil _ _
  · cases h
    exact List.cons_ne_nil _ _

theorem exists_of_error_mem_convertItems {convert : Value → Except (List Path) Value}
    {position : Nat} {items : List Value} {paths : List Path}
    (h : .error paths ∈ convertItems convert position items) :
    ∃ v ∈ items, ∃ step more, convert v = .error more ∧ paths = more.map (step :: ·) := by
  induction items generalizing position with
  | nil => cases h
  | cons v items ih =>
    rcases List.mem_cons.mp h with hfirst | hrest
    · obtain ⟨more, hmore, rfl⟩ := below_eq_error_iff.mp hfirst.symm
      exact ⟨v, List.mem_cons_self, _, more, hmore, rfl⟩
    · obtain ⟨w, hw, hfault⟩ := ih hrest
      exact ⟨w, List.mem_cons_of_mem _ hw, hfault⟩

theorem convertItems_eq_map_ok_iff {convert : Value → Except (List Path) Value} {position : Nat}
    {items results : List Value} :
    convertItems convert position items = results.map .ok ↔
      List.Forall₂ (fun v w => convert v = .ok w) items results := by
  induction items generalizing position results with
  | nil => cases results <;> simp [convertItems]
  | cons v items ih =>
    cases results with
    | nil => simp [convertItems]
    | cons w results =>
      rw [convertItems, List.map_cons, List.cons.injEq, below_eq_ok_iff, ih, List.forall₂_cons]

namespace FieldType

/-- A list fits when it is a list of some kind whose items fit. -/
theorem convert_listOf_iff {item : FieldType} {v w : Value} :
    (listOf item).convert v = .ok w ↔ ∃ items results, listItems? v = some items ∧
      List.Forall₂ (fun v w => item.convert v = .ok w) items results ∧ w = .list results := by
  rw [convert]
  cases listItems? v with
  | none => simp
  | some items =>
    simp only [← @convertItems_eq_map_ok_iff item.convert 0, ← gather_eq_ok_iff, map_eq_ok_iff,
      Option.some.injEq, exists_and_left, exists_eq_left']
    exact exists_congr fun results => and_congr_right fun _ => eq_comm

/-- A map fits when its keys can be texts and its values fit. -/
theorem convert_mapOf_iff {item : FieldType} {v w : Value} :
    (mapOf item).convert v = .ok w ↔ ∃ entries results, v = .map entries ∧
      List.Forall₂ (fun e x => convertText e.1 = some x.1 ∧ item.convert e.2 = .ok x.2)
        entries results ∧ w = .ofEntries results := by
  cases v with
  | map entries =>
    simp only [convert, ← convertEntry_eq_ok_iff, ← gather_map_eq_ok_iff, map_eq_ok_iff,
      Value.map.injEq, exists_and_left, exists_eq_left']
    exact exists_congr fun results => and_congr_right fun _ => eq_comm
  | _ => simp [convert]

/-- What a value becomes in a field of a type.  Plain types are fitted on their own, a list item by item
and a map entry by entry with texts for its keys. -/
def Converts : FieldType → Value → Value → Prop
  | .text, v, w => convertText v = some w
  | .integer, v, w => ∃ n, convertInteger v = some n ∧ w = .int n
  | .number, v, w => ∃ x, convertNumber v = some x ∧ w = .float x
  | .truth, v, w => ∃ b, convertTruth v = some b ∧ w = .bool b
  | .positiveInteger, v, w => ∃ n, convertInteger v = some n ∧ 0 < n ∧ w = .int n
  | .positiveNumber, v, w => ∃ x, convertNumber v = some x ∧ x.isPositive = true ∧ w = .float x
  | .anything, v, w => w = v
  | .listOf item, v, w => ∃ items results, listItems? v = some items ∧
      List.Forall₂ item.Converts items results ∧ w = .list results
  | .mapOf item, v, w => ∃ entries results, v = .map entries ∧
      List.Forall₂ (fun e x => convertText e.1 = some x.1 ∧ item.Converts e.2 x.2) entries results ∧
      w = .ofEntries results

theorem convert_eq_ok_iff {type : FieldType} {v w : Value} :
    type.convert v = .ok w ↔ type.Converts v w := by
  induction type generalizing v w with
  | text => exact fitHere_eq_ok_iff
  | integer | number | truth =>
    rw [convert, fitHere_eq_ok_iff, Option.map_eq_some_iff]
    simp only [Converts, eq_comm]
  | positiveInteger | positiveNumber =>
    rw [convert, fitHere_eq_ok_iff, Option.map_eq_some_iff]
    simp only [Converts, Option.filter_eq_some_iff, decide_eq_true_eq, and_assoc,
      eq_comm (a := w)]
  | anything => simp only [convert, Converts, Except.ok.injEq, eq_comm]
  | listOf item ih =>
    rw [convert_listOf_iff]
    simp only [ih]
    rfl
  | mapOf item ih =>
    rw [convert_mapOf_iff]
    simp only [ih]
    rfl

/-- Null becomes nothing but null. -/
theorem Converts.of_null {type : FieldType} {w : Value} (h : type.Converts .null w) : w = .null := by
  cases type with
  | anything => exact h
  | text => cases h
  | listOf item =>
    obtain ⟨items, -, hitems, -⟩ := h
    cases hitems
  | mapOf item =>
    obtain ⟨entries, -, hentries, -⟩ := h
    cases hentries
  | _ =>
    obtain ⟨_, hnone, -⟩ := h
    cases hnone

/-- A value that does not fit is reported with a path at least. -/
theorem convert_ne_nil {type : FieldType} {v : Value} {paths : List Path}
    (h : type.convert v = .error paths) : paths ≠ [] := by
  induction type generalizing v paths with
  | anything => cases h
  | listOf item ih =>
    rw [convert] at h
    split at h
    · cases h
      exact List.cons_ne_nil _ _
    · refine gather_ne_nil (map_eq_error_iff.mp h) fun more hmore => ?_
      obtain ⟨w, -, step, below, hbelow, rfl⟩ := exists_of_error_mem_convertItems hmore
      simpa using ih hbelow
  | mapOf item ih =>
    cases v with
    | map entries =>
      rw [convert] at h
      refine gather_ne_nil (map_eq_error_iff.mp h) fun more hmore => ?_
      obtain ⟨e, -, he⟩ := List.mem_map.mp hmore
      exact convertEntry_ne_nil he fun _ => ih
    | _ =>
      cases h
      exact List.cons_ne_nil _ _
  | _ => exact fitHere_ne_nil h

end FieldType

end Rollout
