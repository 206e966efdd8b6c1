/-
Lists that grow at their end.

A history is such a list: what happened last stands at its end.

* `split_concat` — an element of a longer list is its last one, or one of those before;
* `split_last` — an element has a last place;
* `Lasts` — something happened, and ever since only what is allowed after it;
* `getLast?_filter_iff` — the last element of a kind, as something that happened last.
-/
import Mathlib.Data.List.Induction

namespace Rollout

variable {α : Type} {l : List α} {x : α}

/-- An element of a longer list is its last one, or one of the list before. -/
theorem split_concat {e : α} {earlier later : List α} (h : l ++ [e] = earlier ++ x :: later) :
    (earlier = l ∧ x = e ∧ later = []) ∨ ∃ rest, l = earlier ++ x :: rest ∧ later = rest ++ [e] := by
  rcases List.eq_nil_or_concat later with rfl | ⟨rest, last, rfl⟩
  · obtain ⟨rfl, hlast⟩ := List.append_inj' h rfl
    cases hlast
    exact .inl ⟨rfl, rfl, rfl⟩
  · rw [List.concat_eq_append, ← List.cons_append, ← List.append_assoc] at h
    obtain ⟨rfl, hlast⟩ := List.append_inj' h rfl
    cases hlast
    exact .inr ⟨rest, rfl, List.concat_eq_append⟩

/-- Something happened, and ever since only what is allowed after it. -/
def Lasts (happened allowed : α → Prop) (l : List α) : Prop :=
  ∃ earlier x later, l = earlier ++ x :: later ∧ happened x ∧ ∀ y ∈ later, allowed y

theorem not_lasts_nil (happened allowed : α → Prop) : ¬ Lasts happened allowed [] := by
  rintro ⟨earlier, x, later, h, -⟩
  simp at h

theorem lasts_concat {happened allowed : α → Prop} :
    Lasts happened allowed (l ++ [x]) ↔ happened x ∨ Lasts happened allowed l ∧ allowed x := by
  constructor
  · rintro ⟨earlier, y, later, hsplit, hhappened, hlater⟩
    rcases split_concat hsplit with ⟨-, rfl, -⟩ | ⟨rest, rfl, rfl⟩
    · exact .inl hhappened
    · exact .inr ⟨⟨earlier, y, rest, rfl, hhappened,
        fun z hz => hlater z (List.mem_append_left _ hz)⟩, hlater x (by simp)⟩
  · rintro (hhappened | ⟨⟨earlier, y, later, rfl, hhappened, hlater⟩, hallowed⟩)
    · exact ⟨l, x, [], rfl, hhappened, by simp⟩
    · refine ⟨earlier, y, later ++ [x], by simp, hhappened, fun z hz => ?_⟩
      rcases List.mem_append.mp hz with hz | hz
      · exact hlater z hz
      · rw [List.mem_singleton.mp hz]
        exact hallowed

theorem Lasts.imp {happened allowed happened' allowed' : α → Prop}
    (hhappened : ∀ y ∈ l, happened y → happened' y) (hallowed : ∀ y ∈ l, allowed y → allowed' y)
    (h : Lasts happened allowed l) : Lasts happened' allowed' l := by
  obtain ⟨earlier, y, later, rfl, hy, hlater⟩ := h
  refine ⟨earlier, y, later, rfl, hhappened y (by simp) hy, fun z hz => ?_⟩
  exact hallowed z (List.mem_append_right _ (List.mem_cons_of_mem _ hz)) (hlater z hz)

/-- The last element of a kind. -/
theorem getLast?_filter_iff {p : α → Bool} :
    (l.filter p).getLast? = some x ↔ Lasts (fun y => y = x ∧ p y = true) (p · = false) l := by
  induction l using List.reverseRecOn with
  | nil => simp [not_lasts_nil]
  | append_singleton l last ih =>
    rw [List.filter_append, lasts_concat, ← ih]
    cases hlast : p last <;> simp [hlast]

/-- If there are elements of a kind, there is a last one. -/
theorem exists_lasts {P : α → Prop} (h : ∃ x ∈ l, P x) :
    ∃ x, Lasts (fun y => y = x ∧ P y) (¬ P ·) l := by
  induction l using List.reverseRecOn with
  | nil => simp at h
  | append_singleton l last ih =>
    by_cases hlast : P last
    · exact ⟨last, lasts_concat.mpr (.inl ⟨rfl, hlast⟩)⟩
    · obtain ⟨x, hx, hP⟩ := h
      have hmem : x ∈ l := by
        refine (List.mem_append.mp hx).resolve_right fun hx => hlast ?_
        rw [← List.mem_singleton.mp hx]
        exact hP
      obtain ⟨y, hy⟩ := ih ⟨x, hmem, hP⟩
      exact ⟨y, lasts_concat.mpr (.inr ⟨hy, hlast⟩)⟩

/-- An element of a list has a last place in it. -/
theorem split_last (h : x ∈ l) : ∃ earlier later, l = earlier ++ x :: later ∧ x ∉ later := by
  obtain ⟨_, earlier, y, later, hsplit, ⟨-, rfl⟩, hlater⟩ := exists_lasts ⟨x, h, rfl⟩
  exact ⟨earlier, later, hsplit, fun hmem => hlater x hmem rfl⟩

end Rollout
