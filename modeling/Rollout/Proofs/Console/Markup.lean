/-
Which texts with tags can be shown.

A text without an opening bracket has no tags, and is shown as it is unless it holds a tab or a
character that the console drops.  A text that cannot be shown has a closing tag without a style to
close, or one that closes a handler whose parameters cannot be read; there is no other failure.

* `Markup.shown_of_bare` — texts that are shown as they are;
* `Markup.Malformed`, `Markup.shown_failure` — the failures of texts that are not shown;
* `Markup.Blocked` — texts of which one cannot be shown;
* `Table.shown_error_iff` — the tables that cannot be shown.
-/
import Rollout.Console.Table
import Rollout.Proofs.FieldType

namespace Rollout

namespace Markup

/-- A text without opening brackets, tabs and characters that the console drops. -/
def Bare (s : String) : Prop := ∀ c ∈ s.toList, c ≠ '[' ∧ c ≠ '\t' ∧ isDropped c = false

instance (s : String) : Decidable (Bare s) := List.decidableBAll _ s.toList

theorem Bare.append {s t : String} (hs : Bare s) (ht : Bare t) : Bare (s ++ t) := by
  intro c hc
  rw [String.toList_append, List.mem_append] at hc
  exact hc.elim (hs c) (ht c)

/-! ### Texts without tags -/

section Bare

variable {cs : List Char}

theorem slashedTag?_eq_none (h : '[' ∉ cs) : slashedTag? cs = none := by
  have hdrop : '[' ∉ cs.dropWhile (· == '\\') :=
    fun hmem => h ((List.dropWhile_suffix _).subset hmem)
  rw [slashedTag?, Option.map_eq_none_iff]
  unfold tag?
  split
  · rename_i heq
    rw [heq] at hdrop
    exact absurd List.mem_cons_self hdrop
  · rfl

/-- A text without an opening bracket is one plain piece. -/
theorem piecesWithin_of_bare (h : '[' ∉ cs) {rounds : Nat} (hrounds : cs.length ≤ rounds) :
    piecesWithin rounds cs = if cs = [] then [] else [.plain cs] := by
  induction cs generalizing rounds with
  | nil => cases rounds <;> rfl
  | cons c rest ih =>
    cases rounds with
    | zero => cases hrounds
    | succ rounds =>
      rw [piecesWithin, slashedTag?_eq_none h, if_neg (List.cons_ne_nil c rest)]
      show addPlain c (piecesWithin rounds rest) = [.plain (c :: rest)]
      rw [ih (fun hmem => h (List.mem_cons_of_mem _ hmem)) (Nat.le_of_succ_le_succ hrounds)]
      by_cases hrest : rest = []
      · rw [if_pos hrest, hrest]
        rfl
      · rw [if_neg hrest]
        rfl

theorem unescape_of_bare (h : '[' ∉ cs) : unescape cs = cs := by
  induction cs with
  | nil => rfl
  | cons c rest ih =>
    have hrest : '[' ∉ rest := fun hmem => h (List.mem_cons_of_mem _ hmem)
    unfold unescape
    split
    · rename_i heq
      obtain ⟨-, rfl⟩ := List.cons.inj heq
      exact absurd List.mem_cons_self hrest
    · rename_i heq
      obtain ⟨rfl, rfl⟩ := List.cons.inj heq
      rw [ih hrest]
    · rename_i heq
      cases heq

theorem expandTabs_of_bare (h : '\t' ∉ cs) (column : Nat) : expandTabs column cs = cs := by
  induction cs generalizing column with
  | nil => rfl
  | cons c rest ih =>
    have hc : c ≠ '\t' := fun hc => h (hc ▸ List.mem_cons_self)
    rw [expandTabs, if_neg hc, ih fun hmem => h (List.mem_cons_of_mem _ hmem)]

end Bare

variable [Handlers]

/-- A bare text is shown as it is. -/
theorem shown_of_bare {s : String} (h : Bare s) : shown s = .ok s := by
  have hbracket : '[' ∉ s.toList := fun hmem => (h _ hmem).1 rfl
  have htab : '\t' ∉ s.toList := fun hmem => (h _ hmem).2.1 rfl
  have hkept : s.toList.filter (!isDropped ·) = s.toList :=
    List.filter_eq_self.mpr fun c hc => by rw [(h c hc).2.2, Bool.not_false]
  have hplain : plainText [] (pieces s.toList) = .ok s.toList := by
    rw [pieces, piecesWithin_of_bare hbracket (Nat.le_refl _)]
    split
    · rename_i hnil
      rw [hnil]
      rfl
    · rw [plainText, unescape_of_bare hbracket, plainText, Except.map, List.append_nil]
  rw [shown, hplain, Except.map, hkept, expandTabs_of_bare htab, String.ofList_toList]

/-! ### Texts that cannot be shown -/

/-- The failures of texts whose tags are not in order. -/
inductive Malformed : Failure → Prop
  | strayTag (content : String) : Malformed (.strayTag content)
  | unreadableTag (parameters : String) (unreadable : Handlers.reads parameters = false) :
      Malformed (.unreadableTag parameters)

theorem unreadable_of_not_isReadable {t : OpenTag} (h : ¬ t.isReadable = true) :
    Handlers.reads (.ofList t.parameters) = false := by
  rw [OpenTag.isReadable, Bool.or_eq_true, not_or, Bool.not_eq_true, Bool.not_eq_true] at h
  exact h.2

theorem plainText_failure {tags : List OpenTag} {parts : List Piece} {f : Failure}
    (h : plainText tags parts = .error f) : Malformed f := by
  induction parts generalizing tags with
  | nil => cases h
  -- Only a closing tag can fail: it closes nothing, or a handler that cannot be read.
  | cons piece rest ih =>
    cases piece with
    | plain cs =>
      rw [plainText] at h
      exact ih (map_eq_error_iff.mp h)
    | tag content =>
      rw [plainText] at h
      split at h
      · split at h
        · split at h
          · exact ih h
          · rename_i hreadable
            cases h
            exact .unreadableTag _ (unreadable_of_not_isReadable hreadable)
        · cases h
          exact .strayTag _
      · exact ih h

/-- A text that cannot be shown has tags that are not in order. -/
theorem shown_failure {s : String} {f : Failure} (h : shown s = .error f) : Malformed f :=
  plainText_failure (map_eq_error_iff.mp h)

/-! ### Several texts -/

/-- A text that can be shown. -/
def Showable (s : String) : Prop := ∃ text, shown s = .ok text

/-- Of several texts, the first that cannot be shown fails in a way. -/
def Blocked (texts : List String) (f : Failure) : Prop :=
  ∃ before text after, texts = before ++ text :: after ∧
    (∀ s ∈ before, Showable s) ∧ shown text = .error f

section Blocked

variable {texts others : List String} {s : String} {f : Failure}

theorem not_blocked_nil : ¬ Blocked [] f := by
  rintro ⟨before, text, after, hsplit, -⟩
  cases before <;> cases hsplit

theorem blocked_cons : Blocked (s :: texts) f ↔
    shown s = .error f ∨ Showable s ∧ Blocked texts f := by
  constructor
  · rintro ⟨before, text, after, hsplit, hbefore, htext⟩
    cases before with
    | nil =>
      cases hsplit
      exact .inl htext
    | cons x before =>
      cases hsplit
      exact .inr ⟨hbefore s List.mem_cons_self, before, text, after, rfl,
        fun x hx => hbefore x (List.mem_cons_of_mem _ hx), htext⟩
  · rintro (htext | ⟨hs, before, text, after, rfl, hbefore, htext⟩)
    · exact ⟨[], s, texts, rfl, List.forall_mem_nil _, htext⟩
    · exact ⟨s :: before, text, after, rfl, List.forall_mem_cons.mpr ⟨hs, hbefore⟩, htext⟩

theorem blocked_append : Blocked (texts ++ others) f ↔
    Blocked texts f ∨ (∀ s ∈ texts, Showable s) ∧ Blocked others f := by
  induction texts with
  | nil => simp [not_blocked_nil]
  | cons s texts ih =>
    rw [List.cons_append, blocked_cons, blocked_cons, ih, List.forall_mem_cons]
    tauto

theorem Blocked.not_forall_showable (h : Blocked texts f) : ¬ ∀ s ∈ texts, Showable s := by
  obtain ⟨before, text, after, rfl, -, htext⟩ := h
  intro hall
  obtain ⟨t, ht⟩ := hall text (List.mem_append_right _ List.mem_cons_self)
  rw [ht] at htext
  cases htext

theorem forall_showable_of_not_blocked (h : ∀ f, ¬ Blocked texts f) : ∀ s ∈ texts, Showable s := by
  induction texts with
  | nil => exact List.forall_mem_nil _
  | cons s texts ih =>
    cases hs : shown s with
    | error f => exact absurd (blocked_cons.mpr (.inl hs)) (h f)
    | ok t =>
      have hrest : ∀ f, ¬ Blocked texts f :=
        fun f hf => h f (blocked_cons.mpr (.inr ⟨⟨t, hs⟩, hf⟩))
      exact List.forall_mem_cons.mpr ⟨⟨t, hs⟩, ih hrest⟩

theorem Blocked.unique {g : Failure} (h : Blocked texts f) (hg : Blocked texts g) : f = g := by
  induction texts with
  | nil => exact absurd h not_blocked_nil
  | cons s texts ih =>
    rcases blocked_cons.mp h with hs | ⟨⟨t, ht⟩, hrest⟩ <;>
      rcases blocked_cons.mp hg with hs' | ⟨⟨t', ht'⟩, hrest'⟩
    · exact Except.error.inj (hs.symm.trans hs')
    · cases hs.symm.trans ht'
    · cases ht.symm.trans hs'
    · exact ih hrest hrest'

theorem Blocked.malformed (h : Blocked texts f) : Malformed f := by
  obtain ⟨-, _, -, -, -, htext⟩ := h
  exact shown_failure htext

end Blocked

end Markup

/-! ### Tables -/

namespace Table

open Markup

variable [Handlers] {f : Failure}

theorem shownCells_error_iff {cells : List String} :
    shownCells cells = .error f ↔ Blocked cells f := by
  induction cells with
  | nil => simp [shownCells, not_blocked_nil]
  | cons cell rest ih =>
    rw [shownCells, blocked_cons, ← ih]
    cases hcell : Markup.shown cell with
    | error failure => simp [Showable, hcell]
    | ok text => simp [Showable, hcell, map_eq_error_iff]

theorem exists_shownCells_iff {cells : List String} :
    (∃ found, shownCells cells = .ok found) ↔ ∀ s ∈ cells, Showable s := by
  induction cells with
  | nil => simp [shownCells]
  | cons cell rest ih =>
    rw [shownCells, List.forall_mem_cons, ← ih]
    cases hcell : Markup.shown cell with
    | error failure => simp [Showable, hcell]
    | ok text => simp [Showable, hcell, exists_map_eq_ok_iff]

theorem shownRows_error_iff {rows : List (List String)} :
    shownRows rows = .error f ↔ Blocked rows.flatten f := by
  induction rows with
  | nil => simp [shownRows, not_blocked_nil]
  | cons row rest ih =>
    rw [shownRows, List.flatten_cons, blocked_append, ← ih, ← shownCells_error_iff,
      ← exists_shownCells_iff]
    cases shownCells row with
    | error failure => simp
    | ok cells => simp [map_eq_error_iff]

/-- A table cannot be shown when its title or one of its cells cannot. -/
theorem shown_error_iff {t : Table} :
    t.shown = .error f ↔ Blocked (t.title :: t.rows.flatten) f := by
  rw [shown, blocked_cons, ← shownRows_error_iff]
  cases htitle : Markup.shown t.title with
  | error failure => simp [Showable, htitle]
  | ok title => cases shownRows t.rows <;> simp [Showable, htitle]

end Table

end Rollout
