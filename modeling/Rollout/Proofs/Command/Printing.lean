/-
What commands print.

JSON is printed as it is.  Lines and tables are made of texts with tags, which are shown one by one,
and a text that cannot be shown is a failure that nothing handles.  All values that reach a table have
a form in JSON, so there is no other failure.

* `Command.prints_aliases`, `Command.prints_normalize`, `Command.prints_showOutcome` — how the
  commands end on what they print;
* `Command.normalizedTexts`, `Command.summaryTexts` — the texts of their tables.
-/
import Rollout.Command
import Rollout.Proofs.Command.Input
import Rollout.Proofs.Evaluation.Decoded
import Rollout.Proofs.Record.Rearranged

namespace Rollout

open Rollout.Markup

/-! ### Transcripts -/

/-- How a command ends that prints texts with tags: as it would otherwise, unless one of them cannot
be shown. -/
inductive Prints [Handlers] (texts : List String) (otherwise : Ending) : Ending → Prop
  | shown (h : ∀ s ∈ texts, Showable s) : Prints texts otherwise otherwise
  | blocked {f : Failure} (h : Blocked texts f) : Prints texts otherwise (.crashed f)

namespace Transcript

theorem ending_json {v : Value} (h : Json.Decoded v) (ending : Ending) :
    (json v ending).ending = ending := by
  obtain ⟨text, htext⟩ := h.writable.exists_write .indented
  rw [json, htext]

theorem prints_lines [Handlers] (ending : Ending) (texts : List String) :
    Prints texts ending (lines ending texts).ending := by
  induction texts with
  | nil => exact .shown (List.forall_mem_nil _)
  | cons s rest ih =>
    cases hs : Markup.shown s with
    | error failure =>
      rw [lines, hs]
      exact .blocked (blocked_cons.mpr (.inl hs))
    | ok text =>
      have hrest : (lines ending (s :: rest)).ending = (lines ending rest).ending := by
        rw [lines, hs]
        dsimp only
        split
        · rename_i hlines
          rw [hlines]
        · rfl
      rw [hrest]
      generalize (lines ending rest).ending = result at ih
      cases ih with
      | shown h => exact .shown (List.forall_mem_cons.mpr ⟨⟨text, hs⟩, h⟩)
      | blocked h => exact .blocked (blocked_cons.mpr (.inr ⟨⟨text, hs⟩, h⟩))

theorem prints_table [Handlers] (t : Table) (ending : Ending) :
    Prints (t.title :: t.rows.flatten) ending (table t ending).ending := by
  rw [table]
  cases ht : t.shown with
  | ok found =>
    refine .shown (forall_showable_of_not_blocked fun f hf => ?_)
    rw [Table.shown_error_iff.mpr hf] at ht
    cases ht
  | error f => exact .blocked (Table.shown_error_iff.mp ht)

end Transcript

/-! ### Values in tables -/

/-- A value as JSON on one line. -/
def jsonText (v : Value) : String := ((Json.write .spaced v).toOption).getD ""

theorem write_spaced {v : Value} (h : Json.Decoded v) : Json.write .spaced v = .ok (jsonText v) := by
  obtain ⟨text, htext⟩ := h.writable.exists_write .spaced
  rw [jsonText, htext]
  rfl

namespace Command

theorem object_decoded {members : List (String × Value)} (h : ∀ e ∈ members, Json.Decoded e.2) :
    Json.Decoded (object members) := by
  refine .map _ ?_ ?_
  · exact List.forall_mem_map.mpr fun e _ => ⟨e.1, rfl⟩
  · exact List.forall_mem_map.mpr h

theorem optional_decoded (s : Option String) : Json.Decoded (optional s) := by
  cases s with
  | none => exact .null
  | some s => exact .text s

/-! ### Spellings -/

/-- The texts that `aliases` prints. -/
def spellingTexts (key : String) : List String :=
  aliasLines key (AliasTable.standard.lookup key) (spellings key).eraseDups

theorem ending_aliases_json [Handlers] (key : String) : (aliases key true).ending = .finished := by
  unfold aliases
  dsimp only
  rw [if_pos rfl]
  -- What the table holds makes no difference, and is not to be computed.
  generalize AliasTable.standard.lookup key = canonical
  apply Transcript.ending_json
  refine object_decoded (List.forall_mem_cons.mpr ⟨.text key, List.forall_mem_cons.mpr
    ⟨optional_decoded _, List.forall_mem_singleton.mpr (.list _ ?_)⟩⟩)
  exact List.forall_mem_map.mpr fun s _ => .text s

theorem prints_aliases [Handlers] (key : String) :
    Prints (spellingTexts key) .finished (aliases key false).ending := by
  unfold aliases
  dsimp only
  rw [if_neg Bool.false_ne_true]
  exact Transcript.prints_lines _ _

/-! ### Sorted contexts -/

/-- The texts of the rows of sorted attributes. -/
def rowTexts (kind : String) (attributes : List (String × Value)) : List String :=
  attributes.flatMap fun (name, v) => [name, jsonText v, kind]

theorem normalizedRows_eq (kind : String) {attributes : List (String × Value)}
    (h : ∀ e ∈ attributes, Json.Decoded e.2) : ∃ rows,
      normalizedRows kind attributes = .ok rows ∧ rows.flatten = rowTexts kind attributes := by
  induction attributes with
  | nil => exact ⟨[], rfl, rfl⟩
  | cons e rest ih =>
    obtain ⟨name, v⟩ := e
    obtain ⟨hv, hrest⟩ := List.forall_mem_cons.mp h
    obtain ⟨rows, hrows, hflatten⟩ := ih hrest
    refine ⟨[name, jsonText v, kind] :: rows, ?_, ?_⟩
    · rw [normalizedRows, write_spaced hv, hrows]
      rfl
    · rw [List.flatten_cons, hflatten, rowTexts, rowTexts, List.flatMap_cons]

/-- The texts that `normalize` prints. -/
def normalizedTexts (n : Normalization) : List String :=
  ("Normalized (" ++ n.shape.name ++ ")") :: (rowTexts "canonical" n.fields
    ++ rowTexts "overflow" (n.overflow.map fun (name, v) => (name.display, v)))

/-- The names of all that is sorted out are texts. -/
theorem keys_overflow (table : AliasTable) (shape : Shape) {attributes : Attributes}
    (h : Json.Decoded (.map attributes)) :
    ∀ e ∈ (Rollout.normalize table shape attributes).overflow, ∃ s, e.1 = .text s := by
  have hwritten : ∀ entries : Attributes, (∀ e ∈ entries, ∃ s, e.1 = .text s) →
      ∀ e ∈ Assoc.ofEntries entries, ∃ s, e.1 = .text s := fun entries hentries =>
    Assoc.forall_key_update (P := fun k => ∃ s, k = Value.text s) (List.forall_mem_nil _) hentries
  rw [normalize_eq]
  refine Assoc.forall_key_update (P := fun k => ∃ s, k = Value.text s) (hwritten _ ?_) (hwritten _ ?_)
  · rw [bagOf, List.getLast?_map]
    cases hlast : (bagEntries table shape attributes).getLast? with
    | none => exact List.forall_mem_nil _
    | some x =>
      have hx : x ∈ attributes := (List.mem_filter.mp (List.mem_of_getLast? hlast)).1
      have hkey := h.keys x hx
      have hvalue := h.values x hx
      obtain ⟨name, value⟩ := x
      cases value with
      | map entries => exact hvalue.keys
      | null => exact List.forall_mem_nil _
      | _ => exact List.forall_mem_singleton.mpr hkey
  · exact fun e he => h.keys e (List.mem_filter.mp he).1

/-- A context that was read is sorted into values that JSON has a form for. -/
theorem decoded_normalize (shape : Shape) {attributes : Attributes}
    (h : Json.Decoded (.map attributes)) :
    (∀ e ∈ (Rollout.normalize .standard shape attributes).fields, Json.Decoded e.2) ∧
      Json.Decoded (.map (Rollout.normalize .standard shape attributes).overflow) := by
  have hsorted : (∀ e ∈ (Rollout.normalize .standard shape attributes).canonical, Json.Decoded e.2) ∧
      ∀ e ∈ (Rollout.normalize .standard shape attributes).overflow, Json.Decoded e.2 :=
    Json.hereditary_decoded.normalized h.values
  exact ⟨List.forall_mem_map.mpr hsorted.1, .map _ (keys_overflow .standard shape h) hsorted.2⟩

section Normalize

variable [Handlers] {context : String} {attributes : Attributes}

theorem ending_normalize_json (h : Input.object "--context" context = .ok attributes)
    (shape : Shape) : (normalize context shape true).ending = .finished := by
  obtain ⟨hfields, hoverflow⟩ := decoded_normalize shape (Input.object_decoded h)
  unfold normalize
  rw [h]
  dsimp only
  rw [if_pos rfl]
  generalize Rollout.normalize .standard shape attributes = n at hfields hoverflow
  apply Transcript.ending_json
  exact object_decoded (List.forall_mem_cons.mpr ⟨.text _, List.forall_mem_cons.mpr
    ⟨object_decoded hfields, List.forall_mem_cons.mpr
      ⟨hoverflow, List.forall_mem_singleton.mpr (.bool _)⟩⟩⟩)

theorem prints_normalize (h : Input.object "--context" context = .ok attributes) (shape : Shape) :
    Prints (normalizedTexts (Rollout.normalize .standard shape attributes)) .finished
      (normalize context shape false).ending := by
  obtain ⟨hfields, hoverflow⟩ := decoded_normalize shape (Input.object_decoded h)
  unfold normalize
  rw [h]
  dsimp only
  rw [if_neg Bool.false_ne_true]
  generalize Rollout.normalize .standard shape attributes = n at hfields hoverflow
  obtain ⟨rows, hrows, hflatten⟩ := normalizedRows_eq "canonical" hfields
  obtain ⟨others, hothers, hflatten'⟩ := normalizedRows_eq "overflow"
    (List.forall_mem_map (f := fun e : Value × Value => (e.1.display, e.2)).mpr hoverflow.values)
  unfold normalizedTable
  rw [hrows]
  dsimp only
  rw [hothers]
  have hprints := Transcript.prints_table ⟨"Normalized (" ++ n.shape.name ++ ")",
    ["Field", "Value", "Kind"], rows ++ others⟩ .finished
  rw [List.flatten_append, hflatten, hflatten'] at hprints
  exact hprints

end Normalize

/-! ### Outcomes -/

/-- The texts of the rows of a summary. -/
def memberTexts (members : List (String × Value)) : List String :=
  members.flatMap fun
    | (_, .null) => []
    | (name, .text s) => [name, s]
    | (name, v) => [name, jsonText v]

section Members

variable {name : String} {v : Value} (hnull : v ≠ .null) (htext : ∀ s, v ≠ .text s)
include hnull htext

theorem summaryRows_cons (hv : Json.Decoded v) (rest : List (String × Value)) :
    summaryRows ((name, v) :: rest) = (summaryRows rest).map ([name, jsonText v] :: ·) := by
  rw [summaryRows, write_spaced hv]
  · exact hnull
  · exact htext

theorem memberTexts_cons (rest : List (String × Value)) :
    memberTexts ((name, v) :: rest) = [name, jsonText v] ++ memberTexts rest := by
  cases v with
  | null => exact absurd rfl hnull
  | text s => exact absurd rfl (htext s)
  | _ => rfl

end Members

theorem summaryRows_eq {members : List (String × Value)} (h : ∀ e ∈ members, Json.Decoded e.2) :
    ∃ rows, summaryRows members = .ok rows ∧ rows.flatten = memberTexts members := by
  induction members with
  | nil => exact ⟨[], rfl, rfl⟩
  | cons e rest ih =>
    obtain ⟨name, v⟩ := e
    obtain ⟨hv, hrest⟩ := List.forall_mem_cons.mp h
    obtain ⟨rows, hrows, hflatten⟩ := ih hrest
    by_cases hnull : v = .null
    · subst hnull
      exact ⟨rows, by rw [summaryRows, hrows], hflatten⟩
    by_cases htext : ∃ s, v = .text s
    · obtain ⟨s, rfl⟩ := htext
      refine ⟨[name, s] :: rows, ?_, ?_⟩
      · rw [summaryRows, hrows]
        rfl
      · rw [List.flatten_cons, hflatten]
        rfl
    · have htext : ∀ s, v ≠ .text s := fun s hs => htext ⟨s, hs⟩
      refine ⟨[name, jsonText v] :: rows, ?_, ?_⟩
      · rw [summaryRows_cons hnull htext hv, hrows]
        rfl
      · rw [List.flatten_cons, hflatten, memberTexts_cons hnull htext]

/-- The texts that `evaluate` prints of an outcome. -/
def summaryTexts (r : EvaluationRequest) (o : Outcome) : List String :=
  ("Flag " ++ r.flag) :: memberTexts (summary r o)

theorem decoded_summary (r : EvaluationRequest) {o : Outcome} (h : o.Decoded) :
    ∀ e ∈ summary r o, Json.Decoded e.2 := by
  unfold summary
  simp only [List.forall_mem_cons]
  exact ⟨.text _, .text _, h.value, optional_decoded _, .text _, .text _, optional_decoded _,
    h.metadata, List.forall_mem_nil _⟩

/-- How `evaluate` ends on an outcome, if it can print it. -/
def outcomeEnding (o : Outcome) : Ending := if o.isFailed then .negative else .finished

section Summary

variable [Handlers] {r : EvaluationRequest} {o : Outcome}

theorem ending_showOutcome_json (h : o.Decoded) (hjson : r.json = true) :
    (showOutcome r o).ending = outcomeEnding o := by
  rw [showOutcome, hjson]
  exact Transcript.ending_json (object_decoded (decoded_summary r h)) _

theorem prints_showOutcome (h : o.Decoded) (hjson : r.json = false) :
    Prints (summaryTexts r o) (outcomeEnding o) (showOutcome r o).ending := by
  obtain ⟨rows, hrows, hflatten⟩ := summaryRows_eq (decoded_summary r h)
  rw [showOutcome, hjson]
  rw [if_neg Bool.false_ne_true, hrows]
  have hprints := Transcript.prints_table ⟨"Flag " ++ r.flag, ["Field", "Value"], rows⟩
    (outcomeEnding o)
  rw [hflatten] at hprints
  exact hprints

end Summary

end Command

end Rollout
