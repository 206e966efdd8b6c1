/-
Where every attribute goes.

An attribute fills a field of the shape, or it is for the bag, or it is loose: its name is no text or
stands for nothing, or for a key that the shape does not have, or for a field that holds a map
although the value is none.  Sorting puts into every field what the last attribute that fills it
says, and into the bag the loose attributes and what the last attribute for the bag stands for.

* `Loose`, `Fills` — the kinds of attributes, read off names and values;
* `fieldFor?_eq_none_iff`, `fieldFor?_eq_some_iff` — sorting knows them;
* `InBag` — what belongs into the bag;
* `normalize_routes` — every field and the bag hold what belongs there, and nothing else.
-/
import Rollout.Proofs.Normalization
import Rollout.Proofs.Sequence
import Rollout.Proofs.Value.SameKey

namespace Rollout

/-! ### Kinds of attributes -/

/-- A name stands for a key. -/
def AliasTable.Resolves (table : AliasTable) (name : Value) (key : CanonicalKey) : Prop :=
  ∃ spelling, name = .text spelling ∧ table.lookup spelling = some key

/-- An attribute that neither fills a field of the shape nor is for the bag. -/
inductive Loose (table : AliasTable) (shape : Shape) : Value × Value → Prop
  | unnamed (name value : Value) (h : ∀ spelling, name ≠ .text spelling) :
      Loose table shape (name, value)
  | unknown (spelling : String) (value : Value) (h : table.lookup spelling = none) :
      Loose table shape (.text spelling, value)
  | foreign (spelling : String) (value : Value) (key : CanonicalKey)
      (h : table.lookup spelling = some key) (foreign : shape.accepts key = false) :
      Loose table shape (.text spelling, value)
  | misplaced (spelling : String) (value : Value) (key : CanonicalKey)
      (h : table.lookup spelling = some key) (holds : key.holdsMap = true)
      (field : key ≠ shape.overflowKey) (given : value ≠ .null)
      (plain : ∀ entries, value ≠ .map entries) : Loose table shape (.text spelling, value)

/-- An attribute whose name stands for a key, and that is not loose. -/
def Fills (table : AliasTable) (shape : Shape) (key : CanonicalKey) (e : Value × Value) : Prop :=
  ¬ Loose table shape e ∧ table.Resolves e.1 key

section Kinds

variable {table : AliasTable} {shape : Shape} {name value : Value} {key : CanonicalKey}

theorem misplaced_iff : misplaced key value = true ↔
    key.holdsMap = true ∧ value ≠ .null ∧ ∀ entries, value ≠ .map entries := by
  rw [misplaced]
  cases value <;> simp [Value.isNull, Value.isMap]

theorem accepts_overflowKey (shape : Shape) : shape.accepts shape.overflowKey = true := by
  cases shape <;> rfl

theorem resolve?_eq_some_iff : table.resolve? shape name = some key ↔
    table.Resolves name key ∧ shape.accepts key = true := by
  rw [AliasTable.Resolves]
  cases name with
  | text spelling => simp [AliasTable.resolve?, Option.filter_eq_some_iff]
  | _ => simp [AliasTable.resolve?]

theorem resolves_of_fieldFor? (h : fieldFor? table shape name value = some key) :
    table.Resolves name key ∧ shape.accepts key = true :=
  resolve?_eq_some_iff.mp (resolve?_of_fieldFor? h)

/-- The loose attributes are those for which there is no field. -/
theorem fieldFor?_eq_none_iff :
    fieldFor? table shape name value = none ↔ Loose table shape (name, value) := by
  rw [fieldFor?_eq]
  constructor
  · intro h
    cases name with
    | text spelling =>
      cases hlookup : table.lookup spelling with
      | none => exact .unknown spelling value hlookup
      | some key =>
        cases haccepts : shape.accepts key with
        | false => exact .foreign spelling value key hlookup haccepts
        | true =>
          have hresolve : table.resolve? shape (.text spelling) = some key :=
            resolve?_eq_some_iff.mpr ⟨⟨spelling, rfl, hlookup⟩, haccepts⟩
          rw [hresolve, Option.filter_eq_none_iff] at h
          have h := h key rfl
          simp only [Bool.or_eq_true, decide_eq_true_eq, Bool.not_eq_true', not_or,
            Bool.not_eq_false] at h
          obtain ⟨hholds, hgiven, hplain⟩ := misplaced_iff.mp h.2
          exact .misplaced spelling value key hlookup hholds h.1 hgiven hplain
    | _ => exact .unnamed _ value fun _ => Value.noConfusion
  · intro h
    cases h with
    | unnamed name value h =>
      cases name with
      | text spelling => exact absurd rfl (h spelling)
      | _ => rfl
    | unknown spelling value h => rw [AliasTable.resolve?, h]; rfl
    | foreign spelling value key h foreign =>
      rw [AliasTable.resolve?, h, Option.filter_some, if_neg (by simp [foreign])]
      rfl
    | misplaced spelling value key h holds field given plain =>
      rw [AliasTable.resolve?, h, Option.filter_eq_none_iff]
      intro key' hkey'
      obtain ⟨hkey, -⟩ := Option.filter_eq_some_iff.mp hkey'
      cases hkey
      simp [field, misplaced_iff.mpr ⟨holds, given, plain⟩]

/-- The field for an attribute is the one that it fills. -/
theorem fieldFor?_eq_some_iff {e : Value × Value} :
    fieldFor? table shape e.1 e.2 = some key ↔ Fills table shape key e := by
  constructor
  · intro h
    refine ⟨fun hloose => ?_, (resolves_of_fieldFor? h).1⟩
    rw [fieldFor?_eq_none_iff.mpr hloose] at h
    cases h
  · rintro ⟨hkept, spelling, hname, hlookup⟩
    cases hfield : fieldFor? table shape e.1 e.2 with
    | none => exact absurd (fieldFor?_eq_none_iff.mp hfield) hkept
    | some key' =>
      -- A spelling stands for one key.
      obtain ⟨spelling', hname', hlookup'⟩ := (resolves_of_fieldFor? hfield).1
      rw [hname] at hname'
      cases hname'
      rw [← hlookup', hlookup]

/-- A name for the bag is for the bag, whatever the value. -/
theorem fills_overflowKey_iff {e : Value × Value} :
    Fills table shape shape.overflowKey e ↔ table.Resolves e.1 shape.overflowKey := by
  refine ⟨And.right, fun h => ⟨fun hloose => ?_, h⟩⟩
  obtain ⟨spelling, hname, hlookup⟩ := h
  cases hloose with
  | unnamed name value hunnamed => exact hunnamed spelling hname
  | unknown spelling' value hunknown =>
    cases hname
    rw [hlookup] at hunknown
    cases hunknown
  | foreign spelling' value key hkey foreign =>
    cases hname
    rw [hlookup] at hkey
    cases hkey
    rw [accepts_overflowKey] at foreign
    cases foreign
  | misplaced spelling' value key hkey holds field given plain =>
    cases hname
    rw [hlookup] at hkey
    cases hkey
    exact field rfl

end Kinds

/-! ### The fields -/

variable {table : AliasTable} {shape : Shape} {attributes : Attributes} {key : CanonicalKey}
  {value : Value}

/-- A field holds what the last attribute that fills it says. -/
theorem find?_fieldEntries :
    Assoc.find? key (Assoc.ofEntries (fieldEntries table shape attributes)) = some value ↔
      key ≠ shape.overflowKey ∧ Lasts (fun e => Fills table shape key e ∧ e.2 = value)
        (fun e => ¬ Fills table shape key e) attributes := by
  induction attributes using List.reverseRecOn with
  | nil => simp [fieldEntries, Assoc.ofEntries, Assoc.update, not_lasts_nil]
  | append_singleton attributes e ih =>
    have happend : fieldEntries table shape (attributes ++ [e])
        = fieldEntries table shape attributes ++ fieldEntries table shape [e] :=
      List.filterMap_append
    rw [happend, lasts_concat, ← fieldFor?_eq_some_iff]
    cases hkey : fieldFor? table shape e.1 e.2 with
    | none =>
      have hentry : fieldEntries table shape [e] = [] := by simp [fieldEntries, hkey]
      rw [hentry, List.append_nil, ih]
      simp
    | some other =>
      by_cases hbag : other = shape.overflowKey
      -- An attribute for the bag writes no field, and fills none but that of the bag.
      · have hentry : fieldEntries table shape [e] = [] := by simp [fieldEntries, hkey, hbag]
        rw [hentry, List.append_nil, ih, hbag, Option.some.injEq]
        refine and_congr_right fun hfield => ?_
        simp [Ne.symm hfield]
      · have hentry : fieldEntries table shape [e] = [(other, e.2)] := by
          simp [fieldEntries, hkey, hbag, Option.filter_some]
        rw [hentry, Assoc.ofEntries_concat, Assoc.find?_insert]
        by_cases hsame : other = key
        · subst hsame
          simp [hbag]
        · simp [hsame, ih]

/-! ### The bag -/

/-- The last attribute for the bag. -/
def LastForBag (table : AliasTable) (shape : Shape) (attributes : Attributes)
    (e : Value × Value) : Prop :=
  Lasts (fun x => x = e ∧ table.Resolves x.1 shape.overflowKey)
    (fun x => ¬ table.Resolves x.1 shape.overflowKey) attributes

/-- What belongs into the bag.  Loose attributes win over the entries of a map that was passed for
the bag. -/
inductive InBag (table : AliasTable) (shape : Shape) (attributes : Attributes) :
    Value → Value → Prop
  | loose (name value : Value) (mem : (name, value) ∈ attributes)
      (loose : Loose table shape (name, value)) : InBag table shape attributes name value
  | merged (name : Value) (entries : Attributes) (key value : Value)
      (last : LastForBag table shape attributes (name, .map entries))
      (mem : (key, value) ∈ entries)
      (free : ∀ e ∈ attributes, Loose table shape e → (e.1 == key) = false) :
      InBag table shape attributes key value
  | plain (name value : Value) (last : LastForBag table shape attributes (name, value))
      (given : value ≠ .null) (plain : ∀ entries, value ≠ .map entries) :
      InBag table shape attributes name value

theorem mem_looseEntries {e : Value × Value} :
    e ∈ looseEntries table shape attributes ↔ e ∈ attributes ∧ Loose table shape e := by
  rw [looseEntries, List.mem_filter, Option.isNone_iff_eq_none, fieldFor?_eq_none_iff]

theorem getLast?_bagEntries {e : Value × Value} :
    (bagEntries table shape attributes).getLast? = some e ↔
      LastForBag table shape attributes e := by
  rw [bagEntries, getLast?_filter_iff, LastForBag]
  simp only [decide_eq_true_eq, decide_eq_false_iff_not, fieldFor?_eq_some_iff,
    fills_overflowKey_iff]

theorem LastForBag.mem {e : Value × Value} (h : LastForBag table shape attributes e) :
    e ∈ attributes := by
  obtain ⟨earlier, x, later, rfl, ⟨rfl, -⟩, -⟩ := h
  simp

theorem LastForBag.not_loose {e : Value × Value} (h : LastForBag table shape attributes e) :
    ¬ Loose table shape e := by
  obtain ⟨earlier, x, later, -, ⟨rfl, hresolves⟩, -⟩ := h
  exact (fills_overflowKey_iff.mpr hresolves).1

/-- The bag begins with what the last attribute for it stands for. -/
theorem mem_bagOf {k v : Value} : (k, v) ∈ bagOf table shape attributes ↔
    ∃ e, LastForBag table shape attributes e ∧ (k, v) ∈ bagContents e := by
  simp only [← getLast?_bagEntries]
  rw [bagOf, List.getLast?_map]
  cases (bagEntries table shape attributes).getLast? <;> simp

theorem mem_bagContents {e : Value × Value} {k v : Value} : (k, v) ∈ bagContents e ↔
    (∃ entries, e.2 = .map entries ∧ (k, v) ∈ entries) ∨
      e = (k, v) ∧ v ≠ .null ∧ ∀ entries, v ≠ .map entries := by
  obtain ⟨name, value⟩ := e
  constructor
  · intro h
    cases value with
    | map entries => exact .inl ⟨entries, rfl, h⟩
    | null => cases h
    | _ =>
      cases List.mem_singleton.mp h
      exact .inr ⟨rfl, by simp, by simp⟩
  · rintro (⟨entries, hvalue, hmem⟩ | ⟨heq, hgiven, hplain⟩)
    · cases hvalue
      exact hmem
    · cases heq
      cases v with
      | map entries => exact absurd rfl (hplain entries)
      | null => exact absurd rfl hgiven
      | _ => exact List.mem_singleton_self _

theorem distinct_bagOf
    (hmaps : ∀ name entries, (name, .map entries) ∈ attributes → Assoc.Distinct entries) :
    Assoc.Distinct (bagOf table shape attributes) := by
  rw [bagOf, List.getLast?_map]
  cases hlast : (bagEntries table shape attributes).getLast? with
  | none => exact List.Pairwise.nil
  | some e =>
    have hmem := (getLast?_bagEntries.mp hlast).mem
    obtain ⟨name, value⟩ := e
    cases value with
    | map entries => exact hmaps name entries hmem
    | null => exact List.Pairwise.nil
    | _ => exact List.pairwise_singleton _ _

/-- Nothing loose has the name of the last attribute for the bag. -/
theorem LastForBag.free (hdistinct : Assoc.Distinct attributes) {x : Value × Value}
    (h : LastForBag table shape attributes x) :
    ∀ e ∈ attributes, Loose table shape e → (e.1 == x.1) = false := by
  intro e he hloose
  rw [← Bool.not_eq_true]
  intro hsame
  rw [hdistinct.eq_of_beq he h.mem hsame] at hloose
  exact h.not_loose hloose

/-! ### All attributes -/

/-- What belongs into the bag is there, under a key that is the same. -/
theorem exists_mem_of_inBag (hdistinct : Assoc.Distinct attributes)
    (hbag : Assoc.Distinct (bagOf table shape attributes)) {name : Value}
    (h : InBag table shape attributes name value) :
    ∃ k, (k, value) ∈ Assoc.update (bagOf table shape attributes)
      (looseEntries table shape attributes) ∧ (k = name ∨ (k == name) = true) := by
  have hloose : Assoc.Distinct (looseEntries table shape attributes) :=
    hdistinct.sublist List.filter_sublist
  have hfree : ∀ k, (∀ e ∈ attributes, Loose table shape e → (e.1 == k) = false) →
      ∀ e ∈ looseEntries table shape attributes, (e.1 == k) = false := fun k h e he =>
    h e (mem_looseEntries.mp he).1 (mem_looseEntries.mp he).2
  cases h with
  | loose name value mem loose =>
    exact hbag.mem_update_of_mem_others hloose (mem_looseEntries.mpr ⟨mem, loose⟩)
  | merged bag entries name value last mem free =>
    have hmem : (name, value) ∈ bagOf table shape attributes :=
      mem_bagOf.mpr ⟨_, last, mem_bagContents.mpr (.inl ⟨entries, rfl, mem⟩)⟩
    exact ⟨name, hbag.mem_update_of_mem hloose hmem (hfree name free), .inl rfl⟩
  | plain name value last given plain =>
    have hmem : (name, value) ∈ bagOf table shape attributes :=
      mem_bagOf.mpr ⟨_, last, mem_bagContents.mpr (.inr ⟨rfl, given, plain⟩)⟩
    exact ⟨name, hbag.mem_update_of_mem hloose hmem (hfree name (last.free hdistinct)), .inl rfl⟩

/-- Nothing else is in the bag. -/
theorem inBag_of_mem (hdistinct : Assoc.Distinct attributes)
    (hbag : Assoc.Distinct (bagOf table shape attributes)) {k : Value}
    (h : (k, value) ∈ Assoc.update (bagOf table shape attributes)
      (looseEntries table shape attributes)) :
    ∃ name, InBag table shape attributes name value ∧ (k = name ∨ (k == name) = true) := by
  have hloose : Assoc.Distinct (looseEntries table shape attributes) :=
    hdistinct.sublist List.filter_sublist
  rcases hbag.mem_of_mem_update hloose h with ⟨name, hmem, hsame⟩ | ⟨hmem, hfree⟩
  · obtain ⟨hmem, hname⟩ := mem_looseEntries.mp hmem
    exact ⟨name, .loose name value hmem hname, hsame⟩
  · obtain ⟨e, hlast, hcontents⟩ := mem_bagOf.mp hmem
    refine ⟨k, ?_, .inl rfl⟩
    rcases mem_bagContents.mp hcontents with ⟨entries, hvalue, hentry⟩ | ⟨rfl, hgiven, hplain⟩
    · obtain ⟨bag, contents⟩ := e
      cases hvalue
      exact .merged bag entries k value hlast hentry fun e he hname =>
        hfree e (mem_looseEntries.mpr ⟨he, hname⟩)
    · exact .plain k value hlast hgiven hplain

/-- **Every attribute goes where it belongs.**  A field has a value exactly if some attribute fills
it, and it is that of the last one.  The bag holds every loose attribute, what was passed for it as
far as no loose attribute has the same key, and nothing else. -/
theorem normalize_routes (table : AliasTable) (shape : Shape) (attributes : Attributes)
    (hdistinct : Assoc.Distinct attributes)
    (hmaps : ∀ name entries, (name, .map entries) ∈ attributes → Assoc.Distinct entries) :
    let r := normalize table shape attributes
    r.shape = shape ∧ Assoc.Distinct r.canonical ∧ Assoc.Distinct r.overflow ∧
    (∀ key, Assoc.contains key r.canonical = true ↔ shape.accepts key = true ∧
      key ≠ shape.overflowKey ∧ ∃ e ∈ attributes, Fills table shape key e) ∧
    (∀ key value, Assoc.find? key r.canonical = some value ↔ key ≠ shape.overflowKey ∧
      Lasts (fun e => Fills table shape key e ∧ e.2 = value) (fun e => ¬ Fills table shape key e)
        attributes) ∧
    (∀ name value, InBag table shape attributes name value →
      ∃ k, (k, value) ∈ r.overflow ∧ (k = name ∨ (k == name) = true)) ∧
    ∀ k value, (k, value) ∈ r.overflow →
      ∃ name, InBag table shape attributes name value ∧ (k = name ∨ (k == name) = true) := by
  intro r
  have hbag : Assoc.Distinct (bagOf table shape attributes) := distinct_bagOf hmaps
  have hloose : Assoc.Distinct (looseEntries table shape attributes) :=
    hdistinct.sublist List.filter_sublist
  have hr : r = ⟨shape, Assoc.ofEntries (fieldEntries table shape attributes),
      Assoc.update (bagOf table shape attributes) (looseEntries table shape attributes)⟩ := by
    rw [← hbag.ofEntries_eq, ← hloose.ofEntries_eq]
    exact normalize_eq table shape attributes
  rw [hr]
  refine ⟨rfl, Assoc.distinct_ofEntries _, hbag.update _, fun key => ?_,
    fun key value => find?_fieldEntries, fun name value => exists_mem_of_inBag hdistinct hbag,
    fun k value => inBag_of_mem hdistinct hbag⟩
  rw [Assoc.contains, Option.isSome_iff_exists]
  simp only [find?_fieldEntries]
  constructor
  · rintro ⟨value, hfield, earlier, e, later, rfl, ⟨hfills, -⟩, -⟩
    exact ⟨(resolves_of_fieldFor? (fieldFor?_eq_some_iff.mpr hfills)).2, hfield, e, by simp, hfills⟩
  · rintro ⟨-, hfield, hsome⟩
    obtain ⟨e, earlier, x, later, hsplit, ⟨-, hfills⟩, hlater⟩ := exists_lasts hsome
    exact ⟨x.2, hfield, earlier, x, later, hsplit, ⟨hfills, rfl⟩, hlater⟩

/-- A context with attributes of every kind.  The loose number of seats wins over the one in the
map, and the last identifier over the one before. -/
theorem normalize_routes_mixed :
    let table : AliasTable := [("uid", .userId), ("user_id", .userId), ("plan", .plan),
      ("groups", .groups), ("user_properties", .userProperties)]
    let attributes : Attributes := [(.text "uid", .text "u1"), (.int 7, .bool true),
      (.text "seats", .int 3), (.text "plan", .text "pro"), (.text "groups", .text "g"),
      (.text "user_properties", .map [(.text "seats", .int 1), (.text "team", .text "x")]),
      (.text "user_id", .text "u2")]
    let r := normalize table .subject attributes
    r.canonical = [(.userId, .text "u2")] ∧
      r.overflow = [(.text "seats", .int 3), (.text "team", .text "x"), (.int 7, .bool true),
        (.text "plan", .text "pro"), (.text "groups", .text "g")] ∧
      (∃ e ∈ attributes, Fills table .subject .userId e) ∧
      ∃ name, InBag table .subject attributes name (.int 3) ∧
        (.text "seats" = name ∨ (.text "seats" == name) = true) := by
  intro table attributes r
  have hdistinct : Assoc.Distinct attributes := by decide
  have hmaps : ∀ name entries, (name, .map entries) ∈ attributes → Assoc.Distinct entries := by
    intro name entries hmem
    simp only [attributes, List.mem_cons, Prod.mk.injEq, reduceCtorEq, and_false, Value.map.injEq,
      List.not_mem_nil, or_false, false_or] at hmem
    rw [hmem.2]
    decide
  have hcanonical : r.canonical = [(.userId, .text "u2")] := rfl
  have hoverflow : r.overflow = [(.text "seats", .int 3), (.text "team", .text "x"),
      (.int 7, .bool true), (.text "plan", .text "pro"), (.text "groups", .text "g")] := rfl
  obtain ⟨-, -, -, hfield, -, -, hbag⟩ :=
    normalize_routes table .subject attributes hdistinct hmaps
  refine ⟨hcanonical, hoverflow, ((hfield .userId).mp ?_).2.2, hbag (.text "seats") (.int 3) ?_⟩
  · rfl
  · change _ ∈ r.overflow
    rw [hoverflow]
    exact List.mem_cons_self

end Rollout
