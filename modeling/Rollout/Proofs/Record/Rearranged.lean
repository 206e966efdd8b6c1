/-
Subjects of contexts that say the same in another way.

A context can be rearranged: its entries put in another order, its names replaced by other spellings.
A subject can be built from one of two such contexts exactly when it can from the other, and all of
its fields are the same but for the order of the custom properties.  One thing can go wrong: names
that are different as keys of a context, such as a text and its bytes, can become the same name of a
custom property, and then the last of them wins.

* `NamesApart` — attributes whose names do not become the same text;
* `Rearranged.properties_perm` — custom properties are the same but for their order;
* `Rearranged.buildSubject_agrees` — what building a subject from either context gives;
* `Rearranged.buildSubject_differs` — a text and its bytes as names, in two orders.
-/
import Rollout.Proofs.Fingerprint.Order
import Rollout.Proofs.Normalization.Rearranged
import Rollout.Proofs.Record.Building
import Rollout.Proofs.Record.Projection
import Rollout.Proofs.Value.Hereditary

namespace Rollout

variable {table : AliasTable} {shape : Shape}

/-! ### Names that become texts -/

/-- Attributes of which no two have names that become the same text. -/
def NamesApart (entries : Attributes) : Prop :=
  entries.Pairwise fun x y => ∀ name, convertText x.1 = some name → convertText y.1 ≠ some name

/-- Distinct texts stay apart. -/
theorem namesApart_of_texts {entries : Attributes} (hkeys : ∀ e ∈ entries, ∃ s, e.1 = .text s)
    (h : Assoc.Distinct entries) : NamesApart entries := by
  refine (List.pairwise_map.mp h).imp_of_mem fun {x y} hx hy hxy name hname hname' => ?_
  obtain ⟨s, hs⟩ := hkeys x hx
  obtain ⟨t, ht⟩ := hkeys y hy
  rw [hs, ht, Value.text_beq_text, beq_eq_false_iff_ne] at hxy
  rw [hs, convertText, Option.some.injEq] at hname
  rw [ht, convertText, Option.some.injEq, ← hname, Value.text.injEq] at hname'
  exact hxy hname'.symm

theorem NamesApart.distinct_textEntries {entries : Attributes} (h : NamesApart entries) :
    Assoc.Distinct (textEntries entries) := by
  rw [Assoc.Distinct, List.pairwise_map, textEntries, List.pairwise_filterMap]
  refine h.imp fun hxy a ha b hb => ?_
  obtain ⟨name, hname, rfl⟩ := Option.map_eq_some_iff.mp ha
  obtain ⟨name', hname', rfl⟩ := Option.map_eq_some_iff.mp hb
  obtain ⟨s, rfl⟩ := exists_text_of_convertText hname
  obtain ⟨t, rfl⟩ := exists_text_of_convertText hname'
  rw [Value.text_beq_text, beq_eq_false_iff_ne]
  rintro rfl
  exact hxy _ hname hname'

/-- Names written over a bag in another order leave the same properties, if they stay apart as
texts. -/
theorem textEntries_update_perm {bag loose loose' : Attributes} (hbag : Assoc.Distinct bag)
    (hloose : Assoc.Distinct loose) (hperm : loose.Perm loose') (hapart : NamesApart loose) :
    (Assoc.ofEntries (textEntries (Assoc.update bag loose))).Perm
      (Assoc.ofEntries (textEntries (Assoc.update bag loose'))) := by
  have hsplit : ∀ first new : Attributes, Assoc.ofEntries (textEntries (first ++ new))
      = Assoc.update (Assoc.ofEntries (textEntries first)) (textEntries new) := by
    intro first new
    rw [textEntries, List.filterMap_append]
    exact List.foldl_append
  rw [hbag.update_eq hloose, hbag.update_eq (hloose.perm hperm), hsplit, hsplit]
  simp only [Assoc.find?_perm hloose hperm]
  -- The entries of the bag stay where they are, so only the new ones change places.
  have hnew : NamesApart (loose.filter fun e => !Assoc.contains e.1 bag) :=
    hapart.sublist List.filter_sublist
  exact (Assoc.distinct_ofEntries _).update_perm hnew.distinct_textEntries
    ((hperm.filter _).filterMap _)

/-! ### What sorting leaves -/

theorem fieldEntries_accepted (table : AliasTable) (shape : Shape) (context : Attributes) :
    ∀ e ∈ fieldEntries table shape context, e.1 ∈ shape.keys := fun _ he =>
  (shape.mem_keys_iff _).mpr (of_mem_fieldEntries he).1

theorem Unambiguous.sorted_normalize {context : Attributes} (h : Unambiguous table shape context) :
    (normalize table shape context).Sorted shape := by
  rw [normalize_eq, h.distinct_fieldEntries.ofEntries_eq]
  exact ⟨fieldEntries_accepted table shape context, h.distinct_fieldEntries⟩

namespace Value.Hereditary

variable {P : Value → Prop} (hP : Hereditary P)
include hP

/-- What holds of the values of a context holds of all that sorting leaves of it. -/
theorem normalized {context : Attributes} (h : ∀ e ∈ context, P e.2) :
    (∀ e ∈ (normalize table shape context).canonical, P e.2) ∧
      ∀ e ∈ (normalize table shape context).overflow, P e.2 := by
  rw [normalize_eq]
  constructor
  · refine Assoc.forall_ofEntries fun e he => ?_
    obtain ⟨x, hx, hxe⟩ := List.mem_filterMap.mp he
    obtain ⟨key, -, rfl⟩ := Option.map_eq_some_iff.mp hxe
    exact h x hx
  · refine Assoc.forall_update (Assoc.forall_ofEntries ?_) (Assoc.forall_ofEntries ?_)
    · intro e he
      rw [bagOf, List.getLast?_map] at he
      cases hlast : (bagEntries table shape context).getLast? with
      | none =>
        rw [hlast] at he
        cases he
      | some x =>
        rw [hlast, Option.map_some, Option.getD_some] at he
        have hx := h x (List.mem_filter.mp (List.mem_of_getLast? hlast)).1
        obtain ⟨name, value⟩ := x
        cases value with
        | map entries => exact hP.values hx e he
        | null => cases he
        | _ =>
          rw [List.mem_singleton.mp he]
          exact hx
    · intro e he
      exact h e (List.mem_filter.mp he).1

/-- What holds of all that was sorted holds of the fields of the subject that is made of it. -/
theorem field {n : Normalization} (hcanonical : ∀ e ∈ n.canonical, P e.2)
    (hoverflow : ∀ e ∈ n.overflow, P e.2) {a : Subject} (h : n.toRecord .subject = .ok a)
    (key : CanonicalKey) : P (a.field key) := by
  obtain ⟨-, hread, hnull⟩ := Record.ofMap_eq_ok_iff.mp (Normalization.toRecord_eq_ok_iff.mp h)
  by_cases hkey : key ∈ Shape.subject.keys
  · by_cases hother : key = Shape.subject.overflowKey
    · rw [hother, Normalization.toRecord_properties h]
      refine hP.ofEntries exists_text_of_textEntries fun e he => ?_
      obtain ⟨x, hx, hxe⟩ := List.mem_filterMap.mp he
      obtain ⟨name, -, rfl⟩ := Option.map_eq_some_iff.mp hxe
      exact hoverflow x hx
    · have hfield := hread key hkey
      rw [Normalization.readField_fieldMap hkey hother] at hfield
      refine hP.readField (fun e he => ?_) hkey hfield
      obtain ⟨x, hx, rfl⟩ := List.mem_map.mp he
      obtain ⟨y, hy, rfl⟩ := List.mem_map.mp hx
      exact hcanonical y hy
  · rw [hnull key hkey]
    exact hP.null

end Value.Hereditary

/-! ### Building a subject -/

theorem Normalization.hasIdentity_perm {n m : Normalization} (hn : Assoc.Distinct n.canonical)
    (h : n.canonical.Perm m.canonical) : n.hasIdentity = m.hasIdentity := by
  simp only [hasIdentity, Assoc.find?_perm hn h]

variable {σ : Type}

/-- Without a hook a subject is built when the sorted context identifies someone and fits. -/
theorem buildSubject_none_eq_ok_iff {context : Attributes} {a : Subject} {w : σ} :
    buildSubject table none context w = (.ok a, w) ↔
      (normalize table .subject context).hasIdentity = true ∧
        (normalize table .subject context).toRecord .subject = .ok a := by
  unfold buildSubject normalizeSubject
  by_cases hidentity : (normalize table .subject context).hasIdentity = true
  · simp only [hidentity, if_true, true_and]
    cases (normalize table .subject context).toRecord .subject <;> simp
  · simp [hidentity]

/-- Without a hook a subject is built, or the context is reported as unusable. -/
theorem buildSubject_none_cases (table : AliasTable) (context : Attributes) (w : σ) :
    (∃ a, buildSubject table none context w = (.ok a, w)) ∨
      ∃ message cause, buildSubject table none context w
        = (.error (.invalidContext message (normalize table .subject context) cause), w) := by
  have houtside : (buildSubject table none context w).2 = w := by
    unfold buildSubject
    cases normalizeSubject table context with
    | error failure => rfl
    | ok n =>
      dsimp only
      cases n.toRecord .subject <;> rfl
  cases hresult : (buildSubject table none context w).1 with
  | ok a => exact .inl ⟨a, Prod.ext hresult houtside⟩
  | error f =>
    rcases buildSubject_error hresult with ⟨message, cause, rfl⟩ | ⟨_, _, _, _, hhook, -⟩
    · exact .inr ⟨message, cause, Prod.ext hresult houtside⟩
    · cases hhook

theorem exists_buildSubject_of_isOk {context : Attributes} {w : σ}
    (h : (buildSubject table none context w).1.isOk = true) :
    ∃ a, buildSubject table none context w = (.ok a, w) := by
  rcases buildSubject_none_cases table context w with hok | ⟨message, cause, herror⟩
  · exact hok
  · rw [herror] at h
    cases h

/-- The custom properties of a subject are those that were sorted out, with texts as names. -/
theorem buildSubject_properties {context : Attributes} {a : Subject} {w : σ}
    (h : buildSubject table none context w = (.ok a, w)) : a.field .userProperties
      = .ofEntries (textEntries (normalize table .subject context).overflow) :=
  Normalization.toRecord_properties (buildSubject_none_eq_ok_iff.mp h).2

/-- What holds of the values of a context holds of the fields of its subject. -/
theorem Value.Hereditary.buildSubject {P : Value → Prop} (hP : Value.Hereditary P)
    {context : Attributes} (h : ∀ e ∈ context, P e.2) {a : Subject} {w : σ}
    (ha : Rollout.buildSubject table none context w = (.ok a, w)) (key : CanonicalKey) :
    P (a.field key) := by
  obtain ⟨hcanonical, hoverflow⟩ := hP.normalized h
  exact hP.field hcanonical hoverflow (buildSubject_none_eq_ok_iff.mp ha).2 key

namespace Rearranged

variable {context other : Attributes}

/-- The custom properties of the subjects of two such contexts differ in their order only, if the
names of the loose attributes stay apart as texts. -/
theorem properties_perm (h : Rearranged table shape context other)
    (hdistinct : Assoc.Distinct context) (hcontext : Unambiguous table shape context)
    (hapart : NamesApart (looseEntries table shape context)) :
    (Assoc.ofEntries (textEntries (normalize table shape context).overflow)).Perm
      (Assoc.ofEntries (textEntries (normalize table shape other).overflow)) := by
  obtain ⟨bag, hbag, heq, heq'⟩ := h.normalize_eq hdistinct hcontext
  rw [heq, heq']
  exact textEntries_update_perm hbag (hdistinct.sublist List.filter_sublist) h.looseEntries_perm
    hapart

/-- **Subjects do not see how a context is written.**  Two contexts that say the same, in whatever
order and spelling, are sorted into the same fields and properties.  A subject is built from both, or
both are reported as unusable.  The subjects have the same fields; if no two loose names become the
same text, so are the custom properties up to their order, and with values that can be reduced the
subjects share their cache key.  With plain values they have one if the fields have few enough
levels, and are both too deep otherwise. -/
theorem buildSubject_agrees (h : Rearranged table .subject context other)
    (hdistinct : Assoc.Distinct context) (hcontext : Unambiguous table .subject context) (w : σ) :
    (normalize table .subject context).canonical.Perm (normalize table .subject other).canonical ∧
    (normalize table .subject context).overflow.Perm (normalize table .subject other).overflow ∧
    ((∃ message message' cause cause', buildSubject table none context w
          = (.error (.invalidContext message (normalize table .subject context) cause), w) ∧
        buildSubject table none other w
          = (.error (.invalidContext message' (normalize table .subject other) cause'), w)) ∨
      ∃ a b : Subject, buildSubject table none context w = (.ok a, w) ∧
        buildSubject table none other w = (.ok b, w) ∧
        (∀ key, key ≠ .userProperties → a.field key = b.field key) ∧
        (NamesApart (looseEntries table .subject context) → a.SameUpToOrder b ∧
          ((∀ e ∈ context, e.2.Reducible) → cacheKey a = cacheKey b) ∧
          ((∀ e ∈ context, e.2.Plain) →
            (a.Shallow → ∃ key, cacheKey a = .ok key ∧ cacheKey b = .ok key) ∧
            (¬ a.Shallow → cacheKey a = .error .tooDeep ∧ cacheKey b = .error .tooDeep)))) := by
  obtain ⟨hcanonical, hoverflow⟩ := h.normalize_perm hdistinct hcontext
  have hsorted := hcontext.sorted_normalize
  have hidentity := Normalization.hasIdentity_perm hsorted.distinct hcanonical
  refine ⟨hcanonical, hoverflow, ?_⟩
  rcases buildSubject_none_cases table context w with ⟨a, ha⟩ | ⟨message, cause, herror⟩
  · obtain ⟨hknown, hrecord⟩ := buildSubject_none_eq_ok_iff.mp ha
    obtain ⟨b, hrecord', hfields⟩ := Normalization.exists_toRecord_perm hsorted hcanonical hoverflow
      hrecord
    have hb : buildSubject table none other w = (.ok b, w) :=
      buildSubject_none_eq_ok_iff.mpr ⟨hidentity ▸ hknown, hrecord'⟩
    refine .inr ⟨a, b, ha, hb, hfields, fun hapart => ?_⟩
    have hsame : a.SameUpToOrder b :=
      ⟨hfields, _, _, buildSubject_properties ha, buildSubject_properties hb,
        named_ofEntries exists_text_of_textEntries, h.properties_perm hdistinct hcontext hapart⟩
    have hkeys : (∀ e ∈ context, e.2.Reducible) → cacheKey a = cacheKey b := by
      intro hvalues
      rw [cacheKey, cacheKey, cacheKeyWith, cacheKeyWith, fingerprint_eq_of_sameUpToOrder hsame
        (Value.hereditary_reducible.buildSubject hvalues ha)]
    refine ⟨hsame, hkeys, fun hvalues => ?_⟩
    have hplain : a.Plain := fun k _ => Value.hereditary_plain.buildSubject hvalues ha k
    have heq := hkeys fun e he => ⟨_, (hvalues e he).reduce⟩
    constructor
    · intro hshallow
      obtain ⟨key, hkey⟩ := exists_cacheKey hplain hshallow
      exact ⟨key, hkey, heq ▸ hkey⟩
    · intro hdeep
      exact ⟨cacheKey_of_deep hplain hdeep, heq ▸ cacheKey_of_deep hplain hdeep⟩
  · rcases buildSubject_none_cases table other w with ⟨b, hb⟩ | ⟨message', cause', herror'⟩
    -- A subject of the other context would be one of this context as well.
    · obtain ⟨hknown, hrecord⟩ := buildSubject_none_eq_ok_iff.mp hb
      obtain ⟨a, hrecord', -⟩ := Normalization.exists_toRecord_perm (hsorted.perm hcanonical)
        hcanonical.symm hoverflow.symm hrecord
      have ha : buildSubject table none context w = (.ok a, w) :=
        buildSubject_none_eq_ok_iff.mpr ⟨hidentity ▸ hknown, hrecord'⟩
      rw [herror] at ha
      cases ha
    · exact .inl ⟨message, message', cause, cause', herror, herror'⟩

/-- The properties in another order, and another name for the user. -/
theorem buildSubject_agrees_respelled :
    ∃ a b : Subject,
      buildSubject [("user_id", .userId), ("uid", .userId)] none
        [(.text "plan", .text "pro"), (.text "uid", .text "u1"), (.text "seats", .int 3)] ()
        = (.ok a, ()) ∧
      buildSubject [("user_id", .userId), ("uid", .userId)] none
        [(.text "seats", .int 3), (.text "user_id", .text "u1"), (.text "plan", .text "pro")] ()
        = (.ok b, ()) ∧
      a.SameUpToOrder b ∧ ∃ key, cacheKey a = .ok key ∧ cacheKey b = .ok key := by
  let table : AliasTable := [("user_id", .userId), ("uid", .userId)]
  let plan : Value × Value := (.text "plan", .text "pro")
  let seats : Value × Value := (.text "seats", .int 3)
  let user : Value × Value := (.text "uid", .text "u1")
  have hdistinct : Assoc.Distinct [plan, user, seats] := by decide
  have hplan : table.resolve? .subject plan.1 = none := rfl
  have hseats : table.resolve? .subject seats.1 = none := rfl
  have hcontext : Unambiguous table .subject [plan, user, seats] := by
    simp [Unambiguous, hplan, hseats]
  have hspelling : Respelled table .subject user (.text "user_id", .text "u1") :=
    .other _ _ _ .userId rfl rfl rfl
  have h : Rearranged table .subject [plan, user, seats]
      [seats, (.text "user_id", .text "u1"), plan] :=
    ⟨_, .cons (.same _) (.cons hspelling (.cons (.same _) .nil)), (List.reverse_perm _).symm⟩
  have hapart : NamesApart (looseEntries table .subject [plan, user, seats]) :=
    namesApart_of_texts (by simp [looseEntries, plan, user, seats])
      (hdistinct.sublist List.filter_sublist)
  have hplain : ∀ e ∈ [plan, user, seats], e.2.Plain := by
    simp only [List.mem_cons, List.not_mem_nil, or_false, forall_eq_or_imp, forall_eq]
    exact ⟨.text _, .text _, .int 3 (by decide)⟩
  obtain ⟨subject, hsubject⟩ : ∃ a, buildSubject table none [plan, user, seats] () = (.ok a, ()) :=
    exists_buildSubject_of_isOk (by decide +kernel)
  have hshallow : (buildSubject table none [plan, user, seats] ()).1.toOption.all
      (fun a => decide a.Shallow) = true := by decide +kernel
  obtain ⟨-, -, ⟨_, _, _, _, herror, -⟩ | ⟨a, b, ha, hb, -, hsame⟩⟩ :=
    buildSubject_agrees h hdistinct hcontext ()
  · rw [hsubject] at herror
    cases herror
  · obtain ⟨horder, -, hkey⟩ := hsame hapart
    rw [ha, Except.toOption, Option.all_some, decide_eq_true_eq] at hshallow
    exact ⟨a, b, ha, hb, horder, (hkey hplain).1 hshallow⟩

/-- A text and its bytes are two names in a context and one name of a custom property, whose value is
that of the last one.  So the order of a context can show in the subject. -/
theorem buildSubject_differs :
    ∃ (table : AliasTable) (context other : Attributes),
      Assoc.Distinct context ∧ Unambiguous table .subject context ∧
      Rearranged table .subject context other ∧
      ∃ a b : Subject, buildSubject table none context () = (.ok a, ()) ∧
        buildSubject table none other () = (.ok b, ()) ∧
        a.field .userProperties = .map [(.text "a", .int 2)] ∧
        b.field .userProperties = .map [(.text "a", .int 1)] := by
  let table : AliasTable := [("user_id", .userId)]
  let user : Value × Value := (.text "user_id", .text "u1")
  let octets : Value × Value := (.bytes [97], .int 1)
  let text : Value × Value := (.text "a", .int 2)
  obtain ⟨a, ha⟩ : ∃ a, buildSubject table none [user, octets, text] () = (.ok a, ()) :=
    exists_buildSubject_of_isOk (by decide +kernel)
  obtain ⟨b, hb⟩ : ∃ b, buildSubject table none [user, text, octets] () = (.ok b, ()) :=
    exists_buildSubject_of_isOk (by decide +kernel)
  refine ⟨table, [user, octets, text], [user, text, octets], ?_, ?_, ?_, a, b, ha, hb,
    buildSubject_properties ha, buildSubject_properties hb⟩
  · decide
  · have hoctets : table.resolve? .subject octets.1 = none := rfl
    have htext : table.resolve? .subject text.1 = none := rfl
    simp [Unambiguous, hoctets, htext]
  · exact ⟨_, .cons (.same _) (.cons (.same _) (.cons (.same _) .nil)), .cons _ (.swap _ _ _)⟩

end Rearranged

end Rollout
