/-
Tracked events.

The context of an event and its details are sorted apart and then put together, the details over the
context.  A value that counts as given is the revenue, and the type of the event is what the caller
says.  Every field is fitted from the one value that wins for it.  Custom properties are put together
name by name, and only then the names become texts; so a text and its bytes are two names for the
details to win over, and one name for the record.

* `Event.source?`, `Event.property?` — the value that wins for a field, and for a name;
* `Event.bag` — the custom properties before their names become texts;
* `find?_properties` — what a name holds once it is a text;
* `find?_overflow_of_loose`, `find?_overflow_eq_none` — loose attributes among what was sorted;
* `buildOccurrence_precedence` — what an occurrence is made of;
* `buildOccurrence_precedence_lost` — details that lose to the context.
-/
import Rollout.Proofs.Normalization.Routing
import Rollout.Proofs.Record.Projection

namespace Rollout

/-! ### What wins -/

namespace Event

variable (table : AliasTable) (event : Event)

/-- The context of an event, sorted. -/
def sortedContext : Normalization := normalize table .occurrence event.attributes

/-- The details of an event, sorted. -/
def sortedDetails : Normalization := normalize table .occurrence event.details

/-- The value that a field is fitted from; none if the field is unset. -/
def source? (key : CanonicalKey) : Option Value :=
  if key = .revenue ∧ event.value.isTruthy = true then some event.value
  else (Assoc.find? key (event.sortedDetails table).canonical).or
    (Assoc.find? key (event.sortedContext table).canonical)

/-- The value that a custom property has under the name that the caller gave. -/
def property? (name : Value) : Option Value :=
  (Assoc.find? name (event.sortedDetails table).overflow).or
    (Assoc.find? name (event.sortedContext table).overflow)

/-- The custom properties under the names that the caller gave. -/
def bag : Attributes :=
  Assoc.update (event.sortedContext table).overflow (event.sortedDetails table).overflow

/-- No other name of a custom property becomes the text. -/
def Alone (name text : Value) : Prop :=
  ∀ e ∈ event.bag table, convertText e.1 = some text → e.1 = name

end Event

/-! ### Sorted attributes put together -/

section Merge

variable {table : AliasTable} {shape : Shape} {attributes : Attributes} {event : Event}

theorem distinct_canonical (table : AliasTable) (shape : Shape) (attributes : Attributes) :
    Assoc.Distinct (normalize table shape attributes).canonical := by
  rw [normalize_eq]
  exact Assoc.distinct_ofEntries _

theorem distinct_overflow (table : AliasTable) (shape : Shape) (attributes : Attributes) :
    Assoc.Distinct (normalize table shape attributes).overflow := by
  rw [normalize_eq]
  exact (Assoc.distinct_ofEntries _).update _

/-- Nothing is put over the context if there are no details, which is no special case. -/
theorem normalizeEvent_eq (table : AliasTable) (event : Event) :
    normalizeEvent table event
      = let n := (event.sortedContext table).merge (event.sortedDetails table)
        (if event.value.isTruthy then n.put .revenue event.value else n).put .eventType
          (.text event.eventType) := by
  cases hdetails : event.details with
  | nil =>
    simp only [normalizeEvent, Event.sortedDetails, hdetails]
    rfl
  | cons e details =>
    simp only [normalizeEvent, Event.sortedDetails, hdetails]
    rfl

theorem normalizeEvent_overflow (table : AliasTable) (event : Event) :
    (normalizeEvent table event).overflow = event.bag table := by
  rw [normalizeEvent_eq]
  dsimp only
  split <;> rfl

theorem find?_normalizeEvent_eventType (table : AliasTable) (event : Event) :
    Assoc.find? .eventType (normalizeEvent table event).canonical
      = some (.text event.eventType) := by
  rw [normalizeEvent_eq]
  exact (Assoc.find?_insert ..).trans (if_pos rfl)

/-- For every field but the type of the event, the value that wins is there. -/
theorem find?_normalizeEvent (table : AliasTable) (event : Event) {key : CanonicalKey}
    (hkey : key ≠ .eventType) :
    Assoc.find? key (normalizeEvent table event).canonical = event.source? table key := by
  have hmerge : Assoc.find? key (Assoc.update (event.sortedContext table).canonical
      (event.sortedDetails table).canonical)
      = (Assoc.find? key (event.sortedDetails table).canonical).or
        (Assoc.find? key (event.sortedContext table).canonical) :=
    (distinct_canonical table .occurrence event.details).find?_update key
  rw [normalizeEvent_eq, Event.source?]
  dsimp only [Normalization.put]
  rw [Assoc.find?_insert, beq_false_of_ne hkey.symm, if_neg Bool.false_ne_true, ← hmerge]
  split
  · rename_i hgiven
    rw [Assoc.find?_insert]
    by_cases hrevenue : key = .revenue
    · subst hrevenue
      simp [hgiven]
    · rw [beq_false_of_ne (Ne.symm hrevenue), if_neg Bool.false_ne_true,
        if_neg fun h => hrevenue h.1]
      rfl
  · rename_i hgiven
    rw [if_neg fun h => hgiven h.2]
    rfl

theorem find?_bag (table : AliasTable) (event : Event) (name : Value) :
    Assoc.find? name (event.bag table) = event.property? table name :=
  (distinct_overflow table .occurrence event.details).find?_update name

theorem distinct_bag (table : AliasTable) (event : Event) : Assoc.Distinct (event.bag table) :=
  (distinct_overflow table .occurrence event.attributes).update _

end Merge

/-! ### Names that become texts -/

/-- A name that becomes a text is the same key as no other name. -/
theorem beq_iff_eq_of_convertText {name other text : Value} (h : convertText name = some text) :
    (other == name) = true ↔ other = name := by
  cases name with
  | text s =>
    refine ⟨Value.eq_text_of_beq, ?_⟩
    rintro rfl
    rw [Value.text_beq_text, beq_self_eq_true]
  | bytes octets => exact Value.beq_bytes_iff
  | _ => cases h

section Names

variable {entries : Attributes} {name text value : Value}

theorem mem_textEntries {e : Value × Value} : e ∈ textEntries entries ↔
    ∃ x ∈ entries, convertText x.1 = some e.1 ∧ x.2 = e.2 := by
  simp only [textEntries, List.mem_filterMap, Option.map_eq_some_iff]
  refine exists_congr fun x => and_congr_right fun _ => ⟨?_, ?_⟩
  · rintro ⟨text, htext, rfl⟩
    exact ⟨htext, rfl⟩
  · rintro ⟨htext, hvalue⟩
    exact ⟨e.1, htext, Prod.ext rfl hvalue⟩

theorem eq_of_mem_textEntries {e : Value × Value} (he : e ∈ textEntries entries)
    (hsame : (e.1 == text) = true) : e.1 = text := by
  obtain ⟨s, hs⟩ := exists_text_of_textEntries e he
  rw [hs] at hsame ⊢
  exact (Value.eq_text_of_beq (BEq.symm hsame)).symm

theorem find?_of_mem (hentries : Assoc.Distinct entries) {e : Value × Value} (he : e ∈ entries)
    (hname : convertText e.1 = some text) : Assoc.find? e.1 entries = some e.2 :=
  hentries.find?_eq_some_iff.mpr ⟨e.1, he, (beq_iff_eq_of_convertText hname).mpr rfl⟩

/-- A text holds the value of a name that becomes it. -/
theorem exists_of_find?_properties (hentries : Assoc.Distinct entries)
    (h : Assoc.find? text (Assoc.ofEntries (textEntries entries)) = some value) :
    ∃ e ∈ entries, convertText e.1 = some text ∧ Assoc.find? e.1 entries = some value := by
  obtain ⟨x, hx, hsame, rfl⟩ := Assoc.exists_mem_of_find?_ofEntries h
  obtain ⟨e, he, hname, hvalue⟩ := mem_textEntries.mp hx
  rw [eq_of_mem_textEntries hx hsame] at hname
  exact ⟨e, he, hname, hvalue ▸ find?_of_mem hentries he hname⟩

theorem exists_of_mem_properties (hentries : Assoc.Distinct entries)
    (h : (text, value) ∈ Assoc.ofEntries (textEntries entries)) :
    ∃ name, convertText name = some text ∧ Assoc.find? name entries = some value := by
  obtain ⟨s, hs⟩ := (named_ofEntries exists_text_of_textEntries).1 _ h
  have hsame : (text == text) = true := by
    rw [show text = .text s from hs, Value.text_beq_text, beq_self_eq_true]
  have hfind : Assoc.find? text (Assoc.ofEntries (textEntries entries)) = some value :=
    (Assoc.distinct_ofEntries _).find?_eq_some_iff.mpr ⟨text, h, hsame⟩
  obtain ⟨e, -, hname, hvalue⟩ := exists_of_find?_properties hentries hfind
  exact ⟨e.1, hname, hvalue⟩

theorem contains_properties {e : Value × Value} (he : e ∈ entries)
    (hname : convertText e.1 = some text) :
    Assoc.contains text (Assoc.ofEntries (textEntries entries)) = true := by
  obtain ⟨s, rfl⟩ := exists_text_of_convertText hname
  refine Assoc.contains_ofEntries_of_mem (e := (.text s, e.2)) (mem_textEntries.mpr
    ⟨e, he, hname, rfl⟩) ?_
  rw [Value.text_beq_text, beq_self_eq_true]

/-- A text holds what the only name that becomes it held. -/
theorem find?_properties (hentries : Assoc.Distinct entries) {e : Value × Value} (he : e ∈ entries)
    (hname : convertText e.1 = some text)
    (halone : ∀ x ∈ entries, convertText x.1 = some text → x.1 = e.1) :
    Assoc.find? text (Assoc.ofEntries (textEntries entries)) = some e.2 := by
  obtain ⟨value, hvalue⟩ := Option.isSome_iff_exists.mp (contains_properties he hname)
  obtain ⟨x, hx, hxname, hfind⟩ := exists_of_find?_properties hentries hvalue
  rw [halone x hx hxname, find?_of_mem hentries he hname] at hfind
  rw [hvalue, ← hfind]

theorem forall_of_forall_update {others : Attributes}
    (h : ∀ e ∈ Assoc.update entries others, (convertText e.1).isSome = true) :
    (∀ e ∈ entries, (convertText e.1).isSome = true) ∧
      ∀ e ∈ others, (convertText e.1).isSome = true := by
  have hkeys : ∀ key ∈ (Assoc.update entries others).map Prod.fst,
      (convertText key).isSome = true := List.forall_mem_map.mpr h
  constructor
  · intro e he
    exact hkeys e.1 (Assoc.mem_keys_update_of_mem (List.mem_map_of_mem he))
  · intro e he
    obtain ⟨key, hmem, hsame⟩ := Assoc.exists_key_update entries he
    obtain ⟨text, htext⟩ := Option.isSome_iff_exists.mp (hkeys key hmem)
    rcases hsame with rfl | hsame
    · exact hkeys _ hmem
    · rw [(beq_iff_eq_of_convertText htext).mp (BEq.symm hsame), htext]
      rfl

end Names

/-! ### Loose attributes -/

section Loose

variable {table : AliasTable} {shape : Shape} {attributes : Attributes} {name value : Value}

/-- If the names of all custom properties become texts, so do those of all loose attributes. -/
theorem convertText_of_loose {e : Value × Value}
    (h : ∀ e ∈ (normalize table shape attributes).overflow, (convertText e.1).isSome = true)
    (hmem : e ∈ attributes) (hloose : Loose table shape e) :
    (convertText e.1).isSome = true := by
  rw [normalize_eq] at h
  exact (forall_of_forall_update (forall_of_forall_update h).2).2 e
    (mem_looseEntries.mpr ⟨hmem, hloose⟩)

/-- A loose attribute is among the custom properties. -/
theorem find?_overflow_of_loose {e : Value × Value} (hdistinct : Assoc.Distinct attributes)
    (hmem : e ∈ attributes) (hloose : Loose table shape e)
    (hname : (convertText e.1).isSome = true) :
    Assoc.find? e.1 (normalize table shape attributes).overflow = some e.2 := by
  obtain ⟨text, htext⟩ := Option.isSome_iff_exists.mp hname
  have hentries : Assoc.Distinct (looseEntries table shape attributes) :=
    hdistinct.sublist List.filter_sublist
  have hfind := find?_of_mem hentries (mem_looseEntries.mpr ⟨hmem, hloose⟩) htext
  rw [normalize_eq]
  dsimp only
  rw [(Assoc.distinct_ofEntries _).find?_update, hentries.ofEntries_eq, hfind, Option.some_or]

/-- The custom properties have the name of a loose attribute only if another loose attribute has it,
or an entry of the map that was passed for them. -/
theorem find?_overflow_eq_none (hloose : Loose table shape (name, value))
    (hfree : ∀ e ∈ attributes, Loose table shape e → (e.1 == name) = false)
    (hbag : ∀ bag entries, LastForBag table shape attributes (bag, .map entries) →
      ∀ e ∈ entries, (e.1 == name) = false) :
    Assoc.find? name (normalize table shape attributes).overflow = none := by
  have hnotloose : Assoc.find? name (Assoc.ofEntries (looseEntries table shape attributes))
      = none := by
    rw [Option.eq_none_iff_forall_ne_some]
    intro v hv
    obtain ⟨e, he, hsame, -⟩ := Assoc.exists_mem_of_find?_ofEntries hv
    rw [hfree e (mem_looseEntries.mp he).1 (mem_looseEntries.mp he).2] at hsame
    cases hsame
  have hnotbag : Assoc.find? name (Assoc.ofEntries (bagOf table shape attributes)) = none := by
    rw [Option.eq_none_iff_forall_ne_some]
    intro v hv
    obtain ⟨e, he, hsame, -⟩ := Assoc.exists_mem_of_find?_ofEntries hv
    obtain ⟨⟨bag, contents⟩, hlast, hmem⟩ := mem_bagOf.mp he
    rcases mem_bagContents.mp hmem with ⟨entries, hvalue, hentry⟩ | ⟨heq, -, -⟩
    · cases hvalue
      rw [hbag bag entries hlast e hentry] at hsame
      cases hsame
    · -- A plain value for the bag has a name for it, which no loose attribute has.
      cases heq
      obtain ⟨_, _, _, -, ⟨rfl, spelling, hspelling, hlookup⟩, -⟩ := hlast
      dsimp only at hspelling
      rw [hspelling] at hsame
      have hname : name = .text spelling := Value.eq_text_of_beq (BEq.symm hsame)
      exact (fills_overflowKey_iff.mpr ⟨spelling, hname, hlookup⟩).1 hloose
  rw [normalize_eq]
  dsimp only
  rw [(Assoc.distinct_ofEntries _).find?_update, hnotloose, hnotbag]
  rfl

end Loose

/-! ### Occurrences -/

section Occurrence

variable {σ : Type} {table : AliasTable} {event : Event} {o : Occurrence}

theorem buildOccurrence_none_eq_ok_iff {w w' : σ} :
    buildOccurrence table none event w = (.ok o, w') ↔
      (normalizeEvent table event).toRecord .occurrence = .ok o ∧ w' = w := by
  rw [buildOccurrence]
  cases (normalizeEvent table event).toRecord .occurrence with
  | error failure => simp
  | ok occurrence => simp [eq_comm]

theorem exists_buildOccurrence_of_isOk {w : σ}
    (h : ((normalizeEvent table event).toRecord .occurrence).isOk = true) :
    ∃ o, buildOccurrence table none event w = (.ok o, w) := by
  cases hrecord : (normalizeEvent table event).toRecord .occurrence with
  | error failure =>
    rw [hrecord] at h
    cases h
  | ok o => exact ⟨o, buildOccurrence_none_eq_ok_iff.mpr ⟨hrecord, rfl⟩⟩

theorem field_eventType (h : (normalizeEvent table event).toRecord .occurrence = .ok o) :
    o.field .eventType = .text event.eventType := by
  have hfit := (Normalization.toRecord_field h (by decide) (by decide)).1 _
    (find?_normalizeEvent_eventType table event)
  exact (Except.ok.inj hfit).symm

theorem field_of_source (h : (normalizeEvent table event).toRecord .occurrence = .ok o)
    {key : CanonicalKey} (hkey : key ∈ Shape.occurrence.keys) (htype : key ≠ .eventType)
    (hbag : key ≠ .eventProperties) :
    (∀ v, event.source? table key = some v → Record.fit .occurrence key v = .ok (o.field key)) ∧
      (event.source? table key = none → o.field key = .null) := by
  obtain ⟨hgiven, hunset⟩ := Normalization.toRecord_field h hkey hbag
  rw [find?_normalizeEvent table event htype] at hgiven hunset
  refine ⟨hgiven, fun hnone => ?_⟩
  have hdefault : Shape.occurrence.default? key = some .null :=
    (if_neg hbag).trans (if_neg htype)
  exact (Option.some.inj (hdefault.symm.trans (hunset hnone))).symm

/-- The names of the context and of the details become texts. -/
theorem names_of_toRecord (h : (normalizeEvent table event).toRecord .occurrence = .ok o) :
    (∀ e ∈ (event.sortedContext table).overflow, (convertText e.1).isSome = true) ∧
      ∀ e ∈ (event.sortedDetails table).overflow, (convertText e.1).isSome = true := by
  have hnames := Normalization.toRecord_names h
  rw [normalizeEvent_overflow] at hnames
  exact forall_of_forall_update hnames

/-- A name is there as a text, with its value if no other name becomes that text. -/
theorem exists_text_of_property? (h : (normalizeEvent table event).toRecord .occurrence = .ok o)
    {name value : Value} (hproperty : event.property? table name = some value) :
    ∃ text, convertText name = some text ∧
      let properties := Assoc.ofEntries (textEntries (event.bag table))
      Assoc.contains text properties = true ∧
        (event.Alone table name text → Assoc.find? text properties = some value) := by
  have hnames := Normalization.toRecord_names h
  rw [normalizeEvent_overflow] at hnames
  rw [← find?_bag] at hproperty
  obtain ⟨key, hmem, hsame⟩ := (distinct_bag table event).find?_eq_some_iff.mp hproperty
  obtain ⟨text, htext⟩ := Option.isSome_iff_exists.mp (hnames _ hmem)
  -- The bag may hold the name in another form in general, but not if it becomes a text.
  obtain rfl := (beq_iff_eq_of_convertText htext).mp (BEq.symm hsame)
  exact ⟨text, htext, contains_properties hmem htext,
    find?_properties (distinct_bag table event) hmem htext⟩

/-- **What an occurrence is made of.**  An occurrence that is built without a hook is of the type
that the caller says.  Every other field is fitted from the value that wins for it, or unset if there
is none.  The custom properties are those of the context with those of the details over them, and
hold nothing else; a name has the value that wins for it, unless another name becomes the same text.
A loose attribute of the details wins, and so does one of the context unless the details have its
name, loose or in the map that was passed for the custom properties. -/
theorem buildOccurrence_precedence {w w' : σ} (hattributes : Assoc.Distinct event.attributes)
    (hdetails : Assoc.Distinct event.details)
    (h : buildOccurrence table none event w = (.ok o, w')) :
    w' = w ∧ o.field .eventType = .text event.eventType ∧
    (∀ key ∈ Shape.occurrence.keys, key ≠ .eventType → key ≠ .eventProperties →
      (∀ v, event.source? table key = some v → Record.fit .occurrence key v = .ok (o.field key)) ∧
        (event.source? table key = none → o.field key = .null)) ∧
    (∃ properties, o.field .eventProperties = .map properties ∧
      properties = Assoc.ofEntries (textEntries (event.bag table)) ∧
      (∀ name value, event.property? table name = some value →
        ∃ text, convertText name = some text ∧ Assoc.contains text properties = true ∧
          (event.Alone table name text → Assoc.find? text properties = some value)) ∧
      ∀ text value, (text, value) ∈ properties →
        ∃ name, convertText name = some text ∧ event.property? table name = some value) ∧
    (∀ e ∈ event.details, Loose table .occurrence e →
      event.property? table e.1 = some e.2) ∧
    ∀ e ∈ event.attributes, Loose table .occurrence e →
      (∀ x ∈ event.details, Loose table .occurrence x → (x.1 == e.1) = false) →
      (∀ bag entries, LastForBag table .occurrence event.details (bag, .map entries) →
        ∀ x ∈ entries, (x.1 == e.1) = false) →
      event.property? table e.1 = some e.2 := by
  obtain ⟨hrecord, hworld⟩ := buildOccurrence_none_eq_ok_iff.mp h
  obtain ⟨hcontext, hparticulars⟩ := names_of_toRecord hrecord
  refine ⟨hworld, field_eventType hrecord, fun key => field_of_source hrecord,
    ⟨_, ?_, rfl, fun name value => exists_text_of_property? hrecord, fun text value hmem => ?_⟩,
    fun e hmem hloose => ?_, fun e hmem hloose hfree hbag => ?_⟩
  · rw [← normalizeEvent_overflow]
    exact Normalization.toRecord_properties hrecord
  · obtain ⟨name, hname, hvalue⟩ := exists_of_mem_properties (distinct_bag table event) hmem
    exact ⟨name, hname, find?_bag table event name ▸ hvalue⟩
  · rw [Event.property?, Event.sortedDetails, find?_overflow_of_loose hdetails hmem hloose
      (convertText_of_loose hparticulars hmem hloose), Option.some_or]
  · rw [Event.property?, Event.sortedDetails, find?_overflow_eq_none hloose hfree hbag,
      Option.none_or, Event.sortedContext, find?_overflow_of_loose hattributes hmem hloose
      (convertText_of_loose hcontext hmem hloose)]

end Occurrence

/-- A purchase whose details unset the city, and have another number of seats. -/
theorem buildOccurrence_precedence_purchase :
    let table : AliasTable := [("city", .city), ("revenue", .revenue), ("event_type", .eventType),
      ("event_properties", .eventProperties)]
    let attributes : Attributes := [(.text "city", .text "Rome"), (.text "revenue", .int 3),
      (.text "event_type", .text "view"), (.text "seats", .int 1), (.text "plan", .text "pro")]
    let details : Attributes := [(.text "city", .null), (.text "seats", .int 2),
      (.text "event_properties", .map [(.text "color", .text "red")])]
    let event : Event := ⟨attributes, "purchase", .int 5, details⟩
    Assoc.Distinct attributes ∧ Assoc.Distinct details ∧
    ∃ o : Occurrence, buildOccurrence table none event () = (.ok o, ()) ∧
      o.field .eventType = .text "purchase" ∧ o.field .city = .null ∧
      o.field .revenue = .float (.ofInt 5) ∧
      event.property? table (.text "seats") = some (.int 2) ∧
      event.property? table (.text "plan") = some (.text "pro") := by
  intro table attributes details event
  have hattributes : Assoc.Distinct attributes := by decide
  have hdetails : Assoc.Distinct details := by decide
  obtain ⟨o, ho⟩ : ∃ o : Occurrence, buildOccurrence table none event () = (.ok o, ()) :=
    exists_buildOccurrence_of_isOk (by decide +kernel)
  obtain ⟨-, htype, hfield, -, hloose, hcontext⟩ :=
    buildOccurrence_precedence hattributes hdetails ho
  have hcity := (hfield .city (by decide) (by decide) (by decide)).1 .null rfl
  have hrevenue := (hfield .revenue (by decide) (by decide) (by decide)).1 (.int 5) rfl
  have hfree : ∀ x ∈ details, (x.1 == .text "plan") = false := by decide
  refine ⟨hattributes, hdetails, o, ho, htype, (Except.ok.inj hcity).symm,
    (Except.ok.inj hrevenue).symm,
    hloose (.text "seats", .int 2) (by simp [event, details]) (.unknown _ _ rfl),
    hcontext (.text "plan", .text "pro") (by simp [event, attributes]) (.unknown _ _ rfl)
      (fun x hx _ => hfree x hx) fun bag entries hlast => ?_⟩
  have hbag : bag = .text "event_properties" ∧ entries = [(.text "color", .text "red")] := by
    simpa [event, details] using hlast.mem
  rw [hbag.2]
  decide

/-- The details have the name, but the context has its bytes, which come later and become the same
text. -/
theorem buildOccurrence_precedence_lost :
    let attributes : Attributes := [(.text "a", .int 1), (.bytes [97], .int 3)]
    let details : Attributes := [(.text "a", .int 2)]
    let event : Event := ⟨attributes, "click", .null, details⟩
    Assoc.Distinct attributes ∧ Assoc.Distinct details ∧
    Assoc.find? (.text "a") (event.sortedDetails []).overflow = some (.int 2) ∧
    ∃ o : Occurrence, buildOccurrence [] none event () = (.ok o, ()) ∧
      o.field .eventProperties = .map [(.text "a", .int 3)] := by
  intro attributes details event
  obtain ⟨o, ho⟩ : ∃ o : Occurrence, buildOccurrence [] none event () = (.ok o, ()) :=
    exists_buildOccurrence_of_isOk (by decide +kernel)
  exact ⟨by decide, by decide, rfl, o, ho,
    Normalization.toRecord_properties (buildOccurrence_none_eq_ok_iff.mp ho).1⟩

end Rollout
