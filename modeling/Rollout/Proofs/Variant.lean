/-
Variants that are stored and read again.

A stored variant is a map of four parts.  Reading it gives back the key and the value as they were,
and the payload and the metadata as far as JSON holds them: the reduction of the variant.  A plain
variant is its own reduction.

* `Variant.Reduces` — what a stored variant is read as;
* `Variant.Shallow` — variants whose payload and metadata have few enough levels to be stored;
* `Variants.exists_decode_dump` — stored variants are read as their reductions, flag by flag;
* `Variants.Plain.decode_dump` — plain variants are read as they were.
-/
import Rollout.Client.Caching
import Rollout.Proofs.Dump
import Rollout.Proofs.FieldType
import Rollout.Proofs.Value.Plain

namespace Rollout

open Rollout.Text

/-! ### Maps after reducing -/

/-- A map of named values is reduced to a map with distinct texts as keys. -/
theorem exists_named_of_dump {type : FieldType} {entries : Attributes} {v : Value}
    (h : (FieldType.mapOf type).dump (.map entries) = .ok v) : ∃ m, v = .map m ∧ Named m := by
  obtain ⟨dumped, hdumped, rfl⟩ := map_eq_ok_iff.mp h
  refine ⟨_, rfl, named_ofEntries fun d hd => ?_⟩
  obtain ⟨e, -, s, -, hkey, -⟩ := exists_of_mem_right (dumpEachEntry_eq_ok_iff.mp hdumped) hd
  exact ⟨s, hkey⟩

/-! ### One variant -/

namespace Variant

/-- A variant reduced to what JSON holds. -/
structure Reduces (v reduced : Variant) : Prop where
  key : reduced.key = v.key
  value : reduced.value = v.value
  payload : v.payload.dump = .ok reduced.payload
  metadata : (FieldType.mapOf .anything).dump (.map v.metadata) = .ok (.map reduced.metadata)

/-- The parts of a variant under their names. -/
def parts (v : Variant) : Attributes := [
  (.text "key", .text v.key),
  (.text "value", match v.value with | some s => .text s | none => .null),
  (.text "payload", v.payload),
  (.text "metadata", .map v.metadata)]

theorem dumpFields_cons_eq_ok {name : String} {type : FieldType} {v : Value}
    {fields : List (String × FieldType × Value)} {dumped : Attributes}
    (h : dumpFields ((name, type, v) :: fields) = .ok dumped) :
    ∃ d others, type.dump v = .ok d ∧ dumpFields fields = .ok others ∧
      dumped = (.text name, d) :: others := by
  rw [dumpFields] at h
  cases hv : type.dump v with
  | error failure =>
    rw [hv] at h
    cases h
  | ok d =>
    rw [hv] at h
    obtain ⟨others, hothers, rfl⟩ := map_eq_ok_iff.mp h
    exact ⟨d, others, rfl, hothers, rfl⟩

/-- A stored variant is a map of the parts of its reduction. -/
theorem dump_eq_ok {v : Variant} {d : Value} (h : v.dump = .ok d) :
    ∃ reduced, v.Reduces reduced ∧ d = .map reduced.parts := by
  obtain ⟨key, value, payload, metadata⟩ := v
  obtain ⟨dumped, hdumped, rfl⟩ := map_eq_ok_iff.mp h
  obtain ⟨k, afterKey, hk, hkey, rfl⟩ := dumpFields_cons_eq_ok hdumped
  obtain ⟨s, afterValue, hs, hvalue, rfl⟩ := dumpFields_cons_eq_ok hkey
  obtain ⟨p, afterPayload, hp, hpayload, rfl⟩ := dumpFields_cons_eq_ok hvalue
  obtain ⟨m, afterMetadata, hm, hmetadata, rfl⟩ := dumpFields_cons_eq_ok hpayload
  cases hmetadata
  cases hk
  obtain ⟨entries, rfl, -⟩ := exists_named_of_dump hm
  refine ⟨⟨key, value, p, entries⟩, ⟨rfl, rfl, hp, hm⟩, ?_⟩
  -- The value of a variant may be missing, and is null then.
  cases value with
  | none | some =>
    cases hs
    rfl

/-- The parts of a variant are read as the variant. -/
theorem ofValue_parts {v : Variant} (h : Named v.metadata) : ofValue (.map v.parts) = .ok v := by
  obtain ⟨key, value, payload, metadata⟩ := v
  have hkey : readKey (parts ⟨key, value, payload, metadata⟩) = .ok key := by
    simp [readKey, parts, Assoc.find?, convertText]
  have hname : readName (parts ⟨key, value, payload, metadata⟩) = .ok value := by
    cases value <;> simp [readName, parts, Assoc.find?, convertText]
  have hmetadata : readMetadata (parts ⟨key, value, payload, metadata⟩) = .ok metadata := by
    have hfind : Assoc.find? (Value.text "metadata") (parts ⟨key, value, payload, metadata⟩)
        = some (.map metadata) := by
      simp [parts, Assoc.find?]
    rw [readMetadata, hfind, Option.getD_some, FieldType.convert]
    simp only [convertEntries_named h.1]
    change Except.ok (Value.entries (.map (Assoc.ofEntries metadata))) = _
    rw [h.ofEntries]
    rfl
  have hpayload : Assoc.find? (Value.text "payload") (parts ⟨key, value, payload, metadata⟩)
      = some payload := by
    simp [parts, Assoc.find?]
  rw [ofValue, ofMap, hkey, hname, hmetadata, hpayload]
  rfl

/-- A variant that JSON holds as it is. -/
structure Plain (v : Variant) : Prop where
  payload : v.payload.Plain
  metadata : (Value.map v.metadata).Plain

/-- A plain variant is reduced to nothing but itself. -/
theorem Plain.eq_of_reduces {v reduced : Variant} (h : v.Plain) (hreduces : v.Reduces reduced) :
    reduced = v := by
  obtain ⟨hkey, hvalue, hpayload, hmetadata⟩ := hreduces
  have hp := (Value.dump_eq_ok_iff.mp hpayload).2
  have hm := (FieldType.dump_eq_ok_iff.mp hmetadata).2
  rw [h.payload.reduce, Except.ok.injEq] at hp
  rw [h.metadata.reduce, Except.ok.injEq, Value.map.injEq] at hm
  obtain ⟨key, value, payload, metadata⟩ := reduced
  obtain ⟨key', value', payload', metadata'⟩ := v
  simp only at hkey hvalue hp hm
  rw [hkey, hvalue, ← hp, ← hm]

/-- A variant whose payload and metadata have few enough levels. -/
structure Shallow (v : Variant) : Prop where
  payload : v.payload.levels ≤ Value.maxLevels
  metadata : ∀ e ∈ v.metadata, e.2.levels ≤ Value.maxLevels

/-- Only a variant with few enough levels is stored. -/
theorem Reduces.shallow {v reduced : Variant} (h : v.Reduces reduced) : v.Shallow where
  payload := (Value.dump_eq_ok_iff.mp h.payload).1
  metadata := by
    have hlevels := (FieldType.dump_eq_ok_iff.mp h.metadata).1
    rwa [FieldType.levels, foldr_max_le_iff, List.forall_mem_map] at hlevels

/-- A plain variant is stored part by part, if it has few enough levels. -/
theorem Plain.dump {v : Variant} (h : v.Plain) (hshallow : v.Shallow) :
    v.dump = .ok (.map v.parts) := by
  have hpayload : FieldType.anything.dump v.payload = .ok v.payload :=
    FieldType.dump_eq_ok_iff.mpr ⟨hshallow.payload, h.payload.reduce⟩
  have hmetadata : (FieldType.mapOf .anything).dump (.map v.metadata) = .ok (.map v.metadata) := by
    refine FieldType.dump_eq_ok_iff.mpr ⟨?_, h.metadata.reduce⟩
    rw [FieldType.levels, foldr_max_le_iff, List.forall_mem_map]
    exact hshallow.metadata
  obtain ⟨key, value, payload, metadata⟩ := v
  cases value with
  | none | some =>
    simp only [Variant.dump, dumpFields, hpayload, hmetadata]
    rfl

end Variant

/-! ### The variants of all flags -/

namespace Variants

/-- The same flags, each with the reduction of its variant. -/
def Reduces (vs reduced : Variants) : Prop :=
  List.Forall₂ (fun a b => b.1 = a.1 ∧ a.2.Reduces b.2) vs reduced

/-- Variants that JSON holds as they are. -/
def Plain (vs : Variants) : Prop := ∀ e ∈ vs, e.2.Plain

theorem dump_cons_eq_ok {flag : String} {v : Variant} {vs : Variants} {entries : Attributes}
    (h : dump ((flag, v) :: vs) = .ok entries) :
    ∃ d more, v.dump = .ok d ∧ dump vs = .ok more ∧ entries = (.text flag, d) :: more := by
  rw [dump] at h
  cases hv : v.dump with
  | error failure =>
    rw [hv] at h
    cases h
  | ok d =>
    rw [hv] at h
    obtain ⟨more, hmore, rfl⟩ := map_eq_ok_iff.mp h
    exact ⟨d, more, rfl, hmore, rfl⟩

theorem decode_map (entries : Attributes) : CachingClient.decode (.map entries)
    = (Variant.ofFlags (entries.map fun e => (e.1.display, e.2))).map some := rfl

/-- Stored variants are read as their reductions. -/
theorem exists_decode_dump {vs : Variants} {entries : Attributes} (h : vs.dump = .ok entries) :
    ∃ reduced, vs.Reduces reduced ∧
      CachingClient.decode (.map entries) = .ok (some reduced) := by
  suffices hflags : ∃ reduced, vs.Reduces reduced ∧
      Variant.ofFlags (entries.map fun e => (e.1.display, e.2)) = .ok reduced by
    obtain ⟨reduced, hreduces, hread⟩ := hflags
    refine ⟨reduced, hreduces, ?_⟩
    rw [decode_map, hread]
    rfl
  induction vs generalizing entries with
  | nil =>
    cases h
    exact ⟨[], .nil, rfl⟩
  | cons e vs ih =>
    obtain ⟨flag, v⟩ := e
    obtain ⟨d, more, hv, hvs, rfl⟩ := dump_cons_eq_ok h
    obtain ⟨reduced, hreduces, hread⟩ := ih hvs
    obtain ⟨first, hfirst, rfl⟩ := Variant.dump_eq_ok hv
    -- The metadata was reduced to a map with texts as keys, as the reader wants it.
    obtain ⟨_, hmap, hnamed⟩ := exists_named_of_dump hfirst.metadata
    cases hmap
    refine ⟨(flag, first) :: reduced, .cons ⟨rfl, hfirst⟩ hreduces, ?_⟩
    rw [List.map_cons, Variant.ofFlags, Variant.ofValue_parts hnamed]
    simp only [hread]
    rfl

theorem Plain.eq_of_reduces {vs reduced : Variants} (hplain : vs.Plain)
    (h : vs.Reduces reduced) : reduced = vs := by
  induction h with
  | nil => rfl
  | @cons a b vs reduced hab _ ih =>
    have htail := ih fun e he => hplain e (List.mem_cons_of_mem _ he)
    have hhead := (hplain a List.mem_cons_self).eq_of_reduces hab.2
    rw [htail, Prod.ext hab.1 hhead]

/-- Variants with few enough levels. -/
def Shallow (vs : Variants) : Prop := ∀ e ∈ vs, e.2.Shallow

theorem Plain.exists_dump {vs : Variants} (h : vs.Plain) (hshallow : vs.Shallow) :
    ∃ entries, vs.dump = .ok entries := by
  induction vs with
  | nil => exact ⟨[], rfl⟩
  | cons e vs ih =>
    obtain ⟨flag, v⟩ := e
    obtain ⟨entries, hentries⟩ := ih (fun e he => h e (List.mem_cons_of_mem _ he))
      fun e he => hshallow e (List.mem_cons_of_mem _ he)
    have hv := (h (flag, v) List.mem_cons_self).dump (hshallow (flag, v) List.mem_cons_self)
    refine ⟨(.text flag, .map v.parts) :: entries, ?_⟩
    rw [dump, hv, hentries]
    rfl

theorem shallow_of_dump {vs : Variants} {entries : Attributes} (h : vs.dump = .ok entries) :
    vs.Shallow := by
  induction vs generalizing entries with
  | nil => exact fun e he => by cases he
  | cons e vs ih =>
    obtain ⟨d, more, hv, hvs, -⟩ := dump_cons_eq_ok h
    obtain ⟨reduced, hreduces, -⟩ := Variant.dump_eq_ok hv
    exact List.forall_mem_cons.mpr ⟨hreduces.shallow, ih hvs⟩

/-- Plain variants are read as they were. -/
theorem Plain.decode_dump {vs : Variants} (hplain : vs.Plain) {entries : Attributes}
    (h : vs.dump = .ok entries) : CachingClient.decode (.map entries) = .ok (some vs) := by
  obtain ⟨reduced, hreduces, hdecode⟩ := exists_decode_dump h
  rw [hdecode, hplain.eq_of_reduces hreduces]

/-! ### Failures -/

/-- Whatever keeps variants from being stored has a text. -/
theorem hasText_of_dump {vs : Variants} {f : Failure} (h : vs.dump = .error f) : f.HasText := by
  induction vs with
  | nil => cases h
  | cons e vs ih =>
    obtain ⟨flag, v⟩ := e
    rw [dump] at h
    cases hv : v.dump with
    | error failure =>
      rw [hv] at h
      cases h
      exact hasText_of_dumpFields (map_eq_error_iff.mp hv)
    | ok d =>
      rw [hv] at h
      exact ih (map_eq_error_iff.mp h)

theorem hasText_of_ofFlags {flags : List (String × Value)} {f : Failure}
    (h : Variant.ofFlags flags = .error f) : f.HasText := by
  induction flags with
  | nil => cases h
  | cons e flags ih =>
    obtain ⟨flag, value⟩ := e
    rw [Variant.ofFlags] at h
    cases hv : Variant.ofValue value with
    | error failure =>
      rw [hv] at h
      cases h
      unfold Variant.ofValue at hv
      split at hv
      · split at hv
        · cases hv
        · cases hv
          exact ⟨_, rfl⟩
      · cases hv
        exact ⟨_, rfl⟩
    | ok v =>
      rw [hv] at h
      exact ih (map_eq_error_iff.mp h)

/-- Whatever keeps a stored value from being read has a text. -/
theorem hasText_of_decode {value : Value} {f : Failure} (h : CachingClient.decode value = .error f) :
    f.HasText := by
  cases value with
  | null => cases h
  | map entries =>
    rw [decode_map, map_eq_error_iff] at h
    exact hasText_of_ofFlags h
  | _ =>
    cases h
    exact ⟨_, rfl⟩

/-! ### Choosing flags -/

theorem Reduces.find? {vs reduced : Variants} (h : vs.Reduces reduced) (flag : String) :
    (Assoc.find? flag vs = none ∧ Assoc.find? flag reduced = none) ∨
      ∃ v w, Assoc.find? flag vs = some v ∧ Assoc.find? flag reduced = some w ∧ v.Reduces w := by
  induction h with
  | nil => exact .inl ⟨rfl, rfl⟩
  | @cons a b vs reduced hab _ ih =>
    obtain ⟨name, v⟩ := a
    obtain ⟨name', w⟩ := b
    -- Both lists have the same flags in the same order, so they are searched side by side.
    obtain ⟨rfl, hvw⟩ := hab
    by_cases hflag : (name' == flag) = true
    · right
      exact ⟨v, w, by rw [Assoc.find?, if_pos hflag], by rw [Assoc.find?, if_pos hflag], hvw⟩
    · rw [Assoc.find?, Assoc.find?, if_neg hflag, if_neg hflag]
      exact ih

theorem find?_update_pick (vs : Variants) (flags : List String) (flag : String)
    (entries : Variants) :
    Assoc.find? flag (Assoc.update entries (vs.pick flags))
      = if flag ∈ flags then (Assoc.find? flag vs).or (Assoc.find? flag entries)
        else Assoc.find? flag entries := by
  induction flags generalizing entries with
  | nil => rfl
  | cons name flags ih =>
    rw [Variants.pick]
    cases hname : Assoc.find? name vs with
    | none =>
      simp only [ih, List.mem_cons]
      by_cases hflag : flag = name
      · subst hflag
        simp [hname]
      · simp [hflag]
    | some v =>
      have hstep : Assoc.update entries ((name, v) :: vs.pick flags)
          = Assoc.update (Assoc.insert name v entries) (vs.pick flags) := rfl
      simp only [hstep, ih, Assoc.find?_insert, List.mem_cons]
      by_cases hflag : flag = name
      · subst hflag
        simp [hname]
      · simp [hflag, Ne.symm hflag]

/-- A flag is found among the chosen ones if it was asked for, or none was named. -/
theorem find?_select (vs : Variants) (flags : List String) (flag : String) :
    Assoc.find? flag (vs.select flags)
      = if flags = [] ∨ flag ∈ flags then Assoc.find? flag vs else none := by
  unfold select
  cases flags with
  | nil => rfl
  | cons name flags =>
    rw [List.isEmpty_cons, if_neg Bool.false_ne_true, Assoc.ofEntries, find?_update_pick]
    simp

end Variants

end Rollout
