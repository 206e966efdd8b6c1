/-
Outcomes that JSON has a form for.

Variants that are read from JSON have payloads and metadata that were read, and an outcome is made of
those and of the caller's default.  A number that is converted stays short.  So an outcome can be
printed as JSON whenever the default can.  No payload that is read is a decimal, so that every such
variant has an outcome.

* `Variant.Decoded`, `Outcome.Decoded` — variants and outcomes made of what JSON is read as;
* `Variant.decoded_ofFlags` — the variants in a JSON object are such variants;
* `Variant.Decoded.exists_outcome` — they have an outcome, of the same kind.
-/
import Rollout.Proofs.Json.Reading
import Rollout.Proofs.Provider.Escape

namespace Rollout

open Rollout.Text Rollout.Json

/-! ### Variants -/

/-- A variant whose parts are values that JSON is read as. -/
structure Variant.Decoded (v : Variant) : Prop where
  payload : Json.Decoded v.payload
  metadata : Json.Decoded (.map v.metadata)

/-- An outcome whose parts are values that JSON is read as. -/
structure Outcome.Decoded (o : Outcome) : Prop where
  value : Json.Decoded o.value
  metadata : Json.Decoded (.map o.metadata)

/-- What is found in a map that was read, or null, is a value that was read. -/
theorem Json.Decoded.getD_find? {entries : Attributes} (h : Json.Decoded (.map entries))
    (name : String) {other : Value} (hother : Json.Decoded other) :
    Json.Decoded ((Assoc.find? (.text name) entries).getD other) := by
  cases hfind : Assoc.find? (Value.text name) entries with
  | none => exact hother
  | some v => exact h.of_find? hfind

namespace Variant

theorem decoded_ofValue {value : Value} {v : Variant} (h : ofValue value = .ok v)
    (hvalue : Json.Decoded value) : v.Decoded := by
  unfold ofValue at h
  split at h
  · rename_i entries
    split at h
    · rename_i hmap
      cases h
      unfold ofMap at hmap
      split at hmap
      · rename_i hmetadata
        cases hmap
        refine ⟨hvalue.getD_find? "payload" .null, ?_⟩
        unfold readMetadata at hmetadata
        split at hmetadata
        · rename_i w hw
          cases hmetadata
          have hfits := below_eq_ok_iff.mp hw
          have hdecoded := hereditary_decoded.convert rfl hfits
            (hvalue.getD_find? "metadata" Json.decoded_empty)
          obtain ⟨-, results, -, -, rfl⟩ := FieldType.convert_mapOf_iff.mp hfits
          exact hdecoded
        · cases hmetadata
      · cases hmap
    · cases h
  · cases h

/-- Variants that are read from JSON have parts that were read. -/
theorem decoded_ofFlags {flags : List (String × Value)} {variants : Variants}
    (h : ofFlags flags = .ok variants) (hflags : ∀ e ∈ flags, Json.Decoded e.2) :
    ∀ e ∈ variants, e.2.Decoded := by
  induction flags generalizing variants with
  | nil =>
    cases h
    exact List.forall_mem_nil _
  | cons e rest ih =>
    rw [ofFlags] at h
    split at h
    · cases h
    · rename_i variant hvariant
      obtain ⟨more, hmore, rfl⟩ := map_eq_ok_iff.mp h
      obtain ⟨hfirst, hrest⟩ := List.forall_mem_cons.mp hflags
      exact List.forall_mem_cons.mpr ⟨decoded_ofValue hvariant hfirst, ih hmore hrest⟩

theorem decoded_foldl_insertNew {entries found : Attributes}
    (hentries : Json.Decoded (.map entries)) (hfound : Json.Decoded (.map found)) :
    Json.Decoded (.map (entries.foldl
      (fun entries entry =>
        if entry.2.isNull then entries else Assoc.insertNew entry.1 entry.2 entries) found)) := by
  induction entries generalizing found with
  | nil => exact hfound
  | cons e rest ih =>
    obtain ⟨hkey, hkeys⟩ := List.forall_mem_cons.mp hentries.keys
    obtain ⟨hvalue, hvalues⟩ := List.forall_mem_cons.mp hentries.values
    refine ih (.map rest hkeys hvalues) ?_
    dsimp only
    -- A null and an entry of a name that is there change nothing.
    split
    · exact hfound
    · rw [Assoc.insertNew]
      split
      · exact hfound
      · exact hfound.insert hkey hvalue

/-- The details of a variant that was read. -/
theorem Decoded.details {v : Variant} (h : v.Decoded) : Json.Decoded (.map v.details) := by
  refine decoded_foldl_insertNew h.metadata ?_
  cases v.value with
  | none =>
    exact .map _ (List.forall_mem_singleton.mpr ⟨_, rfl⟩) (List.forall_mem_singleton.mpr (.text _))
  | some name =>
    exact .map _ (List.forall_mem_cons.mpr ⟨⟨_, rfl⟩, List.forall_mem_singleton.mpr ⟨_, rfl⟩⟩)
      (List.forall_mem_cons.mpr ⟨.text _, List.forall_mem_singleton.mpr (.text _)⟩)

end Variant

/-! ### Payloads as values of a type -/

theorem Number.shortInt_toInteger {n : Number} (h : Json.Decoded n.value) {k : Int}
    (hk : n.toInteger = .ok k) : ShortInt k := by
  simp only [toInteger] at hk
  split at hk
  · rename_i found hfound
    cases hk
    cases n with
    | int m =>
      cases hfound
      cases h with
      | int _ short => exact short
    | float x =>
      cases h with
      | float _ short => exact short _ hfound
    | decimal d => cases h
  · cases hk

theorem Number.decoded_toFloat {n : Number} (h : Json.Decoded n.value) {x : Binary64}
    (hx : n.toFloat = .ok x) : Json.Decoded (.float x) := by
  cases n with
  | int m =>
    rw [toFloat] at hx
    split at hx
    · rename_i hfinite
      cases hx
      refine .float _ fun k hk => ?_
      have hround := Binary64.roundsTo_ofInt ((Binary64.isFinite_ofInt_iff m).mp hfinite)
      exact (hround.digitCount_truncate?_le hk).trans (by decide)
    · cases hx
  | float y =>
    cases hx
    exact h
  | decimal d => cases h

theorem shortInt_integerOfText {s : String} {k : Int} (h : integerOfText s = .ok k) :
    ShortInt k := by
  unfold integerOfText at h
  split at h
  · rename_i hdigits
    split at h
    · rename_i hlength
      cases h
      exact Numeral.digitCount_integer?_le (fun c d => digit?_le) hdigits hlength
    · cases h
  · cases h

theorem decoded_floatOfText {s : String} {x : Binary64} (h : floatOfText s = .ok x) :
    Json.Decoded (.float x) := by
  unfold floatOfText at h
  split at h
  · cases h
    exact decoded_ofScaled _ _ _
  · cases h

/-- A payload that was read becomes a value of a kind that is read. -/
theorem FlagType.decoded_coerce {type : FlagType} {p : Payload} {w : Value}
    (h : type.coerce p = .ok (some w)) (hp : Json.Decoded p.value) : Json.Decoded w := by
  cases type with
  | boolean =>
    cases h
    exact .bool _
  | object =>
    cases p <;> cases h <;> exact hp
  | string =>
    cases p with
    | text s =>
      cases h
      exact .text s
    | _ => cases h
  | integer =>
    cases p with
    | number n =>
      obtain ⟨k, hk, hw⟩ := map_eq_ok_iff.mp h
      cases hw
      exact .int k (n.shortInt_toInteger hp hk)
    | text s =>
      obtain ⟨k, hk, hw⟩ := map_eq_ok_iff.mp h
      cases hw
      exact .int k (shortInt_integerOfText hk)
    | _ => cases h
  | float =>
    cases p with
    | number n =>
      obtain ⟨x, hx, hw⟩ := map_eq_ok_iff.mp h
      cases hw
      exact n.decoded_toFloat hp hx
    | text s =>
      obtain ⟨x, hx, hw⟩ := map_eq_ok_iff.mp h
      cases hw
      exact decoded_floatOfText hx
    | _ => cases h

/-! ### Outcomes -/

theorem Outcome.decoded_defaulted {default : Value} (h : Json.Decoded default) :
    (Outcome.defaulted default).Decoded :=
  ⟨h, Json.decoded_empty⟩

theorem Outcome.decoded_failed {default : Value} (h : Json.Decoded default) (kind : ErrorKind)
    (message : String) : (Outcome.failed default kind message).Decoded :=
  ⟨h, Json.decoded_empty⟩

/-- The outcome for a variant that was read. -/
theorem Variant.Decoded.outcome {v : Variant} (h : v.Decoded) {type : FlagType} {default : Value}
    (hdefault : Json.Decoded default) {o : Outcome} (ho : evaluateVariant type v default = .ok o) :
    o.Decoded := by
  unfold evaluateVariant at ho
  split at ho
  · cases ho
    exact Outcome.decoded_defaulted hdefault
  · split at ho
    · rename_i w hw
      cases ho
      refine ⟨?_, h.details⟩
      unfold Variant.coerce at hw
      split at hw
      · rename_i payload hpayload
        refine FlagType.decoded_coerce hw ?_
        rw [Payload.value_of_ofValue hpayload]
        exact h.payload
      · cases hw
    · cases ho
      exact Outcome.decoded_defaulted hdefault
    · cases ho
      exact Outcome.decoded_failed hdefault _ _
    · cases ho

/-- No payload that was read is a decimal. -/
theorem Variant.Decoded.not_escapes {v : Variant} (h : v.Decoded) (type : FlagType) :
    ¬ v.Escapes type := by
  rintro ⟨-, -, negative, diagnostic, hpayload⟩
  have hp := h.payload
  rw [hpayload] at hp
  cases hp

/-- A variant that was read has an outcome. -/
theorem Variant.Decoded.exists_outcome {v : Variant} (h : v.Decoded) (type : FlagType)
    {default : Value} (hdefault : Json.Decoded default) :
    ∃ o, evaluateVariant type v default = .ok o ∧ o.Decoded := by
  cases ho : evaluateVariant type v default with
  | ok o => exact ⟨o, rfl, h.outcome hdefault ho⟩
  | error f => exact absurd (evaluateVariant_error_iff.mp ho).2 (h.not_escapes type)

end Rollout
