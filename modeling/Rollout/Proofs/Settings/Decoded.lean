/-
Settings from variables, and what JSON makes of them.

Variables are texts, and what they stand for is either such a text or read from JSON.  Merging and
nesting keep what JSON has a form for.  So the integers among the settings are short, and the options
of the active mode can always be written as JSON.

* `Json.Decoded.overlay` — two maps that were read, merged;
* `Settings.decoded_merged` — the fields of all sources;
* `Settings.writable_options` — the options of settings that were loaded.
-/
import Rollout.Proofs.Json.Reading
import Rollout.Proofs.Settings
import Rollout.Proofs.Settings.Sources

namespace Rollout

open Rollout.Text

/-! ### Merged maps -/

namespace Json.Decoded

/-- A value on top of another is one that was read when both are. -/
theorem overlayValue {v : Value} (hv : Decoded v) {base : Option Value}
    (hbase : ∀ b, base = some b → Decoded b) : Decoded (overlayValue v base) := by
  induction v using Value.induction_parts generalizing base with
  | step v ih =>
    cases v with
    | map entries =>
      cases base with
      | none => simpa only [Rollout.overlayValue] using hv
      | some b =>
        cases b with
        | map below =>
          rw [Rollout.overlayValue]
          have hparts := Value.forall_parts_map ih
          have hbelow : Decoded (.map below) := hbase _ rfl
          clear ih hbase
          -- The entries are written on top one after the other.
          induction entries generalizing below with
          | nil => rwa [Rollout.overlay]
          | cons e rest ih =>
            obtain ⟨key, w⟩ := e
            obtain ⟨hkey, hkeys⟩ := List.forall_mem_cons.mp hv.keys
            obtain ⟨hw, hrest⟩ := List.forall_mem_cons.mp hv.values
            obtain ⟨⟨-, hfirst⟩, hothers⟩ := List.forall_mem_cons.mp hparts
            rw [Rollout.overlay]
            refine ih (.map rest hkeys hrest) _ hothers (hbelow.insert hkey ?_)
            exact hfirst hw fun b hb => hbelow.of_find? hb
        | _ => simpa only [Rollout.overlayValue] using hv
    | _ => simpa only [Rollout.overlayValue] using hv

theorem overlay {top base : Attributes} (htop : Decoded (.map top))
    (hbase : Decoded (.map base)) : Decoded (.map (overlay top base)) := by
  have hmerged : Decoded (Rollout.overlayValue (.map top) (some (.map base))) :=
    htop.overlayValue fun b hb => Option.some.inj hb ▸ hbase
  rwa [Rollout.overlayValue] at hmerged

end Json.Decoded

/-! ### Values fitted to a type -/

/-- The integer that a value becomes which was read is short. -/
theorem shortInt_convertInteger {v : Value} (hv : Json.Decoded v) {n : Int}
    (h : convertInteger v = some n) : ShortInt n := by
  cases hv with
  | null | list | map => cases h
  | int n short =>
    cases h
    exact short
  | bool b =>
    cases h
    rw [ShortInt]
    cases b <;> decide
  | float x short =>
    rw [convertInteger] at h
    split at h
    · exact short n (Option.filter_eq_some_iff.mp h).1
    · cases h
  | text s =>
    simp only [convertInteger] at h
    obtain ⟨cs, -, hread⟩ := Option.bind_eq_some_iff.mp h
    exact Json.shortInt_lenientInteger? (fun c d => asciiDigit?_le) hread

/-- What is fitted of a value that was read can be written. -/
theorem FieldType.writable_convert {type : FieldType} {v w : Value} (h : type.convert v = .ok w)
    (hv : Json.Decoded v) : Json.Writable w := by
  induction type generalizing v w with
  | text =>
    rw [convert] at h
    obtain ⟨s, rfl⟩ := exists_text_of_convertText (fitHere_eq_ok_iff.mp h)
    exact .text s
  | integer =>
    obtain ⟨n, hn, rfl⟩ := Option.map_eq_some_iff.mp (fitHere_eq_ok_iff.mp h)
    exact .int n (shortInt_convertInteger hv hn)
  | positiveInteger =>
    obtain ⟨n, hn, rfl⟩ := Option.map_eq_some_iff.mp (fitHere_eq_ok_iff.mp h)
    exact .int n (shortInt_convertInteger hv (Option.filter_eq_some_iff.mp hn).1)
  | number | positiveNumber =>
    obtain ⟨x, -, rfl⟩ := Option.map_eq_some_iff.mp (fitHere_eq_ok_iff.mp h)
    exact .float x
  | truth =>
    obtain ⟨b, -, rfl⟩ := Option.map_eq_some_iff.mp (fitHere_eq_ok_iff.mp h)
    exact .bool b
  | anything =>
    cases h
    exact hv.writable
  | listOf item ih =>
    obtain ⟨items, results, hitems, hall, rfl⟩ := convert_listOf_iff.mp h
    refine .list _ fun result hresult => ?_
    obtain ⟨v, hv', hconvert⟩ := exists_of_mem_right hall hresult
    exact ih hconvert (Json.hereditary_decoded.items hitems hv v hv')
  | mapOf item ih =>
    obtain ⟨entries, results, rfl, hall, rfl⟩ := convert_mapOf_iff.mp h
    have hkeys : ∀ x ∈ results, ∃ s, x.1 = .text s := by
      intro x hx
      obtain ⟨e, -, hkey, -⟩ := exists_of_mem_right hall hx
      exact exists_text_of_convertText hkey
    refine .map _ (fun x hx => ?_) (Assoc.forall_ofEntries fun x hx => ?_)
    · obtain ⟨s, hs⟩ := (named_ofEntries hkeys).1 x hx
      exact ⟨s, by rw [hs, Json.keyName]⟩
    · obtain ⟨e, he, -, hconvert⟩ := exists_of_mem_right hall hx
      exact ih hconvert (hv.values e he)

/-! ### Options -/

/-- The options that are made of what was read can be written when the defaults can. -/
theorem writable_readOptions {fields : List OptionField} {v : Value} {values : List Value}
    (h : readOptions fields v = .ok values) (hv : Json.Decoded v)
    (hdefaults : ∀ field ∈ fields, Json.Writable field.default) :
    ∀ x ∈ fields.zip values, Json.Writable x.2 := by
  intro x hx
  rcases readOptions_eq_ok h x hx with hdefault | ⟨entries, given, rfl, hgiven, hconvert⟩
  · rw [hdefault]
    exact hdefaults _ (List.of_mem_zip hx).1
  · exact FieldType.writable_convert hconvert (hv.of_find? hgiven)

theorem writable_default_remote : ∀ field ∈ RemoteOptions.fields, Json.Writable field.default := by
  simp only [RemoteOptions.fields, List.forall_mem_cons]
  exact ⟨.float _, .bool _, .int _ (by decide), .int _ (by decide), List.forall_mem_nil _⟩

theorem LocalOptions.writable_value (o : LocalOptions) : Json.Writable o.value :=
  .map _ (List.forall_mem_singleton.mpr ⟨_, rfl⟩) (List.forall_mem_singleton.mpr (.float _))

theorem RemoteOptions.writable_value {v : Value} {o : RemoteOptions} (h : ofValue v = .ok o)
    (hv : Json.Decoded v) : Json.Writable o.value := by
  unfold ofValue at h
  split at h
  · rename_i hread
    cases h
    have hvalues := writable_readOptions hread hv writable_default_remote
    simp only [fields, List.zip_cons_cons, List.forall_mem_cons] at hvalues
    obtain ⟨htimeout, henabled, httl, hsize, -⟩ := hvalues
    refine .map _ ?_ ?_
    · simp only [List.forall_mem_cons]
      exact ⟨⟨_, rfl⟩, ⟨_, rfl⟩, ⟨_, rfl⟩, ⟨_, rfl⟩, List.forall_mem_nil _⟩
    · simp only [List.forall_mem_cons]
      exact ⟨htimeout, henabled, httl, hsize, List.forall_mem_nil _⟩
  · cases h
  · cases h

namespace Settings

/-! ### Variables -/

section Variables

variable {source : String} {given : Variables} {field : String} {kind : SettingKind}

theorem decoded_place {entries : Attributes} (h : Json.Decoded (.map entries)) (path : List String)
    {v : Value} (hv : Json.Decoded v) : Json.Decoded (.map (place entries path v)) := by
  induction path generalizing entries with
  | nil => rwa [place]
  | cons name rest ih =>
    cases rest with
    | nil => exact h.insert ⟨name, rfl⟩ hv
    | cons next rest =>
      rw [place]
      · split
        · exact h.insert ⟨name, rfl⟩ (ih Json.decoded_empty)
        · rename_i hinner
          exact h.insert ⟨name, rfl⟩ (ih (h.of_find? hinner))
        · exact h
      · exact nofun

theorem decoded_nestedValue (kind : SettingKind) (path : List String) (value : Option String) :
    Json.Decoded (nestedValue kind path value) := by
  unfold nestedValue
  split
  · exact .null
  · rename_i s
    split
    · split
      · exact .text s
      · cases hread : Json.read s with
        | error failure => exact .text s
        | ok v => exact Json.read_decoded hread
    · exact .text s

theorem decoded_nestedFields (kind : SettingKind) (start : String) (given : Variables) :
    Json.Decoded (.map (nestedFields kind start given)) := by
  refine List.foldlRecOn (motive := fun entries => Json.Decoded (.map entries)) given _
    Json.decoded_empty fun entries h e _ => ?_
  dsimp only
  split
  · exact h
  · exact decoded_place h _ (decoded_nestedValue kind _ _)

theorem decoded_restoreNames (kind : SettingKind) {v : Value} (h : Json.Decoded v) :
    Json.Decoded (restoreNames kind v) := by
  unfold restoreNames
  split
  · refine Json.hereditary_decoded.ofEntries (List.forall_mem_map.mpr fun e he => ?_)
      (List.forall_mem_map.mpr h.values)
    obtain ⟨s, hs⟩ := h.keys e he
    unfold knownName
    simp only [hs]
    split
    · exact ⟨_, rfl⟩
    · exact ⟨s, rfl⟩
  · exact h

theorem decoded_complexValue {nested : Attributes} (hnested : Json.Decoded (.map nested))
    {text : String} {v : Value} (h : complexValue kind nested field source text = .ok v) :
    Json.Decoded v := by
  unfold complexValue at h
  split at h
  · rename_i hread
    cases h
    exact hnested.overlay (Json.read_decoded hread)
  · rename_i hread
    cases h
    exact Json.read_decoded hread
  · cases h
    exact .text text
  · cases h

theorem decoded_fieldValue {v : Value} (h : fieldValue source given field kind = .ok v) :
    Json.Decoded v := by
  have hnested := decoded_nestedFields kind (variableStart ++ field) given
  simp only [fieldValue] at h
  split at h
  · cases h
    split
    · exact .text _
    · exact .null
  · cases h
    split
    · exact .null
    · exact decoded_restoreNames _ hnested
  · obtain ⟨w, hw, rfl⟩ := map_eq_ok_iff.mp h
    exact decoded_restoreNames _ (decoded_complexValue hnested hw)

theorem decoded_fieldsFrom (source : String) (given : Variables) :
    Json.Decoded (.map (fieldsFrom source given)) := by
  rw [fieldsFrom]
  cases hfields : fromVariables source given kinds with
  | error f => exact Json.decoded_empty
  | ok entries =>
    have hall := mem_fromVariables hfields
    refine .map _ (fun e he => ?_) fun e he => ?_
    · obtain ⟨x, -, hname, -⟩ := hall e he
      exact ⟨x.1, hname⟩
    · obtain ⟨x, -, -, -, hvalue⟩ := hall e he
      exact decoded_fieldValue hvalue

end Variables

theorem decoded_merged {arguments : Attributes} (h : Json.Decoded (.map arguments))
    (environment : List (String × String)) (file : Option String) :
    Json.Decoded (.map (merged arguments environment file)) :=
  (h.overlay (decoded_fieldsFrom _ _)).overlay (decoded_fieldsFrom _ _)

/-! ### Settings that were loaded -/

/-- Settings that were loaded are made from the fields of all sources. -/
theorem ofMap_merged_of_load {arguments : Attributes} {environment : List (String × String)}
    {file : Option String} {settings : Settings}
    (h : load arguments environment file = .ok settings) :
    ofMap (merged arguments environment file) = .ok settings := by
  by_cases henvironment : MalformedAliases (environmentVariables environment)
  · rw [load_of_malformed henvironment] at h
    cases h
  by_cases hfile : MalformedAliases (fileVariables environment file)
  · rw [load_of_malformed_file henvironment hfile] at h
    cases h
  rw [load_eq henvironment hfile] at h
  cases hfit : ofMap (merged arguments environment file) with
  | ok fitted =>
    rw [hfit] at h
    cases h
    rfl
  | error paths =>
    rw [hfit] at h
    cases h

/-- The options of the active mode can be written. -/
theorem writable_options {arguments : Attributes} (harguments : Json.Decoded (.map arguments))
    {environment : List (String × String)} {file : Option String} {settings : Settings}
    (h : load arguments environment file = .ok settings) : Json.Writable settings.options := by
  rw [options]
  split
  · rename_i o ho
    refine RemoteOptions.writable_value (remoteOptions_of_ofMap (ofMap_merged_of_load h) ho) ?_
    cases hfind : Assoc.find? (Value.text "remote") (merged arguments environment file) with
    | none => exact .null
    | some v => exact (decoded_merged harguments environment file).of_find? hfind
  · exact LocalOptions.writable_value _

end Settings

end Rollout
