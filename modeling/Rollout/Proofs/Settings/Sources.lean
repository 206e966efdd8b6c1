/-
Settings from their sources.

The deployment key is a plain text wherever it comes from, so an argument for it replaces the one of
the surroundings and changes nothing else: it makes no settings usable that were not, and none
unusable.  The only variable that can keep settings from being read at all is the one for added
aliases, if its text is not JSON; everything else either fits its field or is reported with its path.

* `find?_overlay` — the values of two maps that are merged;
* `Settings.mem_fromVariables` — what variables give, field by field;
* `Settings.MalformedAliases` — what keeps settings from being read;
* `Settings.load_of_malformed`, `Settings.load_of_malformed_file`, `Settings.load_eq` — what loading
  gives in each case;
* `Settings.load_deploymentKey` — settings with a deployment key as an argument.
-/
import Rollout.Proofs.Assoc
import Rollout.Proofs.FieldType
import Rollout.Proofs.Value.Plain
import Rollout.Proofs.Value.SameKey
import Rollout.Settings.Sources

namespace Rollout

/-! ### Merged maps -/

/-- A value that is merged is found under the name of either, merged with the one below. -/
theorem find?_overlay {top base : Attributes} (h : Assoc.Distinct top) (name : String) :
    Assoc.find? (.text name) (overlay top base)
      = match Assoc.find? (.text name) top with
        | some v => some (overlayValue v (Assoc.find? (.text name) base))
        | none => Assoc.find? (.text name) base := by
  induction top generalizing base with
  | nil => rw [overlay, Assoc.find?]
  | cons e rest ih =>
    obtain ⟨key, v⟩ := e
    obtain ⟨hne, hrest⟩ := Assoc.distinct_cons.mp h
    rw [overlay, ih hrest, Assoc.find?_insert, Assoc.find?]
    by_cases hkey : (key == .text name) = true
    · obtain rfl := Value.eq_text_of_beq hkey
      have hnone : Assoc.find? (.text name) rest = none :=
        Assoc.find?_eq_none_of_forall_ne fun e he => (BEq.comm).trans (hne e he)
      rw [hnone, if_pos hkey, if_pos hkey]
    · rw [if_neg hkey, if_neg hkey]

theorem overlayValue_text (s : String) (below : Option Value) :
    overlayValue (.text s) below = .text s := by
  simp [overlayValue]

namespace Settings

/-! ### What variables give -/

/-- The text that variables give for the added aliases. -/
def aliasText (given : Variables) : Option String :=
  (Assoc.find? (variableStart ++ "extra_aliases") given).join

/-- The variable for added aliases holds a text that is not JSON. -/
def MalformedAliases (given : Variables) : Prop :=
  ∃ text failure, aliasText given = some text ∧ Json.read text = .error failure

section Variables

variable {source : String} {given : Variables} {field : String} {kind : SettingKind} {f : Failure}

theorem complexValue_error_iff {nested : Attributes} {text : String} :
    complexValue kind nested field source text = .error f ↔
      (∀ fields, kind ≠ .options fields) ∧ (∃ failure, Json.read text = .error failure) ∧
        f = .malformedSetting field source := by
  unfold complexValue
  cases hread : Json.read text with
  | ok v => cases v <;> simp
  | error failure =>
    cases kind with
    | options fields => simp
    | _ => simp [eq_comm]

theorem fieldValue_error_iff : fieldValue source given field kind = .error f ↔
    kind = .texts ∧ (∃ text failure, (Assoc.find? (variableStart ++ field) given).join = some text ∧
      Json.read text = .error failure) ∧ f = .malformedSetting field source := by
  cases hfound : (Assoc.find? (variableStart ++ field) given).join with
  | none => cases kind <;> simp [fieldValue, hfound]
  | some text =>
    cases kind with
    | plain => simp [fieldValue]
    | _ => simp [fieldValue, hfound, map_eq_error_iff, complexValue_error_iff]

theorem fieldValue_plain {v : Value} (h : fieldValue source given field .plain = .ok v) :
    v = .null ∨ ∃ s, v = .text s := by
  simp only [fieldValue, Except.ok.injEq] at h
  subst h
  cases (Assoc.find? (variableStart ++ field) given).join with
  | none => exact .inl rfl
  | some s => exact .inr ⟨s, rfl⟩

variable {kinds : List (String × SettingKind)} {entries : Attributes}

/-- What variables give for a list of fields. -/
theorem mem_fromVariables (h : fromVariables source given kinds = .ok entries) :
    ∀ e ∈ entries, ∃ x ∈ kinds, e.1 = .text x.1 ∧ e.2 ≠ .null ∧
      fieldValue source given x.1 x.2 = .ok e.2 := by
  induction kinds generalizing entries with
  | nil =>
    cases h
    exact List.forall_mem_nil _
  | cons x rest ih =>
    rw [fromVariables] at h
    split at h
    · cases h
    · rename_i v hv
      obtain ⟨found, hfound, rfl⟩ := map_eq_ok_iff.mp h
      have hrest : ∀ e ∈ found, ∃ y ∈ x :: rest, e.1 = .text y.1 ∧ e.2 ≠ .null ∧
          fieldValue source given y.1 y.2 = .ok e.2 := by
        intro e he
        obtain ⟨y, hy, hentry⟩ := ih hfound e he
        exact ⟨y, List.mem_cons_of_mem _ hy, hentry⟩
      intro e he
      split at he
      · exact hrest e he
      · rename_i hnull
        rcases List.mem_cons.mp he with rfl | he
        · refine ⟨x, List.mem_cons_self, rfl, ?_, hv⟩
          rintro rfl
          exact hnull rfl
        · exact hrest e he

theorem fromVariables_keys (h : fromVariables source given kinds = .ok entries) :
    (entries.map Prod.fst).Sublist (kinds.map fun x => Value.text x.1) := by
  induction kinds generalizing entries with
  | nil =>
    cases h
    exact .slnil
  | cons x rest ih =>
    rw [fromVariables] at h
    split at h
    · cases h
    · obtain ⟨found, hfound, rfl⟩ := map_eq_ok_iff.mp h
      split
      · exact (ih hfound).cons _
      · exact (ih hfound).cons_cons _

theorem fromVariables_error (h : fromVariables source given kinds = .error f) :
    ∃ x ∈ kinds, fieldValue source given x.1 x.2 = .error f := by
  induction kinds with
  | nil => cases h
  | cons x rest ih =>
    rw [fromVariables] at h
    split at h
    · rename_i hv
      cases h
      exact ⟨x, List.mem_cons_self, hv⟩
    · obtain ⟨y, hy, hfailure⟩ := ih (map_eq_error_iff.mp h)
      exact ⟨y, List.mem_cons_of_mem _ hy, hfailure⟩

theorem exists_fieldValue (h : fromVariables source given kinds = .ok entries) :
    ∀ x ∈ kinds, ∃ v, fieldValue source given x.1 x.2 = .ok v := by
  induction kinds generalizing entries with
  | nil => exact List.forall_mem_nil _
  | cons x rest ih =>
    rw [fromVariables] at h
    split at h
    · cases h
    · rename_i v hv
      obtain ⟨found, hfound, -⟩ := map_eq_ok_iff.mp h
      exact List.forall_mem_cons.mpr ⟨⟨v, hv⟩, ih hfound⟩

theorem malformedAliases_of_error (h : fromVariables source given Settings.kinds = .error f) :
    MalformedAliases given ∧ f = .malformedSetting "extra_aliases" source := by
  obtain ⟨x, hx, hvalue⟩ := fromVariables_error h
  obtain ⟨htexts, hmalformed, rfl⟩ := fieldValue_error_iff.mp hvalue
  have hfield : x.1 = "extra_aliases" := by
    simp only [Settings.kinds, List.mem_cons, List.not_mem_nil, or_false] at hx
    rcases hx with rfl | rfl | rfl | rfl | rfl | rfl <;> first | rfl | cases htexts
  rw [hfield] at hmalformed ⊢
  exact ⟨hmalformed, rfl⟩

/-- Variables whose text for the added aliases is not JSON give no fields at all. -/
theorem fromVariables_of_malformed (source : String) (h : MalformedAliases given) :
    fromVariables source given Settings.kinds = .error (.malformedSetting "extra_aliases" source) := by
  cases hfields : fromVariables source given Settings.kinds with
  | error f => rw [(malformedAliases_of_error hfields).2]
  | ok entries =>
    obtain ⟨v, hv⟩ := exists_fieldValue hfields ("extra_aliases", .texts) (by simp [Settings.kinds])
    have hvalue : fieldValue source given "extra_aliases" .texts
        = .error (.malformedSetting "extra_aliases" source) :=
      fieldValue_error_iff.mpr ⟨rfl, h, rfl⟩
    rw [hvalue] at hv
    cases hv

end Variables

/-! ### Loading -/

/-- The variables of an environment. -/
def environmentVariables (environment : List (String × String)) : Variables :=
  lowerNames (environment.map fun (name, value) => (name, some value))

/-- The variables of a file, if there is one. -/
def fileVariables (environment : List (String × String)) (file : Option String) : Variables :=
  lowerNames (Dotenv.load environment (file.getD ""))

/-- The fields that variables give; none when they cannot be read. -/
def fieldsFrom (source : String) (given : Variables) : Attributes :=
  (fromVariables source given kinds).toOption.getD []

/-- The fields of all sources. -/
def merged (arguments : Attributes) (environment : List (String × String))
    (file : Option String) : Attributes :=
  overlay (overlay arguments (fieldsFrom "EnvSettingsSource" (environmentVariables environment)))
    (fieldsFrom "DotEnvSettingsSource" (fileVariables environment file))

section Load

variable {arguments : Attributes} {environment : List (String × String)} {file : Option String}
  {f : Failure}

theorem load_of_malformed (h : MalformedAliases (environmentVariables environment)) :
    load arguments environment file
      = .error (.malformedSetting "extra_aliases" "EnvSettingsSource") := by
  have hfields := fromVariables_of_malformed "EnvSettingsSource" h
  rw [environmentVariables] at hfields
  rw [load, hfields]

theorem exists_fromVariables (source : String) {given : Variables}
    (h : ¬ MalformedAliases given) :
    fromVariables source given kinds = .ok (fieldsFrom source given) := by
  rw [fieldsFrom]
  cases hfields : fromVariables source given kinds with
  | error f => exact absurd (malformedAliases_of_error hfields).1 h
  | ok entries => rfl

theorem load_of_malformed_file (h : ¬ MalformedAliases (environmentVariables environment))
    (hfile : MalformedAliases (fileVariables environment file)) :
    load arguments environment file
      = .error (.malformedSetting "extra_aliases" "DotEnvSettingsSource") := by
  have hgiven := exists_fromVariables "EnvSettingsSource" h
  have hfields := fromVariables_of_malformed "DotEnvSettingsSource" hfile
  rw [environmentVariables] at hgiven
  rw [fileVariables] at hfields
  simp only [load, hgiven, hfields]

theorem load_eq (h : ¬ MalformedAliases (environmentVariables environment))
    (hfile : ¬ MalformedAliases (fileVariables environment file)) :
    load arguments environment file
      = (ofMap (merged arguments environment file)).mapError (.invalid recordName) := by
  have hgiven := exists_fromVariables "EnvSettingsSource" h
  have hfields := exists_fromVariables "DotEnvSettingsSource" hfile
  rw [environmentVariables] at hgiven
  rw [fileVariables] at hfields
  simp only [load, hgiven, hfields, merged, environmentVariables, fileVariables]
  cases ofMap _ <;> rfl

end Load

/-! ### The deployment key -/

section DeploymentKey

variable {entries others : Attributes} {key : String}

/-- Settings that differ in the deployment key only. -/
theorem ofMap_deploymentKey (hkey : Assoc.find? (.text "deployment_key") entries = some (.text key))
    (hold : ∃ old, readText others "deployment_key" "" = .ok old)
    (hsame : ∀ name ≠ "deployment_key",
      Assoc.find? (.text name) entries = Assoc.find? (.text name) others) :
    ofMap entries = (ofMap others).map fun s => { s with deploymentKey := key } := by
  have hread : readText entries "deployment_key" "" = .ok key := by
    rw [readText, hkey]
    rfl
  obtain ⟨old, hold⟩ := hold
  have htext : ∀ name default, name ≠ "deployment_key" →
      readText entries name default = readText others name default := fun name default hne => by
    rw [readText, readText, hsame name hne]
  have hrecord : ∀ {α : Type} (ofValue : Value → Except (List Path) α) name,
      name ≠ "deployment_key" → readRecord entries name ofValue = readRecord others name ofValue :=
    fun ofValue name hne => by rw [readRecord, readRecord, hsame name hne]
  have haliases : readAliases entries = readAliases others := by
    rw [readAliases, readAliases, hsame _ (by decide)]
  simp only [ofMap, hread, hold, haliases, htext "log_level" _ (by decide),
    htext "log_format" _ (by decide), hrecord _ "local" (by decide), hrecord _ "remote" (by decide)]
  generalize readRecord others "local" LocalOptions.ofValue = inProcess
  generalize readRecord others "remote" RemoteOptions.ofValue = remote
  generalize readAliases others = aliases
  generalize readText others "log_level" "INFO" = level
  generalize readText others "log_format" "json" = format
  rcases inProcess with _ | _ | _ <;> rcases remote with _ | _ | _ <;> rcases aliases with _ | _ <;>
    rcases level with _ | _ <;> rcases format with _ | _ <;> rfl

theorem distinct_fieldsFrom (source : String) (given : Variables) :
    Assoc.Distinct (fieldsFrom source given) := by
  rw [fieldsFrom]
  cases hfields : fromVariables source given kinds with
  | error f => exact .nil
  | ok found =>
    have hkinds : (kinds.map fun x => Value.text x.1).Pairwise fun a b => (a == b) = false := by
      decide
    exact hkinds.sublist (fromVariables_keys hfields)

/-- What variables give for the deployment key is a text. -/
theorem exists_text_of_fieldsFrom {source : String} {given : Variables} {v : Value}
    (h : Assoc.find? (.text "deployment_key") (fieldsFrom source given) = some v) :
    ∃ s, v = .text s := by
  obtain ⟨k, hk, hname⟩ := (distinct_fieldsFrom source given).find?_eq_some_iff.mp h
  obtain rfl := Value.eq_text_of_beq hname
  rw [fieldsFrom] at hk
  cases hfields : fromVariables source given kinds with
  | error f =>
    rw [hfields] at hk
    cases hk
  | ok found =>
    rw [hfields] at hk
    obtain ⟨x, hx, htext, hnull, hvalue⟩ := mem_fromVariables hfields _ hk
    have hplain : x.2 = .plain := by
      simp only [kinds, List.mem_cons, List.not_mem_nil, or_false] at hx
      rcases hx with rfl | rfl | rfl | rfl | rfl | rfl <;> first | rfl | simp at htext
    rw [hplain] at hvalue
    exact (fieldValue_plain hvalue).resolve_left hnull

/-- The deployment key of all sources is a text, if there is one. -/
theorem exists_readText_merged (environment : List (String × String)) (file : Option String) :
    ∃ old, readText (merged [] environment file) "deployment_key" "" = .ok old := by
  have hfind : ∀ v, Assoc.find? (.text "deployment_key") (merged [] environment file) = some v →
      ∃ s, v = .text s := by
    intro v hv
    rw [merged, overlay, find?_overlay (distinct_fieldsFrom _ _)] at hv
    split at hv
    · rename_i w hw
      obtain ⟨s, rfl⟩ := exists_text_of_fieldsFrom hw
      rw [overlayValue_text] at hv
      exact ⟨s, (Option.some.inj hv).symm⟩
    · exact exists_text_of_fieldsFrom hv
  rw [readText]
  cases hkey : Assoc.find? (.text "deployment_key") (merged [] environment file) with
  | none => exact ⟨"", rfl⟩
  | some v =>
    obtain ⟨s, rfl⟩ := hfind v hkey
    exact ⟨s, rfl⟩

/-- **An argument for the deployment key changes nothing else.**  Settings are loaded with it exactly
when they are loaded without, with the same other fields, and fail in the same way. -/
theorem load_deploymentKey (key : String) (environment : List (String × String))
    (file : Option String) :
    load [(.text "deployment_key", .text key)] environment file
      = (load [] environment file).map fun s => { s with deploymentKey := key } := by
  by_cases henv : MalformedAliases (environmentVariables environment)
  · rw [load_of_malformed henv, load_of_malformed henv]
    rfl
  by_cases hfile : MalformedAliases (fileVariables environment file)
  · rw [load_of_malformed_file henv hfile, load_of_malformed_file henv hfile]
    rfl
  -- The argument is written over the key of the environment, and then nothing changes it.
  set given := fieldsFrom "EnvSettingsSource" (environmentVariables environment)
  set below := fieldsFrom "DotEnvSettingsSource" (fileVariables environment file)
  have hdistinct : Assoc.Distinct given := distinct_fieldsFrom _ _
  have hmerged : merged [(.text "deployment_key", .text key)] environment file
      = overlay (Assoc.insert (.text "deployment_key") (.text key) given) below := by
    rw [merged, overlay, overlay, overlayValue_text]
  have hfind : ∀ name, Assoc.find? (.text name)
        (Assoc.insert (.text "deployment_key") (.text key) given)
      = if name = "deployment_key" then some (.text key) else Assoc.find? (.text name) given := by
    intro name
    rw [Assoc.find?_insert, Value.text_beq_text]
    by_cases hname : name = "deployment_key"
    · rw [hname, beq_self_eq_true, if_pos rfl, if_pos rfl]
    · rw [if_neg hname, if_neg fun h => hname (beq_iff_eq.mp h).symm]
  have hover : ∀ name, Assoc.find? (.text name)
        (merged [(.text "deployment_key", .text key)] environment file)
      = if name = "deployment_key" then some (.text key)
        else Assoc.find? (.text name) (merged [] environment file) := by
    intro name
    rw [hmerged, find?_overlay (hdistinct.insert _ _), hfind, merged, overlay,
      find?_overlay hdistinct]
    by_cases hname : name = "deployment_key"
    · rw [if_pos hname, if_pos hname]
      exact congrArg some (overlayValue_text key _)
    · rw [if_neg hname, if_neg hname]
  rw [load_eq henv hfile, load_eq henv hfile, ofMap_deploymentKey ((hover _).trans (if_pos rfl))
    (exists_readText_merged environment file) fun name hname => (hover name).trans (if_neg hname)]
  cases ofMap (merged [] environment file) <;> rfl

end DeploymentKey

end Settings

end Rollout
