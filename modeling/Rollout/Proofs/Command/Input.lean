/-
Input that commands cannot use.

For each thing that is read there is a relation between what is given and how the command ends on
it.  Most faults are refusals with a message.  Those that nothing handles are a file of variables that
is not in UTF-8, added aliases that are not JSON, and an integer with too many digits in a JSON text.

* `Input.NoSettings`, `Input.NoJson`, `Input.NoObject`, `Input.NoDefault` — what cannot be used;
* `Input.settings_error_iff`, `Input.object_error_iff`, `Input.default_error_iff` — nothing else is
  refused;
* `Input.settings_deploymentKey` — a deployment key as an argument makes no difference to that;
* `Input.object_decoded`, `Input.default_decoded` — what is read has a form in JSON.
-/
import Rollout.Command.Input
import Rollout.Proofs.Console.Markup
import Rollout.Proofs.Json.Reading
import Rollout.Proofs.Settings.Sources

namespace Rollout

open Rollout.Text

/-- A message without tags is shown as it is. -/
theorem Ending.refuse_of_bare [Markup.Handlers] {message : String} (h : Markup.Bare message) :
    Ending.refuse message = .refused message := by
  rw [refuse, Markup.shown_of_bare h]

/-- Faults that each say how a result fails are all the faults there are, if every failure has one:
the fault that a failure has says how it fails, so it is the fault for this failure. -/
theorem eq_error_iff_of_exists {α ε : Type} {Fault : ε → Prop} {x : Except ε α} {e : ε}
    (hfault : ∀ {e}, Fault e → x = .error e) (hexists : x = .error e → ∃ found, Fault found) :
    x = .error e ↔ Fault e := by
  refine ⟨fun h => ?_, hfault⟩
  obtain ⟨found, hfound⟩ := hexists h
  have hsame : found = e := Except.error.inj ((hfault hfound).symm.trans h)
  rwa [← hsame]

namespace Input

/-! ### Settings -/

theorem textOfBytes_error {octets : List UInt8} {failure : Failure}
    (h : textOfBytes octets = .error failure) :
    ∃ octet position, failure = .malformedUtf8 octet position := by
  unfold textOfBytes at h
  split at h
  · cases h
  · cases h
    exact ⟨_, _, rfl⟩

theorem dotenvText_error_iff {s : Surroundings} {failure : Failure} :
    dotenvText s = .error failure ↔
      ∃ octets, s.dotenv = some octets ∧ textOfBytes octets = .error failure := by
  rw [dotenvText]
  cases s.dotenv with
  | none => simp
  | some octets => simp [map_eq_error_iff]

section Settings

variable [Markup.Handlers]

/-- What keeps settings from being loaded, and how a command ends on it. -/
inductive NoSettings (s : Surroundings) : Ending → Prop
  /-- The file of variables is not in UTF-8. -/
  | malformedFile {octets : List UInt8} {failure : Failure} (hfile : s.dotenv = some octets)
      (hread : textOfBytes octets = .error failure) : NoSettings s (.crashed failure)
  /-- The added aliases of the environment are not JSON. -/
  | environmentAliases {file : Option String} (hfile : dotenvText s = .ok file)
      (h : Settings.MalformedAliases (Settings.environmentVariables s.environment)) :
      NoSettings s (.crashed (.malformedSetting "extra_aliases" "EnvSettingsSource"))
  /-- The added aliases of the file of variables are not JSON. -/
  | fileAliases {file : Option String} (hfile : dotenvText s = .ok file)
      (henvironment : ¬ Settings.MalformedAliases (Settings.environmentVariables s.environment))
      (h : Settings.MalformedAliases (Settings.fileVariables s.environment file)) :
      NoSettings s (.crashed (.malformedSetting "extra_aliases" "DotEnvSettingsSource"))
  /-- The fields of all sources do not fit. -/
  | misfit {file : Option String} {paths : List Path} (hfile : dotenvText s = .ok file)
      (henvironment : ¬ Settings.MalformedAliases (Settings.environmentVariables s.environment))
      (haliases : ¬ Settings.MalformedAliases (Settings.fileVariables s.environment file))
      (h : Settings.ofMap (Settings.merged [] s.environment file) = .error paths) :
      NoSettings s (invalid s "invalid configuration: " (.invalid Settings.recordName paths))

variable {s : Surroundings} {ending : Ending}

/-- What the loading of settings gives, once the file of variables is a text. -/
theorem settings_of_file {file : Option String} (hfile : dotenvText s = .ok file)
    (arguments : Attributes) : settings s arguments
      = match Settings.load arguments s.environment file with
        | .ok settings => .ok settings
        | .error (.invalid record paths) =>
          .error (invalid s "invalid configuration: " (.invalid record paths))
        | .error failure => .error (.crashed failure) := by
  rw [settings, hfile]
  rfl

theorem NoSettings.settings_eq (h : NoSettings s ending) : settings s [] = .error ending := by
  cases h with
  | malformedFile hfile hread =>
    obtain ⟨octet, position, rfl⟩ := textOfBytes_error hread
    rw [settings, dotenvText_error_iff.mpr ⟨_, hfile, hread⟩]
    rfl
  | environmentAliases hfile h =>
    rw [settings_of_file hfile, Settings.load_of_malformed h]
  | fileAliases hfile henvironment h =>
    rw [settings_of_file hfile, Settings.load_of_malformed_file henvironment h]
  | misfit hfile henvironment haliases h =>
    rw [settings_of_file hfile, Settings.load_eq henvironment haliases, h]
    rfl

/-- Settings are not loaded exactly in these cases. -/
theorem settings_error_iff : settings s [] = .error ending ↔ NoSettings s ending := by
  refine eq_error_iff_of_exists NoSettings.settings_eq fun h => ?_
  cases hfile : dotenvText s with
  | error failure =>
    obtain ⟨octets, hoctets, hread⟩ := dotenvText_error_iff.mp hfile
    exact ⟨_, .malformedFile hoctets hread⟩
  | ok file =>
    by_cases henvironment : Settings.MalformedAliases (Settings.environmentVariables s.environment)
    · exact ⟨_, .environmentAliases hfile henvironment⟩
    by_cases haliases : Settings.MalformedAliases (Settings.fileVariables s.environment file)
    · exact ⟨_, .fileAliases hfile henvironment haliases⟩
    cases hfit : Settings.ofMap (Settings.merged [] s.environment file) with
    | error paths => exact ⟨_, .misfit hfile henvironment haliases hfit⟩
    | ok fitted =>
      rw [settings_of_file hfile, Settings.load_eq henvironment haliases, hfit] at h
      cases h

/-- With a deployment key as an argument the settings are loaded as without. -/
theorem settings_deploymentKey (s : Surroundings) (key : String) :
    settings s [(.text "deployment_key", .text key)]
      = (settings s []).map fun t => { t with deploymentKey := key } := by
  cases hfile : dotenvText s with
  | error failure =>
    obtain ⟨octets, -, hread⟩ := dotenvText_error_iff.mp hfile
    obtain ⟨octet, position, rfl⟩ := textOfBytes_error hread
    rw [settings, settings, hfile]
    rfl
  | ok file =>
    rw [settings_of_file hfile, settings_of_file hfile, Settings.load_deploymentKey]
    cases Settings.load [] s.environment file with
    | ok settings => rfl
    | error failure => cases failure <;> rfl

end Settings

/-! ### JSON texts -/

theorem bare_reason (fault : Json.Fault) : Markup.Bare fault.reason := by
  cases fault <;> decide

/-- Why an option is no JSON, and how a command ends on it. -/
inductive NoJson (option text : String) : Ending → Prop
  | malformed {e : Json.SyntaxError} (h : Json.read text = .error (.malformedJson e)) :
      NoJson option text (.refused (option ++ " is not valid JSON: " ++ e.fault.reason))
  | tooLong {digits : Nat} (h : Json.read text = .error (.numeralTooLong digits)) :
      NoJson option text (.crashed (.numeralTooLong digits))

/-- Why an option is no JSON object, and how a command ends on it. -/
inductive NoObject (option text : String) : Ending → Prop
  | noJson {ending : Ending} (h : NoJson option text ending) : NoObject option text ending
  | other {v : Value} (h : Json.read text = .ok v) (hv : ∀ entries, v ≠ .map entries) :
      NoObject option text (.refused (option ++ " must be a JSON object"))

section Texts

variable [Markup.Handlers] {option text : String} {ending : Ending}

theorem NoJson.json_eq (hoption : Markup.Bare option)
    (h : NoJson option text ending) : json option text = .error ending := by
  cases h with
  | @malformed e h =>
    have hmiddle : Markup.Bare " is not valid JSON: " := by decide
    rw [json, h]
    exact congrArg Except.error
      (Ending.refuse_of_bare ((hoption.append hmiddle).append (bare_reason e.fault)))
  | tooLong h => rw [json, h]

theorem json_eq_ok_iff {v : Value} : json option text = .ok v ↔ Json.read text = .ok v := by
  rw [json]
  cases Json.read text with
  | ok w => simp
  | error failure => cases failure <;> simp

/-- A text is not read as JSON exactly in these cases. -/
theorem json_error_iff (hoption : Markup.Bare option) :
    json option text = .error ending ↔ NoJson option text ending := by
  refine eq_error_iff_of_exists (NoJson.json_eq hoption) fun h => ?_
  cases hread : Json.read text with
  | ok v =>
    rw [json_eq_ok_iff.mpr hread] at h
    cases h
  | error failure =>
    rcases Json.read_failure hread with ⟨e, rfl⟩ | ⟨digits, rfl⟩
    · exact ⟨_, .malformed hread⟩
    · exact ⟨_, .tooLong hread⟩

theorem object_eq_ok_iff {entries : Attributes} :
    object option text = .ok entries ↔ Json.read text = .ok (.map entries) := by
  rw [object, ← @json_eq_ok_iff _ option]
  cases json option text with
  | ok v => cases v <;> simp
  | error failure => simp

theorem NoObject.object_eq (hoption : Markup.Bare option)
    (h : NoObject option text ending) : object option text = .error ending := by
  cases h with
  | noJson h => rw [object, h.json_eq hoption]
  | @other v h hv =>
    have hend : Markup.Bare " must be a JSON object" := by decide
    rw [object, json_eq_ok_iff.mpr h]
    split
    · rename_i hmap
      cases hmap
      exact absurd rfl (hv _)
    · rw [Ending.refuse_of_bare (hoption.append hend)]
    · rename_i herror
      cases herror

/-- A text is not read as a JSON object exactly in these cases. -/
theorem object_error_iff (hoption : Markup.Bare option) :
    object option text = .error ending ↔ NoObject option text ending := by
  refine eq_error_iff_of_exists (NoObject.object_eq hoption) fun h => ?_
  cases hjson : json option text with
  | error found => exact ⟨found, .noJson ((json_error_iff hoption).mp hjson)⟩
  | ok v =>
    refine ⟨_, .other (json_eq_ok_iff.mp hjson) ?_⟩
    rintro entries rfl
    rw [object_eq_ok_iff.mpr (json_eq_ok_iff.mp hjson)] at h
    cases h

/-- What is read from a JSON object has a form in JSON. -/
theorem object_decoded {entries : Attributes} (h : object option text = .ok entries) :
    Json.Decoded (.map entries) :=
  Json.read_decoded (object_eq_ok_iff.mp h)

end Texts

/-! ### Defaults -/

/-- Why a text is no default of a type, and how a command ends on it. -/
inductive NoDefault [Markup.Handlers] : FlagType → String → Ending → Prop
  | boolean {text : String} (h : truth? text = none) :
      NoDefault .boolean text (unusable "true or false" text)
  | integer {text : String} (h : Numeral.lenientInteger? isBlank digit? text.toList = none) :
      NoDefault .integer text (unusable "an integer" text)
  | float {text : String} (h : Numeral.lenientFloat? isBlank digit? text.toList = none) :
      NoDefault .float text (unusable "a number" text)
  | object {text : String} {ending : Ending} (h : NoJson "--default" text ending) :
      NoDefault .object text ending

theorem decoded_lenientFloat? {cs : List Char} {x : Binary64}
    (h : Numeral.lenientFloat? isBlank digit? cs = some x) : Json.Decoded (.float x) := by
  obtain ⟨tidied, -, hfloat⟩ := Option.bind_eq_some_iff.mp h
  split at hfloat
  · cases hfloat
    exact Json.decoded_ofScaled _ _ _
  · -- The words stand for infinities and for no number at all.
    simp only [Numeral.special?] at hfloat
    split at hfloat
    · cases hfloat
      exact .float _ nofun
    · split at hfloat
      · cases hfloat
        exact .float _ nofun
      · cases hfloat

section Default

variable [Markup.Handlers] {type : FlagType} {ending : Ending} {v : Value}

theorem NoDefault.givenDefault_eq {text : String} (h : NoDefault type text ending) :
    givenDefault type text = .error ending := by
  cases h with
  | boolean h | integer h | float h => rw [givenDefault, h]
  | object h => exact h.json_eq (by decide)

theorem givenDefault_error_iff {text : String} :
    givenDefault type text = .error ending ↔ NoDefault type text ending := by
  refine eq_error_iff_of_exists NoDefault.givenDefault_eq fun h => ?_
  cases type with
  | string => cases h
  | boolean =>
    cases htruth : truth? text with
    | none => exact ⟨_, .boolean htruth⟩
    | some b =>
      rw [givenDefault, htruth] at h
      cases h
  | integer =>
    cases hnumber : Numeral.lenientInteger? isBlank digit? text.toList with
    | none => exact ⟨_, .integer hnumber⟩
    | some n =>
      rw [givenDefault, hnumber] at h
      cases h
  | float =>
    cases hnumber : Numeral.lenientFloat? isBlank digit? text.toList with
    | none => exact ⟨_, .float hnumber⟩
    | some x =>
      rw [givenDefault, hnumber] at h
      cases h
  | object => exact ⟨_, .object ((json_error_iff (by decide)).mp h)⟩

/-- A default cannot be used exactly in these cases; none is given for each type. -/
theorem default_error_iff {given : Option String} :
    default type given = .error ending ↔ ∃ text, given = some text ∧ NoDefault type text ending := by
  cases given with
  | none => simp [default]
  | some text => simp [default, givenDefault_error_iff]

theorem givenDefault_decoded {text : String} (h : givenDefault type text = .ok v) :
    Json.Decoded v := by
  cases type with
  | string =>
    cases h
    exact .text text
  | boolean =>
    rw [givenDefault] at h
    split at h
    · cases h
      exact .bool _
    · cases h
  | integer =>
    rw [givenDefault] at h
    split at h
    · rename_i hn
      cases h
      exact .int _ (Json.shortInt_lenientInteger? (fun c d => digit?_le) hn)
    · cases h
  | float =>
    rw [givenDefault] at h
    split at h
    · rename_i hx
      cases h
      exact decoded_lenientFloat? hx
    · cases h
  | object => exact Json.read_decoded (json_eq_ok_iff.mp h)

/-- A default has a form in JSON. -/
theorem default_decoded {given : Option String} (h : default type given = .ok v) :
    Json.Decoded v := by
  cases given with
  | some text => exact givenDefault_decoded h
  | none =>
    cases h
    cases type with
    | boolean => exact .bool false
    | string => exact .text ""
    | integer => exact .int 0 (by rw [ShortInt]; decide)
    | float => exact Json.decoded_ofScaled false 0 0
    | object => exact .null

end Default

end Input

end Rollout
