/-
What keeps a command from being carried out.

A command line is looked at in stages: the line itself, the settings, the log level, the arguments of
the command, and then what the command is given and what it prints.  Each stage has its own faults.
They are conditions on the input alone, and say how the command ends if nothing comes before them.

* `Stage` — the stages in their order;
* `Halt` — the faults of each stage, with how a command ends on them;
* `Halt.unique` — a stage ends a command in one way only;
* `Unhandled`, `Halt.faulted` — the failures that nothing handles.
-/
import Rollout.Proofs.Command.Offline
import Rollout.Proofs.Command.Printing

namespace Rollout.Command

open Rollout.Text Rollout.Input Rollout.Markup

/-- What a command line is looked at for, in this order. -/
inductive Stage
  | commandLine | settings | logLevel | arguments | context | default | variantsText | variants
  | deploymentKey | aliases | printing
deriving DecidableEq, Repr

/-- The place of a stage among the stages. -/
def Stage.rank (stage : Stage) : Nat := stage.ctorIdx

theorem Stage.rank_injective {a b : Stage} (h : a.rank = b.rank) : a = b := by
  cases a <;> cases b <;> first | rfl | cases h

/-- What a command line asks for. -/
def Asks (s : Surroundings) (args : List String) (request : Request) : Prop :=
  ∃ line, CommandLine.read args = .ok line ∧ Request.read s line.command line.args = .ok request

section Conditions

variable [Handlers] (s : Surroundings)

/-- The outcome of an evaluation. -/
def Evaluates (r : EvaluationRequest) (o : Outcome) : Prop :=
  ∃ p state default context, prepare s r = .ok ((p, state), default, context) ∧
    (Offline.evaluate p state r.type r.flag default context .fresh).1 = .ok o

/-- The texts with tags that a request has printed. -/
inductive Texts : Request → List String → Prop
  | aliases (key : String) : Texts (.aliases key false) (spellingTexts key)
  | normalize {context : String} {attributes : Attributes}
      (h : Json.read context = .ok (.map attributes)) (shape : Shape) :
      Texts (.normalize context shape false)
        (normalizedTexts (Rollout.normalize .standard shape attributes))
  | evaluate {r : EvaluationRequest} {o : Outcome} (hjson : r.json = false)
      (h : Evaluates s r o) : Texts (.evaluate r) (summaryTexts r o)

end Conditions

/-- The context that a request is given. -/
def contextOf : Request → Option String
  | .aliases _ _ => none
  | .normalize context _ _ => some context
  | .evaluate r => some r.context

/-- The name of the log level that counts, in upper case. -/
def levelName (line : CommandLine) (settings : Settings) : String :=
  upper ((line.logLevel.filter (· ≠ "")).getD settings.logLevel)

/-- The first entry that is no variant fails in a way. -/
def FirstMisfit (entries : Attributes) (f : Failure) : Prop :=
  ∃ before e after, entries = before ++ e :: after ∧
    (∀ x ∈ before, ∃ v, Variant.ofValue x.2 = .ok v) ∧ Variant.ofValue e.2 = .error f

/-- What keeps a command from being carried out at a stage, and how it ends then. -/
inductive Halt [Handlers] (s : Surroundings) (args : List String) : Stage → Ending → Prop
  /-- The command line asks for help or for completion, or cannot be understood. -/
  | commandLine {refusal : Refusal} (h : CommandLine.read args = .error refusal) :
      Halt s args .commandLine (refusalEnding s refusal)
  /-- The settings cannot be loaded. -/
  | settings {line : CommandLine} {ending : Ending} (hline : CommandLine.read args = .ok line)
      (h : NoSettings s ending) : Halt s args .settings ending
  /-- The log level has no name that is known. -/
  | logLevel {line : CommandLine} {settings : Settings} (hline : CommandLine.read args = .ok line)
      (hsettings : Input.settings s [] = .ok settings)
      (h : thresholds.lookup (levelName line settings) = none) :
      Halt s args .logLevel (.crashed (.noLogLevel (levelName line settings)))
  /-- The arguments of the command ask for help or cannot be understood. -/
  | arguments {line : CommandLine} {refusal : Refusal} (hline : CommandLine.read args = .ok line)
      (h : Request.read s line.command line.args = .error refusal) :
      Halt s args .arguments (refusalEnding s refusal)
  /-- The context is no JSON object. -/
  | context {request : Request} {text : String} {ending : Ending} (hrequest : Asks s args request)
      (htext : contextOf request = some text) (h : NoObject "--context" text ending) :
      Halt s args .context ending
  /-- The default is not of its type. -/
  | default {r : EvaluationRequest} {text : String} {ending : Ending}
      (hrequest : Asks s args (.evaluate r)) (htext : r.default = some text)
      (h : NoDefault r.type text ending) : Halt s args .default ending
  /-- The file of variants is no JSON object. -/
  | variantsText {r : EvaluationRequest} {ending : Ending} (hrequest : Asks s args (.evaluate r))
      (h : NoObject "--variants" r.variants ending) : Halt s args .variantsText ending
  /-- An entry of the file of variants is no variant. -/
  | variants {r : EvaluationRequest} {entries : Attributes} {f : Failure}
      (hrequest : Asks s args (.evaluate r)) (hentries : Json.read r.variants = .ok (.map entries))
      (h : FirstMisfit entries f) :
      Halt s args .variants (Input.invalid s "invalid variants file: " f)
  /-- The deployment key is empty. -/
  | deploymentKey {r : EvaluationRequest} (hrequest : Asks s args (.evaluate r))
      (h : r.deploymentKey = "") :
      Halt s args .deploymentKey (.refused "deployment key must not be empty")
  /-- An added alias stands for no key. -/
  | aliases {r : EvaluationRequest} {settings : Settings} {name : String}
      (hrequest : Asks s args (.evaluate r)) (hsettings : Input.settings s [] = .ok settings)
      (h : settings.UnknownTarget name) :
      Halt s args .aliases
        (.refuse ("unknown canonical key in alias configuration: " ++ quoted name))
  /-- A text to be printed holds tags that are not in order. -/
  | printing {request : Request} {texts : List String} {f : Failure}
      (hrequest : Asks s args request) (htexts : Texts s request texts) (h : Blocked texts f) :
      Halt s args .printing (.crashed f)

/-! ### What a command line asks for, and what it prints -/

theorem Asks.unique {s : Surroundings} {args : List String} {request other : Request}
    (h : Asks s args request) (h' : Asks s args other) : request = other := by
  obtain ⟨line, hline, hread⟩ := h
  obtain ⟨line', hline', hread'⟩ := h'
  cases hline.symm.trans hline'
  exact Except.ok.inj (hread.symm.trans hread')

theorem not_asks_of_refusal {s : Surroundings} {args : List String} {refusal : Refusal}
    (h : CommandLine.read args = .error refusal) (request : Request) : ¬ Asks s args request := by
  rintro ⟨line, hline, -⟩
  cases h.symm.trans hline

theorem not_asks_of_arguments {s : Surroundings} {args : List String} {line : CommandLine}
    {refusal : Refusal} (hline : CommandLine.read args = .ok line)
    (h : Request.read s line.command line.args = .error refusal) (request : Request) :
    ¬ Asks s args request := by
  rintro ⟨line', hline', hread⟩
  cases hline.symm.trans hline'
  cases h.symm.trans hread

theorem ofFlags_error_iff {entries : Attributes} {f : Failure} :
    Variant.ofFlags (entries.map fun (flag, v) => (flag.display, v)) = .error f ↔
      FirstMisfit entries f := by
  induction entries with
  | nil =>
    constructor
    · intro h
      cases h
    · rintro ⟨before, e, after, hsplit, -⟩
      cases before <;> cases hsplit
  | cons e rest ih =>
    rw [List.map_cons, Variant.ofFlags]
    cases hv : Variant.ofValue e.2 with
    | error failure =>
      constructor
      · intro h
        cases h
        exact ⟨[], e, rest, rfl, List.forall_mem_nil _, hv⟩
      · rintro ⟨before, x, after, hsplit, hbefore, hx⟩
        cases before with
        | nil =>
          cases hsplit
          cases hv.symm.trans hx
          rfl
        | cons y before =>
          cases hsplit
          obtain ⟨v, hv'⟩ := hbefore e List.mem_cons_self
          cases hv.symm.trans hv'
    | ok variant =>
      dsimp only
      rw [map_eq_error_iff, ih]
      constructor
      · rintro ⟨before, x, after, rfl, hbefore, hx⟩
        exact ⟨e :: before, x, after, rfl, List.forall_mem_cons.mpr ⟨⟨variant, hv⟩, hbefore⟩, hx⟩
      · rintro ⟨before, x, after, hsplit, hbefore, hx⟩
        cases before with
        | nil =>
          cases hsplit
          cases hv.symm.trans hx
        | cons y before =>
          cases hsplit
          exact ⟨before, x, after, rfl, (List.forall_mem_cons.mp hbefore).2, hx⟩

theorem bare_context : Bare "--context" := by decide

theorem bare_variants : Bare "--variants" := by decide

section Unique

variable [Handlers] {s : Surroundings}

theorem Evaluates.unique {r : EvaluationRequest} {o o' : Outcome} (h : Evaluates s r o)
    (h' : Evaluates s r o') : o = o' := by
  obtain ⟨p, state, default, context, hprepare, ho⟩ := h
  obtain ⟨p', state', default', context', hprepare', ho'⟩ := h'
  cases hprepare.symm.trans hprepare'
  exact Except.ok.inj (ho.symm.trans ho')

theorem Texts.unique {request : Request} {texts others : List String} (h : Texts s request texts)
    (h' : Texts s request others) : texts = others := by
  cases h with
  | aliases key =>
    cases h'
    rfl
  | normalize h shape =>
    cases h' with
    | normalize h' _ =>
      cases h.symm.trans h'
      rfl
  | evaluate _ h =>
    cases h' with
    | evaluate _ h' => rw [h.unique h']

end Unique

/-! ### What each stage checks -/

/-- How the log level of a command line is found. -/
theorem logStyle_eq (line : CommandLine) (settings : Settings) : logStyle line settings
    = match thresholds.lookup (levelName line settings) with
      | some rank => .ok ⟨settings.logsJson, rank, Provider.name, true⟩
      | none => .error (.crashed (.noLogLevel (levelName line settings))) := by
  have hlevel : ∀ name, threshold name = match thresholds.lookup (upper name) with
      | some rank => .ok rank
      | none => .error (.noLogLevel (upper name)) := fun _ => rfl
  rw [logStyle, levelName]
  cases line.logLevel with
  | none =>
    simp only [hlevel, Option.filter_none, Option.getD_none]
    cases thresholds.lookup _ <;> rfl
  | some level =>
    by_cases hempty : level = ""
    · simp only [hlevel, hempty, Option.filter_some, if_true, ne_eq, not_true_eq_false, decide_false,
        Bool.false_eq_true, if_false, Option.getD_none]
      cases thresholds.lookup _ <;> rfl
    · simp only [hlevel, hempty, Option.filter_some, if_false, ne_eq, not_false_eq_true, decide_true,
        if_true, Option.getD_some]
      cases thresholds.lookup _ <;> rfl

section Checks

variable [Handlers] {s : Surroundings} {args : List String} {line : CommandLine} {settings : Settings}
  {r : EvaluationRequest} {entries : Attributes}

theorem variantsOf_error_iff {entries : Attributes} {ending : Ending} :
    variantsOf s entries = .error ending ↔
      ∃ f, FirstMisfit entries f ∧ ending = Input.invalid s "invalid variants file: " f := by
  simp only [variantsOf, ← ofFlags_error_iff]
  cases Variant.ofFlags _ <;> simp [eq_comm]

theorem halt_commandLine_iff (ending : Ending) : Halt s args .commandLine ending ↔
    (CommandLine.read args).mapError (refusalEnding s) = .error ending := by
  constructor
  · rintro ⟨h⟩
    rw [h]
    rfl
  · intro h
    cases hread : CommandLine.read args with
    | ok line =>
      rw [hread] at h
      cases h
    | error refusal =>
      rw [hread] at h
      cases h
      exact .commandLine hread

theorem halt_settings_iff (hline : CommandLine.read args = .ok line) (ending : Ending) :
    Halt s args .settings ending ↔ Input.settings s [] = .error ending := by
  rw [settings_error_iff]
  constructor
  · intro hhalt
    cases hhalt with
    | settings _ hno => exact hno
  · exact .settings hline

theorem halt_logLevel_iff (hline : CommandLine.read args = .ok line)
    (hsettings : Input.settings s [] = .ok settings) (ending : Ending) :
    Halt s args .logLevel ending ↔ logStyle line settings = .error ending := by
  rw [logStyle_eq]
  constructor
  · intro h
    cases h with
    | logLevel hline' hsettings' h =>
      cases hline.symm.trans hline'
      cases hsettings.symm.trans hsettings'
      rw [h]
  · intro h
    split at h
    · cases h
    · rename_i hnone
      cases h
      exact .logLevel hline hsettings hnone

theorem halt_arguments_iff (hline : CommandLine.read args = .ok line) (ending : Ending) :
    Halt s args .arguments ending ↔
      (Request.read s line.command line.args).mapError (refusalEnding s) = .error ending := by
  constructor
  · intro h
    cases h with
    | arguments hline' h =>
      cases hline.symm.trans hline'
      rw [h]
      rfl
  · intro h
    cases hread : Request.read s line.command line.args with
    | ok request =>
      rw [hread] at h
      cases h
    | error refusal =>
      rw [hread] at h
      cases h
      exact .arguments hline hread

theorem halt_context_iff {request : Request} (h : Asks s args request) {text : String}
    (htext : contextOf request = some text) (ending : Ending) :
    Halt s args .context ending ↔ Input.object "--context" text = .error ending := by
  rw [object_error_iff bare_context]
  constructor
  · intro hhalt
    cases hhalt with
    | context h' htext' hno =>
      cases h.unique h'
      cases htext.symm.trans htext'
      exact hno
  · exact .context h htext

theorem halt_default_iff (h : Asks s args (.evaluate r)) (ending : Ending) :
    Halt s args .default ending ↔ Input.default r.type r.default = .error ending := by
  rw [default_error_iff]
  constructor
  · intro hhalt
    cases hhalt with
    | default h' htext hno =>
      cases h.unique h'
      exact ⟨_, htext, hno⟩
  · rintro ⟨text, htext, hno⟩
    exact .default h htext hno

theorem halt_variantsText_iff (h : Asks s args (.evaluate r)) (ending : Ending) :
    Halt s args .variantsText ending ↔ Input.object "--variants" r.variants = .error ending := by
  rw [object_error_iff bare_variants]
  constructor
  · intro hhalt
    cases hhalt with
    | variantsText h' hno =>
      cases h.unique h'
      exact hno
  · exact .variantsText h

theorem halt_variants_iff (h : Asks s args (.evaluate r))
    (hentries : Input.object "--variants" r.variants = .ok entries) (ending : Ending) :
    Halt s args .variants ending ↔ variantsOf s entries = .error ending := by
  rw [variantsOf_error_iff]
  have hread := object_eq_ok_iff.mp hentries
  constructor
  · intro hhalt
    cases hhalt with
    | variants h' hread' hmisfit =>
      cases h.unique h'
      cases hread.symm.trans hread'
      exact ⟨_, hmisfit, rfl⟩
  · rintro ⟨f, hmisfit, rfl⟩
    exact .variants h hread hmisfit

end Checks

/-! ### A stage ends a command in one way -/

section Single

variable [Handlers] {s : Surroundings} {args : List String} {stage : Stage} {ending other : Ending}

theorem eq_of_check {α : Type} {result : Except Ending α}
    (hhalt : ∀ ending, Halt s args stage ending ↔ result = .error ending)
    (h : Halt s args stage ending) (h' : Halt s args stage other) : ending = other :=
  Except.error.inj (((hhalt ending).mp h).symm.trans ((hhalt other).mp h'))

/-- A stage ends a command in one way only. -/
theorem Halt.unique (h : Halt s args stage ending) (h' : Halt s args stage other) :
    ending = other := by
  have hhalt := h
  cases h with
  | commandLine => exact eq_of_check halt_commandLine_iff hhalt h'
  | settings hline => exact eq_of_check (halt_settings_iff hline) hhalt h'
  | logLevel hline hsettings => exact eq_of_check (halt_logLevel_iff hline hsettings) hhalt h'
  | arguments hline => exact eq_of_check (halt_arguments_iff hline) hhalt h'
  | context hrequest htext => exact eq_of_check (halt_context_iff hrequest htext) hhalt h'
  | default hrequest => exact eq_of_check (halt_default_iff hrequest) hhalt h'
  | variantsText hrequest => exact eq_of_check (halt_variantsText_iff hrequest) hhalt h'
  | variants hrequest hentries =>
    exact eq_of_check (halt_variants_iff hrequest (object_eq_ok_iff.mpr hentries)) hhalt h'
  | deploymentKey =>
    cases h'
    rfl
  | aliases _ hsettings h =>
    cases h' with
    | aliases _ hsettings' h' =>
      cases hsettings.symm.trans hsettings'
      rw [h.unique h']
  | printing hrequest htexts h =>
    cases h' with
    | printing hrequest' htexts' h' =>
      cases hrequest.unique hrequest'
      cases htexts.unique htexts'
      rw [h.unique h']

end Single

/-! ### Failures that nothing handles -/

/-- The failures that a command does not handle. -/
inductive Unhandled [Handlers] : Failure → Prop
  /-- The file of variables is not in UTF-8. -/
  | malformedUtf8 (octet : UInt8) (position : Nat) : Unhandled (.malformedUtf8 octet position)
  /-- The added aliases are not JSON. -/
  | malformedSetting (source : String) : Unhandled (.malformedSetting "extra_aliases" source)
  /-- The log level has no name that is known. -/
  | noLogLevel (name : String) : Unhandled (.noLogLevel name)
  /-- A JSON text holds an integer with too many digits. -/
  | numeralTooLong (digits : Nat) : Unhandled (.numeralTooLong digits)
  /-- A message or another text holds tags that are not in order. -/
  | malformed {f : Failure} (h : Malformed f) : Unhandled f
  /-- The shell is asked to complete commands, and cannot. -/
  | noCompletion : Unhandled .noCompletion

/-- A command ends with a refusal, or with a failure that it does not handle. -/
inductive Faulted [Handlers] : Ending → Prop
  | refused (message : String) : Faulted (.refused message)
  | crashed {f : Failure} (h : Unhandled f) : Faulted (.crashed f)

section Faulted

variable [Handlers] {s : Surroundings} {args : List String} {ending : Ending}

theorem faulted_refuse (message : String) : Faulted (.refuse message) := by
  rw [Ending.refuse]
  split
  · exact .refused _
  · rename_i hshown
    exact .crashed (.malformed (shown_failure hshown))

theorem faulted_noSettings (h : NoSettings s ending) : Faulted ending := by
  cases h with
  | malformedFile _ hread =>
    obtain ⟨octet, position, rfl⟩ := textOfBytes_error hread
    exact .crashed (.malformedUtf8 octet position)
  | environmentAliases | fileAliases => exact .crashed (.malformedSetting _)
  | misfit => exact faulted_refuse _

theorem faulted_noJson {option text : String} (h : NoJson option text ending) : Faulted ending := by
  cases h with
  | malformed => exact .refused _
  | tooLong => exact .crashed (.numeralTooLong _)

theorem faulted_noObject {option text : String} (h : NoObject option text ending) :
    Faulted ending := by
  cases h with
  | noJson h => exact faulted_noJson h
  | other => exact .refused _

theorem faulted_noDefault {type : FlagType} {text : String} (h : NoDefault type text ending) :
    Faulted ending := by
  cases h with
  | boolean | integer | float => exact faulted_refuse _
  | object h => exact faulted_noJson h

theorem refusalEnding_cases (s : Surroundings) (refusal : Refusal) :
    (refusalEnding s refusal = .helped ∨ refusalEnding s refusal = .misused) ∨
      Faulted (refusalEnding s refusal) := by
  cases refusal with
  | help => exact .inl (.inl rfl)
  | misuse => exact .inl (.inr rfl)
  | completion option =>
    rw [refusalEnding]
    split
    · exact .inl (.inl rfl)
    · exact .inr (.crashed .noCompletion)

/-- A fault that is none of how the command line is written ends the command so. -/
theorem Halt.faulted {stage : Stage} (h : Halt s args stage ending) :
    ((stage = .commandLine ∨ stage = .arguments) ∧ (ending = .helped ∨ ending = .misused)) ∨
      Faulted ending := by
  cases h with
  | commandLine => exact (refusalEnding_cases s _).imp_left fun h => ⟨.inl rfl, h⟩
  | arguments => exact (refusalEnding_cases s _).imp_left fun h => ⟨.inr rfl, h⟩
  | settings _ h => exact .inr (faulted_noSettings h)
  | logLevel => exact .inr (.crashed (.noLogLevel _))
  | context _ _ h | variantsText _ h => exact .inr (faulted_noObject h)
  | default _ _ h => exact .inr (faulted_noDefault h)
  | variants | aliases => exact .inr (faulted_refuse _)
  | deploymentKey => exact .inr (.refused _)
  | printing _ _ h => exact .inr (.crashed (.malformed h.malformed))

end Faulted

end Rollout.Command
