/-
How commands end.

The first thing that keeps a command from being carried out decides how it ends.  Without one it ends
well, or as negative if it evaluates a flag and the outcome is an error.  So the status is two when the
first fault is refused, and one when nothing handles it or the outcome is an error.

* `FirstHalt`, `Clear` — the fault that comes first, and no fault at all;
* `Ends` — how a command line ends;
* `run_ends` — every command line ends so.
-/
import Rollout.Proofs.Command.Halt
import Rollout.Proofs.Command.Logged

namespace Rollout.Command

open Rollout.Text Rollout.Input Rollout.Markup

/-- What keeps a command from being carried out before anything else does. -/
def FirstHalt [Handlers] (s : Surroundings) (args : List String) (stage : Stage) (ending : Ending) :
    Prop :=
  Halt s args stage ending ∧
    ∀ other ending, Halt s args other ending → stage.rank ≤ other.rank

/-- Nothing keeps a command from being carried out. -/
def Clear [Handlers] (s : Surroundings) (args : List String) : Prop :=
  ∀ stage ending, ¬ Halt s args stage ending

/-- The command evaluates a flag, and the outcome is an error. -/
def Fails [Handlers] (s : Surroundings) (args : List String) : Prop :=
  ∃ r o, Asks s args (.evaluate r) ∧ Evaluates s r o ∧ o.reason = .error

/-- How a command line ends. -/
inductive Ends [Handlers] (s : Surroundings) (args : List String) : Ending → Prop
  | halted {stage : Stage} {ending : Ending} (h : FirstHalt s args stage ending) :
      Ends s args ending
  | negative (hclear : Clear s args) (h : Fails s args) : Ends s args .negative
  | finished (hclear : Clear s args) (h : ¬ Fails s args) : Ends s args .finished

section Stages

variable [Handlers] {s : Surroundings} {args : List String}

/-- Nothing happens at the stages before a place. -/
def Passes (s : Surroundings) (args : List String) (place : Nat) : Prop :=
  ∀ stage ending, Halt s args stage ending → place ≤ stage.rank

theorem passes_commandLine : Passes s args Stage.commandLine.rank := fun _ _ _ => Nat.zero_le _

theorem Passes.next {stage : Stage} (h : Passes s args stage.rank)
    (hno : ∀ ending, ¬ Halt s args stage ending) : Passes s args (stage.rank + 1) := by
  intro other ending hother
  rcases (h other ending hother).lt_or_eq with hlt | heq
  · exact hlt
  · cases Stage.rank_injective heq
    exact absurd hother (hno ending)

theorem Passes.ends {stage : Stage} {ending : Ending} (h : Passes s args stage.rank)
    (hhalt : Halt s args stage ending) : Ends s args ending :=
  .halted ⟨hhalt, h⟩

/-- A stage whose faults are those of a check ends the command, or is passed. -/
theorem Passes.check {α : Type} (stage : Stage) (h : Passes s args stage.rank)
    {result : Except Ending α}
    (hhalt : ∀ ending, Halt s args stage ending ↔ result = .error ending) :
    (∃ ending, result = .error ending ∧ Ends s args ending) ∨
      ∃ a, result = .ok a ∧ Passes s args (stage.rank + 1) := by
  cases hresult : result with
  | error ending => exact .inl ⟨ending, rfl, h.ends ((hhalt ending).mpr hresult)⟩
  | ok a =>
    refine .inr ⟨a, rfl, h.next fun ending hfault => ?_⟩
    cases hresult.symm.trans ((hhalt ending).mp hfault)

theorem Passes.clear (h : Passes s args 11) : Clear s args := by
  intro stage ending hhalt
  have hplace := h stage ending hhalt
  cases stage <;> exact absurd hplace (by decide)

end Stages

/-! ### What is carried out -/

section Requests

variable [Handlers] {s : Surroundings} {args : List String}

/-- Nothing happens after the arguments are read but what the request asks for. -/
theorem passes_of_aliases {key : String} {json : Bool} (h : Asks s args (.aliases key json))
    (hpasses : Passes s args Stage.context.rank) : Passes s args Stage.printing.rank := by
  intro stage ending hhalt
  have hplace := hpasses stage ending hhalt
  cases hhalt with
  | commandLine | settings | logLevel | arguments => exact absurd hplace (by decide)
  | context h' htext _ =>
    cases h.unique h'
    cases htext
  | default h' | variantsText h' | variants h' | deploymentKey h' | aliases h' =>
    cases h.unique h'
  | printing => exact le_rfl

theorem passes_of_normalize {context : String} {shape : Shape} {json : Bool}
    (h : Asks s args (.normalize context shape json)) (hpasses : Passes s args Stage.default.rank) :
    Passes s args Stage.printing.rank := by
  intro stage ending hhalt
  have hplace := hpasses stage ending hhalt
  cases hhalt with
  | commandLine | settings | logLevel | arguments | context => exact absurd hplace (by decide)
  | default h' | variantsText h' | variants h' | deploymentKey h' | aliases h' =>
    cases h.unique h'
  | printing => exact le_rfl

/-- Once the texts are known that a request prints, only they can keep it from being carried out. -/
theorem ends_of_prints {request : Request} (h : Asks s args request) {texts : List String}
    (htexts : Texts s request texts) (hpasses : Passes s args Stage.printing.rank)
    {otherwise ending : Ending} (hprints : Prints texts otherwise ending)
    (hends : Clear s args → Ends s args otherwise) : Ends s args ending := by
  cases hprints with
  | shown hshown =>
    refine hends (Passes.clear (hpasses.next fun ending hhalt => ?_))
    cases hhalt with
    | printing h' htexts' hblocked =>
      cases h.unique h'
      cases htexts.unique htexts'
      exact hblocked.not_forall_showable hshown
  | blocked hblocked => exact hpasses.ends (.printing h htexts hblocked)

theorem clear_of_no_texts {request : Request} (h : Asks s args request)
    (hno : ∀ texts, ¬ Texts s request texts) (hpasses : Passes s args Stage.printing.rank) :
    Clear s args := by
  refine Passes.clear (hpasses.next fun ending hhalt => ?_)
  cases hhalt with
  | printing h' htexts _ =>
    cases h.unique h'
    exact hno _ htexts

theorem not_fails_of_asks {request : Request} (h : Asks s args request)
    (hother : ∀ r, request ≠ .evaluate r) : ¬ Fails s args := by
  rintro ⟨r, o, h', -⟩
  exact hother r (h.unique h')

/-- How the listing of spellings ends. -/
theorem ends_aliases {key : String} {json : Bool} (h : Asks s args (.aliases key json))
    (hpasses : Passes s args Stage.context.rank) : Ends s args (aliases key json).ending := by
  have hlast := passes_of_aliases h hpasses
  have hfinished : Clear s args → Ends s args .finished :=
    fun hclear => .finished hclear (not_fails_of_asks h nofun)
  cases json with
  | true =>
    rw [ending_aliases_json]
    exact hfinished (clear_of_no_texts h nofun hlast)
  | false => exact ends_of_prints h (.aliases key) hlast (prints_aliases key) hfinished

/-- How the sorting of a context ends. -/
theorem ends_normalize {context : String} {shape : Shape} {json : Bool}
    (h : Asks s args (.normalize context shape json))
    (hpasses : Passes s args Stage.context.rank) :
    Ends s args (normalize context shape json).ending := by
  rcases Passes.check .context hpasses (halt_context_iff h rfl) with
    ⟨ending, hobject, hends⟩ | ⟨attributes, hobject, hpasses⟩
  · rwa [normalize, hobject]
  · have hlast := passes_of_normalize h hpasses
    have hfinished : Clear s args → Ends s args .finished :=
      fun hclear => .finished hclear (not_fails_of_asks h nofun)
    cases json with
    | true =>
      rw [ending_normalize_json hobject]
      exact hfinished (clear_of_no_texts h nofun hlast)
    | false =>
      exact ends_of_prints h (.normalize (object_eq_ok_iff.mp hobject) shape) hlast
        (prints_normalize hobject shape) hfinished

end Requests

/-! ### Evaluations -/

section Evaluation

variable [Handlers] {s : Surroundings} {args : List String} {r : EvaluationRequest}

theorem decoded_variantsOf {text : String} {entries : Attributes} {variants : Variants}
    (hentries : Input.object "--variants" text = .ok entries)
    (h : variantsOf s entries = .ok variants) : ∀ e ∈ variants, e.2.Decoded := by
  have hflags : Variant.ofFlags (entries.map fun e => (e.1.display, e.2)) = .ok variants := by
    simp only [variantsOf] at h
    split at h
    · rename_i hflags
      cases h
      exact hflags
    · cases h
  exact Variant.decoded_ofFlags hflags
    (List.forall_mem_map.mpr (Input.object_decoded hentries).values)

theorem evaluate_of_error (ending : Ending) (h : prepare s r = .error ending) :
    (evaluate s r).ending = ending := by
  rw [evaluate, h]
  rfl

/-- How an evaluation ends that has an outcome. -/
theorem ends_of_evaluates (h : Asks s args (.evaluate r)) {o : Outcome} (ho : Evaluates s r o)
    (hdecoded : o.Decoded) (hpasses : Passes s args Stage.printing.rank) :
    Ends s args (showOutcome r o).ending := by
  have hends : Clear s args → Ends s args (outcomeEnding o) := by
    intro hclear
    have hfails : Fails s args ↔ o.reason = .error := by
      constructor
      · rintro ⟨r', o', h', ho', hreason⟩
        cases h.unique h'
        rwa [ho.unique ho']
      · exact fun hreason => ⟨r, o, h, ho, hreason⟩
    cases o with
    | failed => exact .negative hclear (hfails.mpr rfl)
    | resolved | defaulted => exact .finished hclear fun hfail => nomatch hfails.mp hfail
  cases hjson : r.json with
  | true =>
    rw [ending_showOutcome_json hdecoded hjson]
    refine hends (clear_of_no_texts h ?_ hpasses)
    intro texts htexts
    cases htexts with
    | evaluate hplain _ => cases hjson.symm.trans hplain
  | false =>
    exact ends_of_prints h (.evaluate hjson ho) hpasses (prints_showOutcome hdecoded hjson) hends

/-- How an evaluation ends that has a provider. -/
theorem ends_of_provider (h : Asks s args (.evaluate r)) {p : Provider Offline}
    {state : Provider.State} {default : Value} {context : Attributes}
    (hprepare : prepare s r = .ok ((p, state), default, context)) (hdefault : Json.Decoded default)
    {settings : Settings} {variants : Variants}
    (hprovider : providerOf settings variants = .ok (p, state))
    (hvariants : ∀ e ∈ variants, e.2.Decoded) (hpasses : Passes s args Stage.printing.rank) :
    Ends s args (evaluate s r).ending := by
  obtain ⟨o, ho, hdecoded⟩ := Offline.evaluate_decoded (provider_of_providerOf hprovider) hvariants
    hdefault r.type r.flag context
  have hresult : (evaluate s r).ending = (showOutcome r o).ending := by
    rw [evaluate, hprepare]
    dsimp only
    rw [show Offline.evaluate p state r.type r.flag default context .fresh = (.ok o, _) from
      Prod.ext ho rfl]
  rw [hresult]
  exact ends_of_evaluates h ⟨p, state, default, context, hprepare, ho⟩ hdecoded hpasses

/-- The deployment key and the added aliases are looked at when the provider is made. -/
theorem ends_or_passes_provider (h : Asks s args (.evaluate r)) {settings : Settings}
    (hsettings : Input.settings s [] = .ok settings)
    (hpasses : Passes s args Stage.deploymentKey.rank) (variants : Variants) :
    (∃ ending, providerOf { settings with deploymentKey := r.deploymentKey } variants
        = .error ending ∧ Ends s args ending) ∨
      ∃ made, providerOf { settings with deploymentKey := r.deploymentKey } variants = .ok made ∧
        Passes s args Stage.printing.rank := by
  by_cases hkey : r.deploymentKey = ""
  · exact .inl ⟨_, providerOf_error_iff.mpr (.inl ⟨hkey, rfl⟩),
      hpasses.ends (.deploymentKey h hkey)⟩
  have hpasses : Passes s args Stage.aliases.rank := hpasses.next fun ending hhalt => by
    cases hhalt with
    | deploymentKey h' hempty =>
      cases h.unique h'
      exact hkey hempty
  refine Passes.check .aliases hpasses fun ending => ?_
  rw [providerOf_error_iff]
  constructor
  · intro hhalt
    cases hhalt with
    | aliases h' hsettings' hname =>
      cases hsettings.symm.trans hsettings'
      exact .inr ⟨hkey, _, hname, rfl⟩
  · rintro (⟨hempty, -⟩ | ⟨-, name, hname, hending⟩)
    · exact absurd hempty hkey
    · rw [hending]
      exact .aliases h hsettings hname

/-- How the evaluation of a flag ends. -/
theorem ends_evaluate (h : Asks s args (.evaluate r)) {settings : Settings}
    (hsettings : Input.settings s [] = .ok settings) (hpasses : Passes s args Stage.context.rank) :
    Ends s args (evaluate s r).ending := by
  -- The settings are loaded once more, now with the deployment key, and without fail.
  have hloaded : Input.settings s [(.text "deployment_key", .text r.deploymentKey)]
      = .ok { settings with deploymentKey := r.deploymentKey } := by
    rw [settings_deploymentKey, hsettings]
    rfl
  rcases Passes.check .context hpasses (halt_context_iff h rfl) with
    ⟨ending, hcontext, hends⟩ | ⟨context, hcontext, hpasses⟩
  · rwa [evaluate_of_error ending (by simp only [prepare, hcontext, bind, Except.bind])]
  rcases Passes.check .default hpasses (halt_default_iff h) with
    ⟨ending, hdefault, hends⟩ | ⟨default, hdefault, hpasses⟩
  · rwa [evaluate_of_error ending (by simp only [prepare, hcontext, hdefault, bind, Except.bind])]
  rcases Passes.check .variantsText hpasses (halt_variantsText_iff h) with
    ⟨ending, hentries, hends⟩ | ⟨entries, hentries, hpasses⟩
  · rwa [evaluate_of_error ending (by
      simp only [prepare, hcontext, hdefault, hentries, bind, Except.bind])]
  rcases Passes.check .variants hpasses (halt_variants_iff h hentries) with
    ⟨ending, hvariants, hends⟩ | ⟨variants, hvariants, hpasses⟩
  · rwa [evaluate_of_error ending (by
      simp only [prepare, hcontext, hdefault, hentries, hloaded, hvariants, bind, Except.bind])]
  rcases ends_or_passes_provider h hsettings hpasses variants with
    ⟨ending, hprovider, hends⟩ | ⟨⟨p, state⟩, hprovider, hpasses⟩
  · rwa [evaluate_of_error ending (by
      simp only [prepare, hcontext, hdefault, hentries, hloaded, hvariants, hprovider, bind,
        Except.bind])]
  · have hprepare : prepare s r = .ok ((p, state), default, context) := by
      simp only [prepare, hcontext, hdefault, hentries, hloaded, hvariants, hprovider, bind,
        Except.bind, pure, Except.pure]
    exact ends_of_provider h hprepare (default_decoded hdefault) hprovider
      (decoded_variantsOf hentries hvariants) hpasses

end Evaluation

/-! ### Whole command lines -/

section Run

variable [Handlers] {s : Surroundings} {args : List String}

/-- Every command line ends in one of these ways. -/
theorem run_ends (s : Surroundings) (args : List String) : Ends s args (run s args).1.ending := by
  cases hline : CommandLine.read args with
  | error refusal =>
    rw [run, hline]
    exact passes_commandLine.ends (.commandLine hline)
  | ok line =>
  have hpasses : Passes s args Stage.settings.rank := passes_commandLine.next fun ending hhalt => by
    cases hhalt with
    | commandLine h => cases hline.symm.trans h
  rcases Passes.check .settings hpasses (halt_settings_iff hline) with
    ⟨ending, hsettings, hends⟩ | ⟨settings, hsettings, hpasses⟩
  · have hconfigure : configure s line = .error ending := by
      simp only [configure, hsettings, bind, Except.bind]
    rw [run, hline]
    dsimp only
    rwa [hconfigure]
  rcases Passes.check .logLevel hpasses (halt_logLevel_iff hline hsettings) with
    ⟨ending, hstyle, hends⟩ | ⟨style, hstyle, hpasses⟩
  · have hconfigure : configure s line = .error ending := by
      simp only [configure, hsettings, hstyle, bind, Except.bind]
    rw [run, hline]
    dsimp only
    rwa [hconfigure]
  have hpasses : Passes s args Stage.arguments.rank := hpasses
  have hconfigure : configure s line = .ok style := by
    simp only [configure, hsettings, hstyle, bind, Except.bind]
  cases hread : Request.read s line.command line.args with
  | error refusal =>
    have hresult : (run s args).1.ending = refusalEnding s refusal := by
      simp only [run, hline, hconfigure, hread]
      rfl
    rw [hresult]
    exact hpasses.ends (.arguments hline hread)
  | ok request =>
  have hpasses : Passes s args Stage.context.rank := hpasses.next fun ending hhalt => by
    cases hhalt with
    | arguments hline' h =>
      cases hline.symm.trans hline'
      cases hread.symm.trans h
  have hresult : (run s args).1 = perform s request := by
    simp only [run, hline, hconfigure, hread]
  have hasks : Asks s args request := ⟨line, hline, hread⟩
  rw [hresult]
  cases request with
  | aliases key json => exact ends_aliases hasks hpasses
  | normalize context shape json => exact ends_normalize hasks hpasses
  | evaluate r => exact ends_evaluate hasks hsettings hpasses

theorem Ends.unique {ending other : Ending} (h : Ends s args ending) (h' : Ends s args other) :
    ending = other := by
  cases h with
  | halted h =>
    cases h' with
    | halted h' =>
      cases Stage.rank_injective (le_antisymm (h.2 _ _ h'.1) (h'.2 _ _ h.1))
      exact h.1.unique h'.1
    | negative hclear | finished hclear => exact absurd h.1 (hclear _ _)
  | negative hclear hfails =>
    cases h' with
    | halted h' => exact absurd h'.1 (hclear _ _)
    | negative => rfl
    | finished _ hsound => exact absurd hfails hsound
  | finished hclear hsound =>
    cases h' with
    | halted h' => exact absurd h'.1 (hclear _ _)
    | negative _ hfails => exact absurd hfails hsound
    | finished => rfl

/-- A command line that asks for help has no request, and nothing else comes after it. -/
theorem Halt.helped {stage : Stage} (h : Halt s args stage .helped) :
    (∀ request, ¬ Asks s args request) ∧ ∀ other ending, Halt s args other ending →
      stage.rank ≤ other.rank → ending = .helped := by
  rcases h.faulted with ⟨rfl | rfl, -⟩ | hfaulted
  · generalize hending : Ending.helped = ending at h
    cases h with
    | commandLine h =>
      refine ⟨not_asks_of_refusal h, fun other found hother _ => ?_⟩
      cases hother with
      | commandLine h' => rw [Except.error.inj (h.symm.trans h')]
      | settings hline | logLevel hline | arguments hline => cases h.symm.trans hline
      | context h' | default h' | variantsText h' | variants h' | deploymentKey h' | aliases h'
        | printing h' => exact absurd h' (not_asks_of_refusal h _)
  · generalize hending : Ending.helped = ending at h
    cases h with
    | arguments hline h =>
      refine ⟨not_asks_of_arguments hline h, fun other found hother hle => ?_⟩
      cases hother with
      | commandLine | settings | logLevel => exact absurd hle (by decide)
      | arguments hline' h' =>
        cases hline.symm.trans hline'
        rw [Except.error.inj (h.symm.trans h')]
      | context h' | default h' | variantsText h' | variants h' | deploymentKey h' | aliases h'
        | printing h' => exact absurd h' (not_asks_of_arguments hline h _)
  · cases hfaulted

/-- When there are faults, one of them comes first. -/
theorem exists_firstHalt {stage : Stage} {ending : Ending} (h : Halt s args stage ending) :
    ∃ first found, FirstHalt s args first found := by
  by_contra hnone
  have hend := run_ends s args
  generalize (run s args).1.ending = result at hend
  cases hend with
  | halted hfirst => exact hnone ⟨_, _, hfirst⟩
  | negative hclear | finished hclear => exact hclear _ _ h

/-- The status of a command, by how it ends. -/
theorem Ends.status_cases {ending : Ending} (h : Ends s args ending) :
    (ending.status = 2 ∧ ∃ stage, FirstHalt s args stage ending) ∨
    (ending.status = 1 ∧ ((∃ stage f, FirstHalt s args stage (.crashed f) ∧ ending = .crashed f) ∨
      Clear s args ∧ Fails s args)) ∨
    (ending.status = 0 ∧ ((∃ stage, FirstHalt s args stage .helped ∧ ending = .helped) ∨
      Clear s args ∧ ¬ Fails s args)) := by
  cases h with
  | negative hclear hfails => exact .inr (.inl ⟨rfl, .inr ⟨hclear, hfails⟩⟩)
  | finished hclear hsound => exact .inr (.inr ⟨rfl, .inr ⟨hclear, hsound⟩⟩)
  | halted hfirst =>
    rcases hfirst.1.faulted with ⟨-, rfl | rfl⟩ | hfaulted
    · exact .inr (.inr ⟨rfl, .inl ⟨_, hfirst, rfl⟩⟩)
    · exact .inl ⟨rfl, _, hfirst⟩
    · cases hfaulted with
      | refused message => exact .inl ⟨rfl, _, hfirst⟩
      | crashed hf => exact .inr (.inl ⟨rfl, .inl ⟨_, _, hfirst, rfl⟩⟩)

theorem run_eq_iff {ending : Ending} : (run s args).1.ending = ending ↔ Ends s args ending := by
  constructor
  · rintro rfl
    exact run_ends s args
  · exact (run_ends s args).unique

theorem status_eq_two_iff : (run s args).1.ending.status = 2 ↔
    ∃ stage ending, FirstHalt s args stage ending ∧ ending.status = 2 := by
  constructor
  · intro h
    rcases (run_ends s args).status_cases with ⟨-, stage, hfirst⟩ | ⟨hone, -⟩ | ⟨hzero, -⟩
    · exact ⟨stage, _, hfirst, h⟩
    · cases h.symm.trans hone
    · cases h.symm.trans hzero
  · rintro ⟨stage, ending, hfirst, h⟩
    rwa [run_eq_iff.mpr (.halted hfirst)]

theorem status_eq_one_iff : (run s args).1.ending.status = 1 ↔
    (∃ stage f, FirstHalt s args stage (.crashed f)) ∨ Clear s args ∧ Fails s args := by
  constructor
  · intro h
    rcases (run_ends s args).status_cases with ⟨htwo, -⟩ | ⟨-, hcases⟩ | ⟨hzero, -⟩
    · cases h.symm.trans htwo
    · rcases hcases with ⟨stage, f, hfirst, -⟩ | hfails
      · exact .inl ⟨stage, f, hfirst⟩
      · exact .inr hfails
    · cases h.symm.trans hzero
  · rintro (⟨stage, f, hfirst⟩ | ⟨hclear, hfails⟩)
    · rw [run_eq_iff.mpr (.halted hfirst)]
      rfl
    · rw [run_eq_iff.mpr (.negative hclear hfails)]
      rfl

theorem clear_and_fails_of_negative (h : (run s args).1.ending = .negative) :
    Clear s args ∧ Fails s args := by
  have hends := run_eq_iff.mp h
  generalize hnegative : Ending.negative = ending at hends
  cases hends with
  | negative hclear hfails => exact ⟨hclear, hfails⟩
  | finished => cases hnegative
  | halted hfirst =>
    rcases hfirst.1.faulted with ⟨-, rfl | rfl⟩ | hfaulted
    · cases hnegative
    · cases hnegative
    · cases hfaulted <;> cases hnegative

theorem unhandled_of_crashed {f : Failure} (h : (run s args).1.ending = .crashed f) :
    Unhandled f := by
  have hends := run_eq_iff.mp h
  generalize hcrashed : Ending.crashed f = ending at hends
  cases hends with
  | negative | finished => cases hcrashed
  | halted hfirst =>
    rcases hfirst.1.faulted with ⟨-, rfl | rfl⟩ | hfaulted
    · cases hcrashed
    · cases hcrashed
    · cases hfaulted with
      | refused => cases hcrashed
      | crashed hf =>
        cases hcrashed
        exact hf

section Handled

variable (hhandled : ∀ stage f, ¬ Halt s args stage (.crashed f))
include hhandled

/-- When nothing crashes, every refusal decides the status, whatever else is there. -/
theorem status_eq_two_iff_of_handled : (run s args).1.ending.status = 2 ↔
    ∃ stage ending, Halt s args stage ending ∧ ending.status = 2 := by
  rw [status_eq_two_iff]
  constructor
  · rintro ⟨stage, ending, hfirst, h⟩
    exact ⟨stage, ending, hfirst.1, h⟩
  · rintro ⟨stage, ending, hhalt, h⟩
    obtain ⟨first, found, hfirst⟩ := exists_firstHalt hhalt
    refine ⟨first, found, hfirst, ?_⟩
    rcases hfirst.1.faulted with ⟨-, rfl | rfl⟩ | hfaulted
    · rw [Halt.helped hfirst.1 |>.2 _ _ hhalt (hfirst.2 _ _ hhalt)] at h
      cases h
    · rfl
    · cases hfaulted with
      | refused => rfl
      | crashed => exact absurd hfirst.1 (hhandled _ _)

theorem status_eq_one_iff_of_handled : (run s args).1.ending.status = 1 ↔
    (¬ ∃ stage ending, Halt s args stage ending ∧ ending.status = 2) ∧ Fails s args := by
  rw [← status_eq_two_iff_of_handled hhandled]
  constructor
  · intro h
    have hno : ¬ (run s args).1.ending.status = 2 := by
      rw [h]
      decide
    refine ⟨hno, ?_⟩
    rcases status_eq_one_iff.mp h with ⟨stage, f, hfirst⟩ | ⟨-, hfails⟩
    · exact absurd hfirst.1 (hhandled _ _)
    · exact hfails
  · rintro ⟨hno, hfails⟩
    rcases (run_ends s args).status_cases with ⟨htwo, -⟩ | ⟨hone, -⟩ | ⟨-, hcases⟩
    · exact absurd htwo hno
    · exact hone
    · obtain ⟨r, o, hasks, -⟩ := id hfails
      rcases hcases with ⟨stage, hfirst, -⟩ | ⟨-, hsound⟩
      · exact absurd hasks (hfirst.1.helped.1 _)
      · exact absurd hfails hsound

theorem not_crashed_of_handled (f : Failure) : (run s args).1.ending ≠ .crashed f := by
  intro h
  generalize hcrashed : Ending.crashed f = ending at h
  cases run_eq_iff.mp h with
  | negative | finished => cases hcrashed
  | halted hfirst =>
    subst hcrashed
    exact hhandled _ _ hfirst.1

theorem status_eq_zero_iff_of_handled : (run s args).1.ending.status = 0 ↔
    (¬ ∃ stage ending, Halt s args stage ending ∧ ending.status = 2) ∧ ¬ Fails s args := by
  have htwo := status_eq_two_iff_of_handled hhandled
  have hone := status_eq_one_iff_of_handled hhandled
  constructor
  · intro h
    rw [h] at htwo hone
    have hno := mt htwo.mpr (by decide)
    exact ⟨hno, fun hfails => absurd (hone.mpr ⟨hno, hfails⟩) (by decide)⟩
  · rintro ⟨hno, hsound⟩
    rcases (run_ends s args).status_cases with ⟨h, -⟩ | ⟨h, -⟩ | ⟨h, -⟩
    · exact absurd (htwo.mp h) hno
    · exact absurd (hone.mp h).2 hsound
    · exact h

end Handled

end Run

end Rollout.Command
