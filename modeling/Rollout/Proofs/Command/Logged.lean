/-
What commands log.

Only evaluations log anything: that the provider became ready, with its options, that it was stopped,
and what went wrong between.  Apart from the options these events hold texts, and options from
variables can be written.  So a command can write all that it logs.

* `CachingClient.evaluate_preserves` — what the client behind a cache leaves as it is;
* `Offline.Logs` — a log whose events can be written;
* `Command.exists_logLines` — a command has its log lines.
-/
import Rollout.Proofs.Command.Offline
import Rollout.Proofs.Log.Rendering
import Rollout.Proofs.Settings.Decoded

namespace Rollout

/-! ### Events with texts -/

theorem loggable_of_texts {e : LogEvent} (h : ∀ field ∈ e.fields, ∃ s, field.2 = .text s) :
    e.Loggable := by
  intro field hfield
  obtain ⟨s, hs⟩ := h field hfield
  rw [hs]
  exact .text s

theorem CachingClient.loggable_warning (event key message : String) :
    (warning event key message).Loggable := by
  refine loggable_of_texts ?_
  simp [warning]

theorem Provider.loggable_failedEvent (type : FlagType) (flag : String) (kind : ErrorKind)
    (message : String) : (failedEvent type flag kind message).Loggable := by
  refine loggable_of_texts ?_
  simp [failedEvent, Provider.event]

theorem Provider.loggable_stoppedEvent : stoppedEvent.Loggable := by
  refine loggable_of_texts ?_
  simp [stoppedEvent, Provider.event]

theorem Provider.loggable_readyEvent {settings : Settings} (h : Json.Writable settings.options) :
    (readyEvent settings).Loggable := by
  intro field hfield
  simp only [readyEvent, Provider.event, List.mem_cons, List.not_mem_nil, or_false] at hfield
  rcases hfield with rfl | rfl | rfl
  · exact .text _
  · exact .text _
  · exact h

/-! ### The client behind a cache -/

namespace CachingClient

section Preserves

variable {σ : Type} {I : σ → Prop} {c : CachingClient σ}
  (hget : ∀ key w, I w → I (c.cache.get key w).2)
  (hset : ∀ key v ttl w, I w → I (c.cache.set key v ttl w).2)
  (hinner : ∀ subject flags w, I w → I (c.inner.evaluate subject flags w).2)
  (hlog : ∀ event key message w, I w → I (c.log (warning event key message) w))

include hlog in
theorem warn_preserves {α : Type} (event key : String) (failure : Failure) (result : α) {w : σ}
    (h : I w) : I (c.warn event key failure result w).2 := by
  unfold warn
  split
  · exact hlog _ _ _ _ h
  · exact h

include hget hlog in
theorem read_preserves (key : String) {w : σ} (h : I w) : I (c.read key w).2 := by
  have hread := hget key w h
  unfold read
  split
  · rename_i hfound
    rw [hfound] at hread
    exact warn_preserves hlog _ _ _ _ hread
  · rename_i hfound
    rw [hfound] at hread
    split
    · exact hread
    · exact warn_preserves hlog _ _ _ _ hread

include hset hlog in
theorem write_preserves (key : String) (variants : Variants) {w : σ} (h : I w) :
    I (c.write key variants w).2 := by
  unfold write
  split
  · exact warn_preserves hlog _ _ _ _ h
  · rename_i entries _
    have hwritten := hset key (.map entries) c.ttl w h
    split
    · rename_i hdone
      rwa [hdone] at hwritten
    · rename_i hdone
      rw [hdone] at hwritten
      exact warn_preserves hlog _ _ _ _ hwritten

include hset hinner hlog in
theorem refresh_preserves (key : String) (subject : Subject) {w : σ} (h : I w) :
    I (c.refresh key subject w).2 := by
  have hasked := hinner subject [] w h
  unfold refresh
  split
  · rename_i hanswer
    rwa [hanswer] at hasked
  · rename_i variants _ hanswer
    rw [hanswer] at hasked
    have hwritten := write_preserves hset hlog key variants hasked
    split
    · rename_i hdone
      rwa [hdone] at hwritten
    · rename_i hdone
      rwa [hdone] at hwritten

include hget hset hinner hlog

theorem fetch_preserves (key : String) (subject : Subject) {w : σ} (h : I w) :
    I (c.fetch key subject w).2 := by
  have hread := read_preserves hget hlog key h
  unfold fetch
  split
  · rename_i hfound
    rwa [hfound] at hread
  · rename_i hfound
    rwa [hfound] at hread
  · rename_i hfound
    rw [hfound] at hread
    exact refresh_preserves hset hinner hlog key subject hread

/-- What the cache, the inner client and the log leave as it is, a client behind the cache leaves
as it is. -/
theorem evaluate_preserves (subject : Subject) (flags : List String) {w : σ} (h : I w) :
    I (c.evaluate subject flags w).2 := by
  unfold evaluate
  split
  · exact h
  · rename_i key _
    have hfetch := fetch_preserves hget hset hinner hlog key subject h
    split
    · rename_i hfound
      rwa [hfound] at hfetch
    · rename_i hfound
      rwa [hfound] at hfetch

end Preserves

end CachingClient

/-! ### Offline evaluations -/

namespace Offline

/-- A log whose events can be written. -/
def Logs (w : Offline) : Prop := ∀ e ∈ w.events, e.Loggable

theorem logs_fresh : Logs fresh := List.forall_mem_nil _

theorem Logs.log {w : Offline} (h : w.Logs) {e : LogEvent} (he : e.Loggable) :
    (Offline.log e w).Logs :=
  List.forall_mem_append.mpr ⟨h, List.forall_mem_singleton.mpr he⟩

section Provider

variable {settings : Settings} {variants : Variants} {w : Offline}

theorem Logs.client_evaluate (subject : Subject) (flags : List String) (h : w.Logs) :
    ((client settings variants).evaluate subject flags w).2.Logs := by
  rw [client, Provider.cached]
  split
  · exact h
  · refine CachingClient.evaluate_preserves (fun _ _ h => h) ?_ (fun _ _ _ h => h) ?_ subject flags h
    · intro key v ttl w h
      dsimp only [parts, Option.getD_none, MemoryCache.backend]
      split <;> exact h
    · exact fun event key message w h => h.log (CachingClient.loggable_warning event key message)

theorem Logs.assign (flag : String) (subject : Subject) (h : w.Logs) :
    ((providerFor settings variants).assign flag subject w).2.Logs := by
  have hcall : ((providerFor settings variants).client.evaluate subject [flag] w).2.Logs :=
    h.client_evaluate subject [flag]
  unfold Provider.assign
  split
  · rename_i hanswer
    rwa [hanswer] at hcall
  · rename_i hanswer
    rw [hanswer] at hcall
    split <;> exact hcall

theorem Logs.fetch (state : Provider.State) (flag : String) (context : Attributes) (h : w.Logs) :
    ((providerFor settings variants).fetch state flag context w).2.Logs := by
  unfold Provider.fetch
  split
  · exact h
  · -- Without a hook the subject is built from the context alone.
    have hbuild := buildSubject_none_cases state.aliases context w
    rw [show (providerFor settings variants).subjectHook = none from rfl]
    rcases hbuild with ⟨subject, hbuild⟩ | ⟨message, cause, hbuild⟩
    · rw [hbuild]
      exact h.assign flag subject
    · rw [hbuild]
      exact h

theorem Logs.provider_evaluate (state : Provider.State) (type : FlagType) (flag : String)
    (default : Value) (context : Attributes) (h : w.Logs) :
    ((providerFor settings variants).evaluate state type flag default context w).2.Logs := by
  have hfetch : ((providerFor settings variants).fetch state flag context w).2.Logs :=
    h.fetch state flag context
  have hfail : ∀ kind message w, Logs w →
      ((providerFor settings variants).fail type flag default kind message w).2.Logs :=
    fun kind message w h => h.log (Provider.loggable_failedEvent type flag kind message)
  unfold Provider.evaluate
  split
  · rename_i hfound
    rw [hfound] at hfetch
    exact hfail _ _ _ hfetch
  · rename_i hfound
    rwa [hfound] at hfetch
  · rename_i hfound
    rw [hfound] at hfetch
    split
    · exact hfail _ _ _ hfetch
    · exact hfetch
    · exact hfetch

theorem Logs.start (hoptions : Json.Writable settings.options) (phase : Phase) (h : w.Logs) :
    ((providerFor settings variants).start phase w).2.2.Logs := by
  rw [Provider.start]
  split
  · exact h
  · rw [client_providerFor, client_start]
    exact Logs.log h (Provider.loggable_readyEvent hoptions)

theorem Logs.stop (h : w.Logs) : ((providerFor settings variants).stop w).2.2.Logs := by
  rw [Provider.stop, client_providerFor, client_stop]
  exact Logs.log h Provider.loggable_stoppedEvent

end Provider

/-- What an offline evaluation logs can be written. -/
theorem logs_evaluate {settings : Settings} {variants : Variants} {p : Provider Offline}
    {state : Provider.State} (hprovider : provider settings variants = .ok (p, state))
    (hoptions : Json.Writable settings.options) (type : FlagType) (flag : String) (default : Value)
    (context : Attributes) : (evaluate p state type flag default context .fresh).2.Logs := by
  obtain ⟨rfl, hphase⟩ := eq_providerFor hprovider
  have hstart : ((providerFor settings variants).start state.phase fresh).2.2.Logs :=
    logs_fresh.start hoptions state.phase
  unfold evaluate
  split
  · rename_i hdone
    rwa [hdone] at hstart
  · rename_i phase w hdone
    rw [hdone] at hstart
    have hevaluate : ((providerFor settings variants).evaluate { state with phase } type flag default
        context w).2.Logs := hstart.provider_evaluate { state with phase } type flag default context
    split
    rename_i w hresult
    rw [hresult] at hevaluate
    have hstop : ((providerFor settings variants).stop w).2.2.Logs := hevaluate.stop
    split
    · rename_i hstopped
      rwa [hstopped] at hstop
    · rename_i hstopped
      rwa [hstopped] at hstop

end Offline

namespace Command

/-! ### Transcripts -/

theorem events_json (v : Value) (ending : Ending) : (Transcript.json v ending).events = [] := by
  unfold Transcript.json
  split <;> rfl

theorem events_lines [Markup.Handlers] (ending : Ending) (texts : List String) :
    (Transcript.lines ending texts).events = [] := by
  induction texts with
  | nil => rfl
  | cons s rest ih =>
    unfold Transcript.lines
    split
    · rfl
    · split
      · rename_i hlines
        rwa [hlines] at ih
      · exact ih

theorem events_table [Markup.Handlers] (t : Table) (ending : Ending) :
    (Transcript.table t ending).events = [] := by
  unfold Transcript.table
  split <;> rfl

theorem events_aliases [Markup.Handlers] (key : String) (json : Bool) :
    (aliases key json).events = [] := by
  unfold aliases
  dsimp only
  split
  · exact events_json _ _
  · exact events_lines _ _

theorem events_normalize [Markup.Handlers] (context : String) (shape : Shape) (json : Bool) :
    (normalize context shape json).events = [] := by
  unfold normalize
  split
  · rfl
  · dsimp only
    split
    · exact events_json _ _
    · unfold normalizedTable
      dsimp only
      split
      · exact events_table _ _
      · rfl
      · rfl

/-! ### Commands -/

section Commands

variable [Markup.Handlers] {s : Surroundings}

theorem writable_options_of_settings {settings : Settings}
    (h : Input.settings s [] = .ok settings) : Json.Writable settings.options := by
  cases hfile : Input.dotenvText s with
  | error failure =>
    obtain ⟨octets, hoctets, hread⟩ := Input.dotenvText_error_iff.mp hfile
    rw [(Input.NoSettings.malformedFile hoctets hread).settings_eq] at h
    cases h
  | ok file =>
    rw [Input.settings_of_file hfile] at h
    split at h
    · rename_i hload
      cases h
      exact Settings.writable_options Json.decoded_empty hload
    · cases h
    · cases h

/-- An evaluation is prepared with a provider for the settings of the surroundings. -/
theorem exists_providerOf_of_prepare {r : EvaluationRequest} {p : Provider Offline}
    {state : Provider.State} {default : Value} {context : Attributes}
    (h : prepare s r = .ok ((p, state), default, context)) : ∃ settings variants,
      Input.settings s [(.text "deployment_key", .text r.deploymentKey)] = .ok settings ∧
        providerOf settings variants = .ok (p, state) := by
  simp only [prepare, bind, Except.bind] at h
  split at h
  · cases h
  split at h
  · cases h
  split at h
  · cases h
  split at h
  · cases h
  rename_i settings hsettings
  split at h
  · cases h
  rename_i variants _
  split at h
  · cases h
  rename_i hprovider
  cases h
  exact ⟨settings, variants, hsettings, hprovider⟩

theorem loggable_evaluate (r : EvaluationRequest) :
    ∀ e ∈ (evaluate s r).events, e.Loggable := by
  cases hprepare : prepare s r with
  | error ending =>
    rw [evaluate, hprepare]
    exact List.forall_mem_nil _
  | ok prepared =>
    obtain ⟨⟨p, state⟩, default, context⟩ := prepared
    obtain ⟨settings, variants, hsettings, hprovider⟩ := exists_providerOf_of_prepare hprepare
    have hoptions : Json.Writable settings.options := by
      rw [Input.settings_deploymentKey] at hsettings
      obtain ⟨old, hold, rfl⟩ := map_eq_ok_iff.mp hsettings
      show Json.Writable old.options
      exact writable_options_of_settings hold
    have hlogs := Offline.logs_evaluate (provider_of_providerOf hprovider) hoptions r.type r.flag
      default context
    rw [evaluate, hprepare]
    dsimp only
    split
    · rename_i hresult
      rwa [hresult] at hlogs
    · rename_i hresult
      rwa [hresult] at hlogs

theorem loggable_perform (request : Request) : ∀ e ∈ (perform s request).events, e.Loggable := by
  cases request with
  | aliases key json =>
    rw [perform, events_aliases]
    exact List.forall_mem_nil _
  | normalize context shape json =>
    rw [perform, events_normalize]
    exact List.forall_mem_nil _
  | evaluate r => exact loggable_evaluate r

theorem loggable_run (args : List String) : ∀ e ∈ (run s args).1.events, e.Loggable := by
  unfold run
  split
  · exact List.forall_mem_nil _
  · split
    · exact List.forall_mem_nil _
    · split
      · exact List.forall_mem_nil _
      · exact loggable_perform _

/-- **All that a command logs can be written.** -/
theorem exists_logLines (args : List String) (time : String) :
    ∃ lines, logLines (run s args).2 time (run s args).1.events = .ok lines := by
  unfold logLines
  split
  · exact LogSetup.exists_lines _ time (loggable_run args)
  · exact ⟨[], rfl⟩

end Commands

end Command

end Rollout
