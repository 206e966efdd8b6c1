/-
The life of a provider, over sessions of any length.

A session is what callers do with one provider: they start and stop it, by name or around a block of
code, evaluate flags and track events.  The client may fail at every call.  The history of a session
keeps, for every operation, the phase before and after it, what the client was asked and what the
caller saw raised; the phase is at every moment what the history says.

* `Operation`, `Entry`, `Provider.session` — sessions and their histories;
* `Entry.Regular`, `Provider.perform_regular` — what a single operation can do;
* `Since`, `Explains`, `Explains.step` — the phase in terms of the history, and one operation more;
* `Provider.session_explained` — every session, at every moment;
* `Provider.session_overlong_fails` — a failed start that is not reported.
-/
import Rollout.Proofs.Provider.Stages
import Rollout.Proofs.Sequence

namespace Rollout

/-! ### Sessions -/

/-- What a caller can do with a provider.  A block of code enters and leaves the provider. -/
inductive Operation
  | start
  | stop
  | enter
  | leave
  | evaluate (type : FlagType) (flag : String) (default : Value) (context : Attributes)
  | track (event : Event)

/-- Whether an operation is there to make the provider ready. -/
def Operation.isStart : Operation → Bool
  | .start | .enter => true
  | _ => false

/-- Whether an operation is there to end the provider's life. -/
def Operation.isStop : Operation → Bool
  | .stop | .leave => true
  | _ => false

theorem Operation.isStop_of_isStart {op : Operation} (h : op.isStart = true) :
    op.isStop = false := by
  cases op with
  | start => rfl
  | enter => rfl
  | _ => cases h

/-- One operation of a session, as it went. -/
structure Entry where
  operation : Operation
  before : Phase
  calls : List ClientCall
  raised : Option Failure
  after : Phase

/-- A session so far. -/
structure Session (σ : Type) where
  history : List Entry
  phase : Phase
  outside : σ

/-- What a caller sees raised. -/
def raisedBy {α : Type} : Except Failure α → Option Failure
  | .ok _ => none
  | .error failure => some failure

namespace Provider

variable {σ : Type}

/-- An operation in a phase, as it goes.  The calls are those of the provider that is watched. -/
def perform (p : Provider σ) (aliases : AliasTable) (phase : Phase) (w : σ) (op : Operation) :
    Entry × σ :=
  match op with
  | .start | .enter =>
    let (result, after, outside) := p.start phase w
    (⟨op, phase, (p.watched.start phase (.begin w)).2.2.calls, raisedBy result, after⟩, outside)
  | .stop | .leave =>
    let (result, after, outside) := p.stop w
    (⟨op, phase, (p.watched.stop (.begin w)).2.2.calls, raisedBy result, after⟩, outside)
  | .evaluate type flag default context =>
    let (result, outside) := p.evaluate ⟨phase, aliases⟩ type flag default context w
    (⟨op, phase,
      (p.watched.evaluate ⟨phase, aliases⟩ type flag default context (.begin w)).2.calls,
      raisedBy result, phase⟩, outside)
  | .track event =>
    let (result, outside) := p.track ⟨phase, aliases⟩ event w
    (⟨op, phase, (p.watched.track ⟨phase, aliases⟩ event (.begin w)).2.calls, raisedBy result,
      phase⟩, outside)

/-- A session after one more operation. -/
def proceed (p : Provider σ) (aliases : AliasTable) (s : Session σ) (op : Operation) :
    Session σ :=
  let (entry, outside) := p.perform aliases s.phase s.outside op
  ⟨s.history ++ [entry], entry.after, outside⟩

/-- The session of a provider that was just made. -/
def session (p : Provider σ) (aliases : AliasTable) (ops : List Operation) (w : σ) : Session σ :=
  ops.foldl (p.proceed aliases) ⟨[], .notReady, w⟩

end Provider

/-! ### One operation -/

/-- What a single operation can do. -/
inductive Entry.Regular : Entry → Prop
  /-- A provider that is ready is not started again. -/
  | idle (op : Operation) (start : op.isStart = true) :
      Regular ⟨op, .ready, [], none, .ready⟩
  /-- A provider that is not ready starts its client once, and is ready. -/
  | started (op : Operation) (start : op.isStart = true) (phase : Phase)
      (unready : phase ≠ .ready) :
      Regular ⟨op, phase, [.start (.ok ())], none, .ready⟩
  /-- A client that fails to start is reported as the cause of a failed startup. -/
  | startFailed (op : Operation) (start : op.isStart = true) (phase : Phase)
      (unready : phase ≠ .ready) (failure : Failure) (text : failure.HasText) (report : Report)
      (startup : report.cls = .startup) :
      Regular ⟨op, phase, [.start (.error failure)], some (.reported report (some failure)),
        .failed⟩
  /-- A client that fails to start without a text cannot be reported, and asking for the text fails. -/
  | startSilent (op : Operation) (start : op.isStart = true) (phase : Phase)
      (unready : phase ≠ .ready) (failure other : Failure) (text : failure.message = .error other) :
      Regular ⟨op, phase, [.start (.error failure)], some other, .failed⟩
  /-- A client that is stopped leaves the provider as it was made, and its failure is passed on. -/
  | stopped (op : Operation) (stop : op.isStop = true) (phase : Phase)
      (result : Except Failure Unit) :
      Regular ⟨op, phase, [.stop result], raisedBy result, .notReady⟩
  /-- Every other operation keeps the phase, and asks the client for nothing. -/
  | kept (op : Operation) (start : op.isStart = false) (stop : op.isStop = false) (phase : Phase)
      (raised : Option Failure) :
      Regular ⟨op, phase, [], raised, phase⟩
  /-- A provider that is ready asks its client for the variant of the flag that it evaluates. -/
  | asked (type : FlagType) (flag : String) (default : Value) (context : Attributes)
      (subject : Subject) (result : Except Failure Variants) (raised : Option Failure) :
      Regular ⟨.evaluate type flag default context, .ready,
        [.evaluate subject [flag] result], raised, .ready⟩

namespace Provider

variable {σ : Type} (p : Provider σ)

theorem start_regular (op : Operation) (hop : op.isStart = true) (phase : Phase) (w : σ) :
    Entry.Regular ⟨op, phase, (p.watched.start phase (.begin w)).2.2.calls,
      raisedBy (p.start phase w).1, (p.start phase w).2.1⟩ := by
  by_cases hphase : phase = .ready
  · subst hphase
    exact .idle op hop
  · have hcall : p.watched.client.start (.begin w)
        = ((p.client.start w).1, ⟨(p.client.start w).2, [.start (p.client.start w).1], []⟩) := rfl
    simp only [start, if_neg hphase, hcall]
    cases p.client.start w with
    | mk result outside =>
      cases result with
      | ok _ => exact .started op hop phase hphase
      | error failure =>
        dsimp only
        -- The report quotes the failure, and comes to nothing if the failure has no text.
        cases htext : failure.message with
        | ok message =>
          exact .startFailed op hop phase hphase failure ⟨message, htext⟩ ⟨.startup, _, _, _, _, _⟩ rfl
        | error other => exact .startSilent op hop phase hphase failure other htext

theorem stop_regular (op : Operation) (hop : op.isStop = true) (phase : Phase) (w : σ) :
    Entry.Regular ⟨op, phase, (p.watched.stop (.begin w)).2.2.calls, raisedBy (p.stop w).1,
      (p.stop w).2.1⟩ := by
  have hcall : p.watched.client.stop (.begin w)
      = ((p.client.stop w).1, ⟨(p.client.stop w).2, [.stop (p.client.stop w).1], []⟩) := rfl
  simp only [stop, hcall]
  cases p.client.stop w with
  | mk result outside =>
    cases result with
    | ok _ => exact .stopped op hop phase (.ok ())
    | error failure => exact .stopped op hop phase (.error failure)

/-- After the variant is there, the client is asked for nothing more. -/
theorem watched_evaluate_calls (s : State) (type : FlagType) (flag : String) (default : Value)
    (context : Attributes) (w : Watched σ) :
    (p.watched.evaluate s type flag default context w).2.calls
      = (p.watched.fetch s flag context w).2.calls := by
  unfold evaluate
  cases p.watched.fetch s flag context w with
  | mk result w₁ =>
    cases result with
    | error failure => cases failure <;> rfl
    | ok variant =>
      dsimp only
      cases evaluateVariant type variant default with
      | error failure => rfl
      | ok outcome => cases outcome <;> rfl

theorem evaluate_regular (aliases : AliasTable) (phase : Phase) (type : FlagType) (flag : String)
    (default : Value) (context : Attributes) (raised : Option Failure) (w : σ) :
    Entry.Regular ⟨.evaluate type flag default context, phase,
      (p.watched.evaluate ⟨phase, aliases⟩ type flag default context (.begin w)).2.calls,
      raised, phase⟩ := by
  rw [watched_evaluate_calls]
  -- The client is asked only if the phase allows it and a subject comes of the context.
  cases hrefusal : phase.refusal with
  | some failure =>
    rw [watched_fetch_of_refusal p ⟨phase, aliases⟩ flag context hrefusal]
    exact .kept _ rfl rfl phase raised
  | none =>
    obtain rfl := Phase.eq_ready_of_refusal hrefusal
    cases hbuild : buildSubject aliases p.subjectHook context w with
    | mk built w₁ =>
      cases built with
      | error failure =>
        rw [watched_fetch_of_context p ⟨.ready, aliases⟩ flag context rfl hbuild]
        exact .kept _ rfl rfl .ready raised
      | ok subject =>
        rw [watched_fetch_of_ready p ⟨.ready, aliases⟩ flag context rfl hbuild]
        exact .asked type flag default context subject _ raised

theorem watched_track_calls (s : State) (e : Event) (w : Watched σ) :
    (p.watched.track s e w).2.calls = w.calls := by
  unfold track
  rw [watched_buildOccurrence]
  cases (buildOccurrence s.aliases p.occurrenceHook e w.outside).1 with
  | error failure => rfl
  | ok occurrence =>
    simp only [deliver, watched]
    cases p.tracker <;> rfl

/-- Every operation is regular, whatever the client, the hooks and the tracker do. -/
theorem perform_regular (aliases : AliasTable) (phase : Phase) (w : σ) (op : Operation) :
    (p.perform aliases phase w op).1.Regular := by
  cases op with
  | start => exact p.start_regular .start rfl phase w
  | enter => exact p.start_regular .enter rfl phase w
  | stop => exact p.stop_regular .stop rfl phase w
  | leave => exact p.stop_regular .leave rfl phase w
  | evaluate type flag default context =>
    exact p.evaluate_regular aliases phase type flag default context _ w
  | track event =>
    simp only [perform, watched_track_calls]
    exact .kept _ rfl rfl phase _

theorem perform_operation (aliases : AliasTable) (phase : Phase) (w : σ) (op : Operation) :
    (p.perform aliases phase w op).1.operation = op ∧
      (p.perform aliases phase w op).1.before = phase := by
  cases op <;> exact ⟨rfl, rfl⟩

end Provider

/-! ### The phase in terms of the history -/

/-- Something happened, and ever since only what is allowed after it. -/
def Since (happened allowed : Entry → Prop) (history : List Entry) : Prop :=
  ∃ earlier entry later, history = earlier ++ entry :: later ∧ happened entry ∧
    ∀ x ∈ later, allowed x

theorem not_since_nil (happened allowed : Entry → Prop) : ¬ Since happened allowed [] :=
  not_lasts_nil happened allowed

theorem since_concat {happened allowed : Entry → Prop} {history : List Entry} {e : Entry} :
    Since happened allowed (history ++ [e]) ↔
      happened e ∨ Since happened allowed history ∧ allowed e :=
  lasts_concat

namespace Entry

/-- The client was started, and did start. -/
def Started (e : Entry) : Prop := .start (.ok ()) ∈ e.calls

/-- The client was started, and failed to. -/
def StartFailed (e : Entry) : Prop := ∃ failure, .start (.error failure) ∈ e.calls

/-- The caller shut the provider down. -/
def Stops (e : Entry) : Prop := e.operation.isStop = true

end Entry

/-- A phase is what a history says: ready since a client started and was not stopped, failed since
a client failed to start, was not started again and not stopped, and as it was made otherwise. -/
structure Explains (history : List Entry) (phase : Phase) : Prop where
  ready : phase = .ready ↔ Since Entry.Started (fun e => ¬ e.Stops) history
  failed : phase = .failed ↔
    Since Entry.StartFailed (fun e => ¬ e.Stops ∧ ∀ result, .start result ∉ e.calls) history
  notReady : phase = .notReady ↔ ¬ Since Entry.Started (fun e => ¬ e.Stops) history ∧
    ¬ Since Entry.StartFailed (fun e => ¬ e.Stops ∧ ∀ result, .start result ∉ e.calls) history

namespace Explains

variable {history : List Entry} {phase : Phase}

/-- A provider is as it was made exactly when it is neither ready nor failed. -/
theorem of_iff (ready : phase = .ready ↔ Since Entry.Started (fun e => ¬ e.Stops) history)
    (failed : phase = .failed ↔ Since Entry.StartFailed
      (fun e => ¬ e.Stops ∧ ∀ result, .start result ∉ e.calls) history) :
    Explains history phase := by
  refine ⟨ready, failed, ?_⟩
  rw [← ready, ← failed]
  cases phase <;> simp

theorem nil : Explains [] .notReady :=
  of_iff (by simp [not_since_nil]) (by simp [not_since_nil])

/-- One operation more, and the phase after it is still what the history says. -/
theorem step {e : Entry} (h : Explains history e.before) (he : e.Regular) :
    Explains (history ++ [e]) e.after := by
  apply of_iff
  · rw [since_concat, ← h.ready]
    cases he with
    | idle op hop => simp [Entry.Stops, Operation.isStop_of_isStart hop]
    | started => simp [Entry.Started]
    | startFailed op hop phase hphase | startSilent op hop phase hphase =>
      simp [Entry.Started, hphase]
    | stopped op hop => simp [Entry.Started, Entry.Stops, hop]
    | kept op _ hop => simp [Entry.Started, Entry.Stops, hop]
    | asked => simp [Entry.Stops, Operation.isStop]
  · rw [since_concat, ← h.failed]
    cases he with
    | idle => simp [Entry.StartFailed]
    | started => simp [Entry.StartFailed]
    | startFailed | startSilent => simp [Entry.StartFailed]
    | stopped op hop => simp [Entry.StartFailed, Entry.Stops, hop]
    | kept op _ hop => simp [Entry.StartFailed, Entry.Stops, hop]
    | asked => simp [Entry.StartFailed]

end Explains

/-! ### Whole sessions -/

/-- The laws of a single operation. -/
structure Entry.Lawful (e : Entry) : Prop where
  /-- A start asks the client to start, once, unless the provider is ready. -/
  start_calls : e.operation.isStart = true → e.before ≠ .ready → ∃ result, e.calls = [.start result]
  /-- Nothing else asks the client to start. -/
  start_only : ∀ result, .start result ∈ e.calls →
    e.operation.isStart = true ∧ e.before ≠ .ready
  /-- A client that starts makes the provider ready. -/
  started : e.Started → e.after = .ready ∧ e.raised = none
  /-- A client that does not start is raised as the cause of a failed startup; without a text, what
  comes of asking for it is raised. -/
  startFailed : ∀ failure, .start (.error failure) ∈ e.calls → e.after = .failed ∧
    (failure.HasText →
      ∃ report, report.cls = .startup ∧ e.raised = some (.reported report (some failure))) ∧
    ∀ other, failure.message = .error other → e.raised = some other
  /-- A stop ends where the provider began, and passes on what the client raises. -/
  stopped : e.Stops → e.after = .notReady ∧
    ∃ result, e.calls = [.stop result] ∧ e.raised = raisedBy result
  /-- Everything but a start and a stop keeps the phase. -/
  kept : e.operation.isStart = false → ¬ e.Stops → e.after = e.before
  /-- The client is asked for variants only while the provider is ready. -/
  asked : ∀ subject flags result, .evaluate subject flags result ∈ e.calls → e.before = .ready

/-- An operation whose start failed is lawful as soon as it raises what it should. -/
theorem Entry.lawful_of_failed {op : Operation} (hop : op.isStart = true) {phase : Phase}
    (hphase : phase ≠ .ready) {failure : Failure} {raised : Option Failure}
    (hreport : failure.HasText →
      ∃ report, report.cls = .startup ∧ raised = some (.reported report (some failure)))
    (hsilent : ∀ other, failure.message = .error other → raised = some other) :
    Entry.Lawful ⟨op, phase, [.start (.error failure)], raised, .failed⟩ where
  start_calls _ _ := ⟨_, rfl⟩
  start_only _ _ := ⟨hop, hphase⟩
  started := by simp [Started]
  startFailed f hf := by
    cases List.mem_singleton.mp hf
    exact ⟨rfl, hreport, hsilent⟩
  stopped := by simp [Stops, Operation.isStop_of_isStart hop]
  kept := by simp [hop]
  asked := by simp

theorem Entry.Regular.lawful {e : Entry} (h : e.Regular) : e.Lawful := by
  cases h with
  | idle op hop =>
    exact {
      start_calls := fun _ hbefore => absurd rfl hbefore
      start_only := by simp
      started := by simp [Started]
      startFailed := by simp
      stopped := by simp [Stops, Operation.isStop_of_isStart hop]
      kept := fun _ _ => rfl
      asked := by simp }
  | started op hop phase hphase =>
    exact {
      start_calls := fun _ _ => ⟨_, rfl⟩
      start_only := fun _ _ => ⟨hop, hphase⟩
      started := fun _ => ⟨rfl, rfl⟩
      startFailed := by simp
      stopped := by simp [Stops, Operation.isStop_of_isStart hop]
      kept := by simp [hop]
      asked := by simp }
  | startFailed op hop phase hphase failure htext report hreport =>
    exact lawful_of_failed hop hphase (fun _ => ⟨report, hreport, rfl⟩)
      fun _ hother => absurd hother htext.message_ne
  | startSilent op hop phase hphase failure other htext =>
    refine lawful_of_failed hop hphase (fun h => absurd htext h.message_ne) fun _ hother => ?_
    cases htext.symm.trans hother
    rfl
  | stopped op hop phase result =>
    have hstart : op.isStart = false := by
      cases hop' : op.isStart with
      | false => rfl
      | true => rw [Operation.isStop_of_isStart hop'] at hop; cases hop
    exact {
      start_calls := by simp [hstart]
      start_only := by simp
      started := by simp [Started]
      startFailed := by simp
      stopped := fun _ => ⟨rfl, result, rfl, rfl⟩
      kept := by simp [Stops, hop]
      asked := by simp }
  | kept op hstart hstop phase raised =>
    exact {
      start_calls := by simp [hstart]
      start_only := by simp
      started := by simp [Started]
      startFailed := by simp
      stopped := by simp [Stops, hstop]
      kept := fun _ _ => rfl
      asked := by simp }
  | asked =>
    exact {
      start_calls := fun _ hbefore => absurd rfl hbefore
      start_only := by simp
      started := by simp [Started]
      startFailed := by simp
      stopped := by simp [Stops, Operation.isStop]
      kept := fun _ _ => rfl
      asked := fun _ _ _ _ => rfl }

namespace Provider

variable {σ : Type}

theorem session_concat (p : Provider σ) (aliases : AliasTable) (ops : List Operation)
    (op : Operation) (w : σ) :
    p.session aliases (ops ++ [op]) w = p.proceed aliases (p.session aliases ops w) op :=
  List.foldl_append ..

/-- **The phase of a provider is at every moment what the session so far says.**  Whatever a caller
does with a provider, and however often its client fails to start or to stop, every operation is
kept in the history and lawful, and the phases before and after it are those of a provider that has
been through the operations up to there.  A failed start is reported, unless it failed without a
text. -/
theorem session_explained (p : Provider σ) (aliases : AliasTable) (ops : List Operation) (w : σ) :
    (p.session aliases ops w).history.map Entry.operation = ops ∧
    Explains (p.session aliases ops w).history (p.session aliases ops w).phase ∧
    ∀ earlier e later, (p.session aliases ops w).history = earlier ++ e :: later →
      Explains earlier e.before ∧ e.Lawful ∧ Explains (earlier ++ [e]) e.after := by
  induction ops using List.reverseRecOn with
  | nil => exact ⟨rfl, .nil, by simp [session]⟩
  | append_singleton ops op ih =>
    obtain ⟨hops, hphase, hmoments⟩ := ih
    rw [session_concat]
    generalize p.session aliases ops w = s at *
    have hregular := p.perform_regular aliases s.phase s.outside op
    obtain ⟨hoperation, hbefore⟩ := p.perform_operation aliases s.phase s.outside op
    rw [← hbefore] at hphase
    refine ⟨by simp [proceed, hops, hoperation], hphase.step hregular, ?_⟩
    intro earlier e later hhistory
    rcases split_concat hhistory with ⟨rfl, rfl, -⟩ | ⟨rest, hrest, -⟩
    · exact ⟨hphase, hregular.lawful, hphase.step hregular⟩
    · exact hmoments earlier e rest hrest

/-- A client that fails to start with an integer of 5001 digits: no startup failure is raised, but the
failure of asking for the text, and nothing is logged. -/
theorem session_overlong_fails :
    let client : AssignmentClient StaticClient :=
      { StaticClient.client [] (.whole _) with start := fun w => (.error .overlong, w) }
    let p : Provider StaticClient :=
      ⟨⟨"key", none, none, [], "", ""⟩, client, none, none, none, fun _ w => w⟩
    (p.session [] [.start] .fresh).history
        = [⟨.start, .notReady, [.start (.error .overlong)], some .integerTooLong, .failed⟩] ∧
      (p.watched.start .notReady (.begin .fresh)).2.2.logs = [] := by
  intro client p
  have hcall : p.client.start .fresh = (.error .overlong, .fresh) := rfl
  have hwatched : p.watched.client.start (.begin .fresh)
      = (.error .overlong, ⟨.fresh, [.start (.error .overlong)], []⟩) := rfl
  have hphase : Phase.notReady ≠ .ready := by decide
  constructor
  · simp only [session, List.foldl, proceed, perform, start, hcall, hwatched, if_neg hphase,
      Failure.message_overlong]
    rfl
  · simp only [start, hwatched, if_neg hphase, Failure.message_overlong]

end Provider

end Rollout
