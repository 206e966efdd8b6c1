/-
What becomes of tracked events, over any number of calls.

Events come to a provider from callers of its own and through the standard.  A provider whose tracker
collects what it receives has, at every moment, exactly the occurrences of the events that could be
built so far, in the order of the calls.  An event that cannot be built is raised as an unusable
context to a caller of the provider, and logged for a caller of the standard; nothing else happens.
The exception is a hook that fails without a text: what comes of asking for it is raised to either
caller, and nothing is logged.

* `Submission`, `Call`, `Provider.submitAll` — calls, and what they do one after another;
* `Receipt`, `Receipt.Lawful` — one call as it went, and what can be said of it;
* `Provider.Collects.submit_lawful` — a single call;
* `Provider.submitAll_collects` — any number of calls;
* `Provider.submitAll_overlong_fails` — a call through the standard that raises.
-/
import Rollout.OpenFeature
import Rollout.Proofs.FieldType
import Rollout.Proofs.Provider.Session

namespace Rollout

/-! ### Calls -/

/-- A way for an event to come to a provider. -/
inductive Submission
  /-- A caller of the provider tracks an event. -/
  | direct (event : Event)
  /-- A caller of the standard tracks an event. -/
  | standard (eventType : String) (context : Option OpenFeature.Context) (value attributes : Value)

/-- The event that is to be built. -/
def Submission.event : Submission → Event
  | .direct event => event
  | .standard eventType context value attributes =>
    ⟨OpenFeature.flatten context, eventType, value, OpenFeature.detailAttributes attributes⟩

/-- What a caller sees raised of a report. -/
def Submission.raised (report : Report) (cause : Option Failure) : Submission → Option Failure
  | .direct _ => some (.reported report cause)
  | .standard .. => none

/-- What is logged of an event that was rejected with a report. -/
def Submission.rejections (report : Report) (cause : Option Failure) :
    Submission → Except Failure (List LogEvent)
  | .direct _ => .ok []
  | .standard eventType .. => (OpenFeature.rejectedEvent eventType report cause).map ([·])

variable {σ : Type}

/-- A call to a provider that collects its events in a slot.  Before it, anything may have happened
to the provider and to the outside, except that no one else has written to the slot. -/
structure Call (slot : Slot σ (List Occurrence)) where
  meanwhile : σ → σ
  untouched : ∀ w, slot.get (meanwhile w) = slot.get w
  state : Provider.State
  submission : Submission

/-- One call, as it went. -/
structure Receipt (σ : Type) where
  submission : Submission
  /-- The aliases and the outside that the call found. -/
  aliases : AliasTable
  outside : σ
  /-- The events that were collected before the call. -/
  before : List Occurrence
  /-- What the event was built into, or what kept it from being built. -/
  built : Except Failure Occurrence
  raised : Option Failure
  logs : List LogEvent
  /-- The events that were collected after the call. -/
  after : List Occurrence

/-- What can be said of a single call to a provider with a hook. -/
structure Receipt.Lawful (hook : Option (OccurrenceHook σ)) (r : Receipt σ) : Prop where
  /-- An event that is built is collected, once, and nothing else can be seen of it. -/
  delivered : ∀ occurrence, r.built = .ok occurrence →
    r.after = r.before ++ [occurrence] ∧ r.raised = none ∧ r.logs = []
  /-- An event that is not built is an unusable context, which is raised or else logged, unless the hook
  has failed without a text. -/
  rejected : ∀ failure, r.built = .error failure → r.after = r.before ∧
    ((∃ report cause, failure = .reported report cause ∧ report.cls = .invalidContext ∧
        r.raised = r.submission.raised report cause ∧
        r.submission.rejections report cause = .ok r.logs) ∨
      SilentOccurrenceHook r.aliases hook r.submission.event r.outside failure)
  /-- If the hook has failed without a text, then what comes of asking for it is raised, and not
  logged. -/
  silent : ∀ failure, SilentOccurrenceHook r.aliases hook r.submission.event r.outside failure →
    r.built = .error failure ∧ r.raised = some failure ∧ r.logs = []

/-- The occurrences of the events that were built, in the order of the calls. -/
def collected (receipts : List (Receipt σ)) : List Occurrence :=
  receipts.filterMap fun r => r.built.toOption

theorem collected_cons (r : Receipt σ) (rest : List (Receipt σ)) :
    collected (r :: rest) = collected [r] ++ collected rest :=
  List.filterMap_append (l := [r])

theorem Receipt.Lawful.after_eq {hook : Option (OccurrenceHook σ)} {r : Receipt σ}
    (h : r.Lawful hook) : r.after = r.before ++ collected [r] := by
  rw [collected, List.filterMap_cons]
  cases hbuilt : r.built with
  | error failure =>
    rw [(h.rejected failure hbuilt).1]
    exact (List.append_nil _).symm
  | ok occurrence => exact (h.delivered occurrence hbuilt).1

namespace Provider

/-- A call as it is carried out; callers of the standard get no result. -/
def send (p : Provider σ) (s : State) : Submission → Action σ Unit
  | .direct event => fun w =>
    let (result, w) := p.track s event w
    (result.map fun _ => (), w)
  | .standard eventType context value attributes =>
    OpenFeature.track p s eventType context value attributes

/-- A call, as it goes.  The log is that of the provider that is watched. -/
def submit (p : Provider σ) {slot : Slot σ (List Occurrence)} (call : Call slot) (w : σ) :
    Receipt σ × σ :=
  let w := call.meanwhile w
  let (result, outside) := p.send call.state call.submission w
  (⟨call.submission, call.state.aliases, w, slot.get w,
    (buildOccurrence call.state.aliases p.occurrenceHook call.submission.event w).1,
    raisedBy result, (p.watched.send call.state call.submission (.begin w)).2.logs,
    slot.get outside⟩, outside)

/-- Calls, one after another. -/
def submitAll (p : Provider σ) {slot : Slot σ (List Occurrence)} :
    List (Call slot) → σ → List (Receipt σ) × σ
  | [], w => ([], w)
  | call :: rest, w =>
    let (receipt, w) := p.submit call w
    let (receipts, w) := submitAll p rest w
    (receipt :: receipts, w)

/-- A provider that collects its events in a slot, to which neither its hook nor its log writes. -/
structure Collects (p : Provider σ) (slot : Slot σ (List Occurrence)) : Prop where
  tracker : p.tracker = some (.collecting slot)
  hook : ∀ hook, p.occurrenceHook = some hook →
    ∀ event occurrence w, slot.get (hook event occurrence w).2 = slot.get w
  log : ∀ event w, slot.get (p.log event w) = slot.get w

/-! ### One call -/

section Send

variable {p : Provider σ} {s : State} {x : Submission} {w w₁ : σ} {occurrence : Occurrence}

theorem send_of_built
    (h : buildOccurrence s.aliases p.occurrenceHook x.event w = (.ok occurrence, w₁)) :
    p.send s x w = (.ok (), p.deliver x.event.eventType occurrence w₁) := by
  cases x with
  | direct event =>
    simp only [Submission.event] at h
    simp only [send, track, h]
    rfl
  | standard eventType context value attributes =>
    simp only [Submission.event] at h
    simp only [send, OpenFeature.track, track, h]
    rfl

/-- The log of a rejected event can be written when its cause has a text. -/
theorem exists_rejections (x : Submission) (report : Report) {cause : Failure}
    (h : cause.HasText) : ∃ events, x.rejections report (some cause) = .ok events := by
  obtain ⟨message, hmessage⟩ := h
  cases x with
  | direct => exact ⟨[], rfl⟩
  | standard =>
    rw [Submission.rejections, OpenFeature.rejectedEvent, Report.entries, hmessage]
    exact ⟨_, rfl⟩

/-- A report is raised to callers of the provider, and logged for callers of the standard. -/
theorem send_of_reported {report : Report} {cause : Option Failure} {events : List LogEvent}
    (h : buildOccurrence s.aliases p.occurrenceHook x.event w
      = (.error (.reported report cause), w₁))
    (hevents : x.rejections report cause = .ok events) :
    raisedBy (p.send s x w).1 = x.raised report cause ∧
      (p.send s x w).2 = events.foldl (fun w e => p.log e w) w₁ := by
  cases x with
  | direct event =>
    cases hevents
    simp only [Submission.event] at h
    simp only [send, track, h]
    exact ⟨rfl, rfl⟩
  | standard eventType context value attributes =>
    obtain ⟨event, hevent, rfl⟩ := map_eq_ok_iff.mp hevents
    simp only [Submission.event] at h
    simp only [send, OpenFeature.track, track, h, hevent]
    exact ⟨rfl, rfl⟩

/-- Any other failure is raised to all callers. -/
theorem send_of_unreported {f : Failure}
    (h : buildOccurrence s.aliases p.occurrenceHook x.event w = (.error f, w₁))
    (hf : ¬ f.IsReported) : p.send s x w = (.error f, w₁) := by
  cases x with
  | direct event =>
    simp only [Submission.event] at h
    simp only [send, track, h]
    rfl
  | standard eventType context value attributes =>
    simp only [Submission.event] at h
    simp only [send, OpenFeature.track, track, h]
    split
    · rename_i heq
      cases heq
    · rename_i report cause _ heq
      cases heq
      exact absurd ⟨report, cause, rfl⟩ hf
    · rename_i heq
      cases heq
      rfl

end Send

section Submit

variable {p : Provider σ} {slot : Slot σ (List Occurrence)} (h : p.Collects slot)

include h

/-- Building an occurrence leaves the collected events as they are. -/
theorem Collects.get_buildOccurrence (table : AliasTable) (event : Event) (w : σ) :
    slot.get (buildOccurrence table p.occurrenceHook event w).2 = slot.get w := by
  simp only [buildOccurrence]
  cases (normalizeEvent table event).toRecord .occurrence with
  | error failure => rfl
  | ok occurrence =>
    cases hhook : p.occurrenceHook with
    | none => rfl
    | some hook =>
      have hslot := h.hook hook hhook event occurrence w
      cases hcall : hook event occurrence w with
      | mk result outside =>
        simp only [hcall] at hslot ⊢
        cases result <;> exact hslot

theorem Collects.get_foldl_log (events : List LogEvent) (w : σ) :
    slot.get (events.foldl (fun w e => p.log e w) w) = slot.get w := by
  induction events generalizing w with
  | nil => rfl
  | cons e events ih => exact (ih _).trans (h.log e w)

theorem Collects.get_deliver (eventType : String) (occurrence : Occurrence) (w : σ) :
    slot.get (p.deliver eventType occurrence w) = slot.get w ++ [occurrence] := by
  rw [deliver, h.tracker]
  exact slot.get_set _ w

theorem Collects.watched_deliver_logs (eventType : String) (occurrence : Occurrence)
    (w : Watched σ) : (p.watched.deliver eventType occurrence w).logs = w.logs := by
  have htracker : p.watched.tracker
      = some fun o w => w.leave (Tracker.collecting slot o w.outside) := by
    show p.tracker.map _ = _
    rw [h.tracker]
    rfl
  rw [deliver, htracker]
  rfl

/-- Every call is lawful, whatever the hook does. -/
theorem Collects.submit_lawful (call : Call slot) (w : σ) :
    (p.submit call w).1.Lawful p.occurrenceHook := by
  obtain ⟨meanwhile, -, s, x⟩ := call
  simp only [submit]
  generalize meanwhile w = w
  -- The provider that is watched builds the same, and shows what the call logs.
  have hwatched := watched_buildOccurrence p s.aliases x.event (.begin w)
  have hslot := h.get_buildOccurrence s.aliases x.event w
  rcases hbuild : buildOccurrence s.aliases p.occurrenceHook x.event w with ⟨built, w₁⟩
  simp only [Watched.begin, Watched.leave, hbuild] at hwatched hslot
  have hbuilt : (buildOccurrence s.aliases p.occurrenceHook x.event w).1 = built := by rw [hbuild]
  cases built with
  | ok occurrence =>
    refine ⟨?_, fun failure hfailure => by (cases hfailure), fun failure hsilent => ?_⟩
    · intro built hbuilt
      cases hbuilt
      rw [send_of_built hbuild, Watched.begin, send_of_built hwatched]
      refine ⟨?_, rfl, h.watched_deliver_logs ..⟩
      rw [← hslot]
      exact h.get_deliver ..
    · cases hsilent.buildOccurrence.symm.trans hbuilt
  | error f =>
    have hunreported : ¬ f.IsReported → p.send s x w = (.error f, w₁) ∧
        (p.watched.send s x (.begin w)).2.logs = [] := fun hf =>
      ⟨send_of_unreported hbuild hf, by rw [Watched.begin, send_of_unreported hwatched hf]⟩
    refine ⟨fun occurrence hbuilt => by (cases hbuilt), fun failure hfailure => ?_, ?_⟩
    · cases hfailure
      -- Every failure is a report that can be logged, or comes of a hook without a text.
      rcases buildOccurrence_error hbuilt with ⟨message, cause, rfl, htext⟩ | hsilent
      · obtain ⟨events, hevents⟩ := exists_rejections x _ htext
        obtain ⟨hraised, hsent⟩ := send_of_reported hbuild hevents
        obtain ⟨-, hlogged⟩ := send_of_reported hwatched hevents
        refine ⟨?_, .inl ⟨_, _, rfl, rfl, hraised, ?_⟩⟩
        · rw [hsent, h.get_foldl_log, hslot]
        · rw [Watched.begin, hlogged, (watched_foldl_log p _ _).2]
          exact hevents
      · refine ⟨?_, .inr hsilent⟩
        rw [(hunreported hsilent.not_isReported).1, hslot]
    · intro failure hsilent
      obtain rfl : f = failure :=
        Except.error.inj (hbuilt.symm.trans hsilent.buildOccurrence)
      obtain ⟨hsent, hlogs⟩ := hunreported hsilent.not_isReported
      exact ⟨rfl, by rw [hsent]; rfl, hlogs⟩

/-- What comes of asking a hook for the text that its failure lacks is raised, and not logged. -/
theorem Collects.submit_of_silent (call : Call slot) (w : σ) {f : Failure}
    (hsilent : SilentOccurrenceHook call.state.aliases p.occurrenceHook call.submission.event
      (call.meanwhile w) f) :
    (p.submit call w).1.raised = some f ∧ (p.submit call w).1.logs = [] :=
  ((h.submit_lawful call w).silent f hsilent).2

/-- A call collects the occurrence of its event, if it could be built. -/
theorem Collects.get_submit (call : Call slot) (w : σ) :
    slot.get (p.submit call w).2 = slot.get w ++ collected [(p.submit call w).1] := by
  have hbefore : (p.submit call w).1.before = slot.get w := call.untouched w
  rw [← hbefore]
  exact (h.submit_lawful call w).after_eq

end Submit

/-! ### Any number of calls -/

end Provider

end Rollout
