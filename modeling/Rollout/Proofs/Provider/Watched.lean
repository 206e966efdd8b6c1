/-
A provider that is watched.

The client, the tracker and the hooks of a provider act on an outside world.  Watching the provider
keeps a record beside that world: what its client was asked and how it answered, and what the
provider logged.  Nothing else changes.

* `ClientCall`, `Watched` — the record, and a world with one;
* `Provider.watched` — a provider in such a world;
* `Provider.watched_evaluate`, `watched_start`, `watched_stop`, `watched_track` — a provider that is
  watched gives the same results and leaves the same outside as one that is not.
-/
import Rollout.Provider.Flags
import Rollout.Provider.Tracking

namespace Rollout

/-! ### The record -/

/-- What a client was asked, and how it answered. -/
inductive ClientCall
  | start (result : Except Failure Unit)
  | stop (result : Except Failure Unit)
  | evaluate (subject : Subject) (flags : List String) (result : Except Failure Variants)

/-- A world with a record of what a provider did in it. -/
structure Watched (σ : Type) where
  outside : σ
  calls : List ClientCall
  logs : List LogEvent

namespace Watched

variable {σ α : Type}

/-- A world in which nothing was done yet. -/
def begin (w : σ) : Watched σ := ⟨w, [], []⟩

/-- The world after the outside has changed. -/
def leave (w : Watched σ) (outside : σ) : Watched σ := { w with outside }

/-- An action on the outside, with the calls of a client that its result stands for. -/
def act (calls : Except Failure α → List ClientCall) (action : Action σ α) :
    Action (Watched σ) α := fun w =>
  let (result, outside) := action w.outside
  (result, { w with outside, calls := w.calls ++ calls result })

end Watched

open Watched (act)

variable {σ : Type}

/-- A client whose calls are kept. -/
def AssignmentClient.watched (c : AssignmentClient σ) : AssignmentClient (Watched σ) where
  start := act (fun result => [.start result]) c.start
  stop := act (fun result => [.stop result]) c.stop
  evaluate subject flags := act (fun result => [.evaluate subject flags result])
    (c.evaluate subject flags)

namespace Provider

/-- A provider whose client calls and log are kept. -/
def watched (p : Provider σ) : Provider (Watched σ) where
  settings := p.settings
  client := p.client.watched
  tracker := p.tracker.map fun send occurrence w => w.leave (send occurrence w.outside)
  subjectHook := p.subjectHook.map fun hook attributes subject =>
    act (fun _ => []) (hook attributes subject)
  occurrenceHook := p.occurrenceHook.map fun hook event occurrence =>
    act (fun _ => []) (hook event occurrence)
  log event w := { w with outside := p.log event w.outside, logs := w.logs ++ [event] }

/-! ### Watching changes nothing -/

/-- The same result, and the same outside. -/
def SameOutside {α : Type} (observed : α × Watched σ) (plain : α × σ) : Prop :=
  observed.1 = plain.1 ∧ observed.2.outside = plain.2

theorem act_eq {α : Type} (calls : Except Failure α → List ClientCall) (action : Action σ α)
    (w : Watched σ) : act calls action w
      = ((action w.outside).1, { w with
          outside := (action w.outside).2, calls := w.calls ++ calls (action w.outside).1 }) := rfl

theorem act_silent {α : Type} (action : Action σ α) (w : Watched σ) :
    act (fun _ => []) action w = ((action w.outside).1, w.leave (action w.outside).2) := by
  rw [act_eq, List.append_nil]
  rfl

variable (p : Provider σ)

/-- A hook that is watched acts on the outside only. -/
theorem watched_applySubjectHook (hook : SubjectHook σ) (context : Attributes)
    (n : Normalization) (subject : Subject) (w : Watched σ) :
    applySubjectHook (fun attributes subject => act (fun _ => []) (hook attributes subject))
        context n subject w
      = ((applySubjectHook hook context n subject w.outside).1,
        w.leave (applySubjectHook hook context n subject w.outside).2) := by
  simp only [applySubjectHook, act_silent]
  cases hook context subject w.outside with
  | mk result outside =>
    cases result with
    | error failure => rfl
    | ok changed =>
      dsimp only
      split <;> rfl

/-- Building a subject touches the outside only. -/
theorem watched_buildSubject (table : AliasTable) (context : Attributes) (w : Watched σ) :
    buildSubject table p.watched.subjectHook context w
      = ((buildSubject table p.subjectHook context w.outside).1,
        w.leave (buildSubject table p.subjectHook context w.outside).2) := by
  unfold buildSubject
  cases normalizeSubject table context with
  | error failure => rfl
  | ok n =>
    dsimp only
    cases n.toRecord .subject with
    | error failure => rfl
    | ok subject =>
      simp only [watched]
      cases p.subjectHook with
      | none => rfl
      | some hook => exact watched_applySubjectHook hook context n subject w

/-- Building an occurrence touches the outside only. -/
theorem watched_buildOccurrence (table : AliasTable) (e : Event) (w : Watched σ) :
    buildOccurrence table p.watched.occurrenceHook e w
      = ((buildOccurrence table p.occurrenceHook e w.outside).1,
        w.leave (buildOccurrence table p.occurrenceHook e w.outside).2) := by
  simp only [buildOccurrence, watched]
  cases (normalizeEvent table e).toRecord .occurrence with
  | error failure => rfl
  | ok occurrence =>
    cases p.occurrenceHook with
    | none => rfl
    | some hook =>
      simp only [Option.map_some, act_silent]
      cases hook e occurrence w.outside with
      | mk result outside => cases result <;> rfl

theorem watched_assign (flag : String) (subject : Subject) (w : Watched σ) :
    SameOutside (p.watched.assign flag subject w) (p.assign flag subject w.outside) := by
  have hcall : p.watched.client.evaluate subject [flag] w
      = act (fun result => [.evaluate subject [flag] result])
        (p.client.evaluate subject [flag]) w := rfl
  rw [SameOutside, assign, assign, hcall, act_eq]
  cases p.client.evaluate subject [flag] w.outside with
  | mk result outside =>
    cases result with
    | error failure => exact ⟨rfl, rfl⟩
    | ok variants =>
      simp only
      split <;> exact ⟨rfl, rfl⟩

theorem watched_fetch (s : State) (flag : String) (context : Attributes) (w : Watched σ) :
    SameOutside (p.watched.fetch s flag context w) (p.fetch s flag context w.outside) := by
  unfold fetch
  cases s.phase.refusal with
  | some failure => exact ⟨rfl, rfl⟩
  | none =>
    simp only [watched_buildSubject]
    cases buildSubject s.aliases p.subjectHook context w.outside with
    | mk result outside =>
      cases result with
      | error failure => exact ⟨rfl, rfl⟩
      | ok subject => exact watched_assign p flag subject (w.leave outside)

theorem watched_fail (type : FlagType) (flag : String) (default : Value) (kind : ErrorKind)
    (message : String) (w : Watched σ) :
    SameOutside (p.watched.fail type flag default kind message w)
      (p.fail type flag default kind message w.outside) := ⟨rfl, rfl⟩

/-- **Watching an evaluation changes nothing.** -/
theorem watched_evaluate (s : State) (type : FlagType) (flag : String) (default : Value)
    (context : Attributes) (w : Watched σ) :
    SameOutside (p.watched.evaluate s type flag default context w)
      (p.evaluate s type flag default context w.outside) := by
  obtain ⟨hresult, houtside⟩ := watched_fetch p s flag context w
  unfold evaluate
  cases hwatched : p.watched.fetch s flag context w with
  | mk result w' =>
    cases hplain : p.fetch s flag context w.outside with
    | mk result' outside =>
      rw [hwatched, hplain] at hresult houtside
      simp only at hresult houtside
      subst hresult houtside
      cases result with
      | error failure =>
        cases failure with
        | reported report cause => exact watched_fail ..
        | _ => exact ⟨rfl, rfl⟩
      | ok variant =>
        dsimp only
        cases evaluateVariant type variant default with
        | error failure => exact ⟨rfl, rfl⟩
        | ok outcome =>
          cases outcome with
          | failed value kind message => exact watched_fail ..
          | _ => exact ⟨rfl, rfl⟩

/-- **Watching a start changes nothing.** -/
theorem watched_start (phase : Phase) (w : Watched σ) :
    (p.watched.start phase w).1 = (p.start phase w.outside).1 ∧
      SameOutside (p.watched.start phase w).2 (p.start phase w.outside).2 := by
  have hcall : p.watched.client.start w
      = act (fun result => [.start result]) p.client.start w := rfl
  unfold start
  split
  · exact ⟨rfl, rfl, rfl⟩
  · rw [hcall, act_eq]
    cases p.client.start w.outside with
    | mk result outside =>
      cases result with
      | ok => exact ⟨rfl, rfl, rfl⟩
      | error failure =>
        dsimp only
        cases failure.message <;> exact ⟨rfl, rfl, rfl⟩

/-- **Watching a stop changes nothing.** -/
theorem watched_stop (w : Watched σ) :
    (p.watched.stop w).1 = (p.stop w.outside).1 ∧
      SameOutside (p.watched.stop w).2 (p.stop w.outside).2 := by
  have hcall : p.watched.client.stop w
      = act (fun result => [.stop result]) p.client.stop w := rfl
  rw [stop, stop, hcall, act_eq]
  cases p.client.stop w.outside with
  | mk result outside => cases result <;> exact ⟨rfl, rfl, rfl⟩

/-- **Watching a tracked event changes nothing.** -/
theorem watched_track (s : State) (e : Event) (w : Watched σ) :
    SameOutside (p.watched.track s e w) (p.track s e w.outside) := by
  unfold track
  simp only [watched_buildOccurrence]
  cases buildOccurrence s.aliases p.occurrenceHook e w.outside with
  | mk result outside =>
    cases result with
    | error failure => exact ⟨rfl, rfl⟩
    | ok occurrence =>
      refine ⟨rfl, ?_⟩
      simp only [deliver, watched]
      cases p.tracker <;> rfl

end Provider

end Rollout
