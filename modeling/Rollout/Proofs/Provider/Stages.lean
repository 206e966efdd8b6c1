/-
The stages of an evaluation.

An evaluation goes through its stages in order: the phase of the provider, the subject of the
context, the answer of the client, the variant of the flag, and the payload of the variant.  The
first stage that fails decides the outcome, and the stages after it do not happen: a client is asked
once, for the one flag, if the evaluation comes so far, and otherwise not at all.

* `Provider.Decides` — the stage that decides an evaluation, with its outcome and the calls so far;
* `Provider.evaluate_decided` — every evaluation with an outcome is decided by one of the stages, and
  is logged exactly when it failed.
-/
import Rollout.Proofs.Provider.Escape
import Rollout.Proofs.Provider.Watched
import Rollout.Proofs.Record.Building

namespace Rollout

theorem ErrorClass.kind_ne_none (cls : ErrorClass) : cls.kind ≠ .none := by
  cases cls <;> decide

/-- A variant that fails to evaluate does so with a kind of failure. -/
theorem evaluateVariant_kind {type : FlagType} {v : Variant} {default value : Value}
    {kind : ErrorKind} {message : String}
    (h : evaluateVariant type v default = .ok (.failed value kind message)) : kind ≠ .none := by
  unfold evaluateVariant at h
  split at h
  · cases h
  · split at h
    · cases h
    · cases h
    · cases h
      exact ErrorClass.kind_ne_none _
    · cases h

namespace Provider

variable {σ : Type}

/-- What is logged of an outcome: one warning if it failed, and nothing otherwise. -/
def warnings (type : FlagType) (flag : String) : Outcome → List LogEvent
  | .failed _ kind message => [failedEvent type flag kind message]
  | _ => []

/-- The stage that decides an evaluation, with the outcome and what the client was asked. -/
inductive Decides (p : Provider σ) (s : State) (type : FlagType) (flag : String)
    (default : Value) (context : Attributes) (w : σ) : Outcome → List ClientCall → Prop
  /-- The provider was not started. -/
  | notReady (phase : s.phase = .notReady) :
      Decides p s type flag default context w
        (.failed default .providerNotReady "provider not ready") []
  /-- The client of the provider failed to start. -/
  | errorState (phase : s.phase = .failed) :
      Decides p s type flag default context w
        (.failed default .general "provider in error state") []
  /-- No subject can be built from the context. -/
  | context (phase : s.phase = .ready) (message : String) (cause : Option Failure) (w₁ : σ)
      (build : buildSubject s.aliases p.subjectHook context w
        = (.error (.invalidContext message (normalize s.aliases .subject context) cause), w₁)) :
      Decides p s type flag default context w (.failed default .invalidContext message) []
  /-- The client raised a failure. -/
  | client (phase : s.phase = .ready) (subject : Subject) (w₁ : σ)
      (build : buildSubject s.aliases p.subjectHook context w = (.ok subject, w₁))
      (failure : Failure) (w₂ : σ)
      (call : p.client.evaluate subject [flag] w₁ = (.error failure, w₂))
      (message : String) (text : failure.message = .ok message) :
      Decides p s type flag default context w
        (.failed default .general ("assignment failed: " ++ message))
        [.evaluate subject [flag] (.error failure)]
  /-- The client has no variant of the flag. -/
  | missing (phase : s.phase = .ready) (subject : Subject) (w₁ : σ)
      (build : buildSubject s.aliases p.subjectHook context w = (.ok subject, w₁))
      (variants : Variants) (w₂ : σ)
      (call : p.client.evaluate subject [flag] w₁ = (.ok variants, w₂))
      (find : Assoc.find? flag variants = none) :
      Decides p s type flag default context w
        (.failed default .flagNotFound ("flag " ++ flag ++ " not found"))
        [.evaluate subject [flag] (.ok variants)]
  /-- The payload of the variant decides. -/
  | payload (phase : s.phase = .ready) (subject : Subject) (w₁ : σ)
      (build : buildSubject s.aliases p.subjectHook context w = (.ok subject, w₁))
      (variants : Variants) (w₂ : σ)
      (call : p.client.evaluate subject [flag] w₁ = (.ok variants, w₂))
      (v : Variant) (find : Assoc.find? flag variants = some v)
      (outcome : Outcome) (evaluated : evaluateVariant type v default = .ok outcome) :
      Decides p s type flag default context w outcome [.evaluate subject [flag] (.ok variants)]

/-! ### From the variant to the outcome -/

theorem evaluate_of_fetch_reported {p : Provider σ} {s : State} {type : FlagType} {flag : String}
    {default : Value} {context : Attributes} {w w₁ : σ} {report : Report} {cause : Option Failure}
    (h : p.fetch s flag context w = (.error (.reported report cause), w₁)) :
    p.evaluate s type flag default context w
      = p.fail type flag default report.cls.kind report.message w₁ := by
  rw [evaluate, h]

/-- An evaluation that comes by a variant has its outcome, logged if it failed. -/
theorem evaluate_of_fetch_ok {p : Provider σ} {s : State} {type : FlagType} {flag : String}
    {default : Value} {context : Attributes} {w w₁ : σ} {v : Variant} {outcome : Outcome}
    (h : p.fetch s flag context w = (.ok v, w₁))
    (hv : evaluateVariant type v default = .ok outcome) :
    p.evaluate s type flag default context w
      = (.ok outcome, (warnings type flag outcome).foldl (fun w e => p.log e w) w₁) := by
  simp only [evaluate, h, hv]
  cases outcome with
  | resolved value variant metadata => rfl
  | defaulted value => rfl
  | failed value kind message =>
    have hvalue : value = default := evaluateVariant_value hv (by simp [Outcome.reason])
    rw [hvalue]
    rfl

/-! ### The stages of a provider that is watched -/

variable (p : Provider σ) (s : State) (flag : String) (context : Attributes)

theorem watched_fail_eq (type : FlagType) (default : Value) (kind : ErrorKind) (message : String)
    (w : Watched σ) :
    p.watched.fail type flag default kind message w
      = (.ok (.failed default kind message),
        ⟨p.log (failedEvent type flag kind message) w.outside, w.calls,
          w.logs ++ [failedEvent type flag kind message]⟩) := rfl

theorem watched_foldl_log (events : List LogEvent) (w : Watched σ) :
    (events.foldl (fun w e => p.watched.log e w) w).calls = w.calls ∧
      (events.foldl (fun w e => p.watched.log e w) w).logs = w.logs ++ events := by
  induction events generalizing w with
  | nil => exact ⟨rfl, (List.append_nil _).symm⟩
  | cons e events ih =>
    obtain ⟨hcalls, hlogs⟩ := ih (p.watched.log e w)
    refine ⟨hcalls, ?_⟩
    rw [List.foldl_cons, hlogs]
    exact List.append_assoc ..

/-- The client is asked once, for the one flag. -/
theorem watched_assign_eq (subject : Subject) (w : Watched σ) :
    p.watched.assign flag subject w = ((p.assign flag subject w.outside).1,
      ⟨(p.assign flag subject w.outside).2,
        w.calls ++ [.evaluate subject [flag] (p.client.evaluate subject [flag] w.outside).1],
        w.logs⟩) := by
  have hcall : p.watched.client.evaluate subject [flag] w
      = Watched.act (fun result => [.evaluate subject [flag] result])
        (p.client.evaluate subject [flag]) w := rfl
  rw [assign, assign, hcall, act_eq]
  cases p.client.evaluate subject [flag] w.outside with
  | mk result outside =>
    cases result with
    | error failure => rfl
    | ok variants =>
      dsimp only
      split <;> rfl

theorem watched_fetch_of_ready (hphase : s.phase = .ready) {w w₁ : σ} {subject : Subject}
    (hbuild : buildSubject s.aliases p.subjectHook context w = (.ok subject, w₁)) :
    p.watched.fetch s flag context (.begin w)
      = ((p.assign flag subject w₁).1, ⟨(p.assign flag subject w₁).2,
          [.evaluate subject [flag] (p.client.evaluate subject [flag] w₁).1], []⟩) := by
  simp only [fetch, hphase, Phase.refusal, watched_buildSubject, Watched.begin, Watched.leave,
    hbuild, watched_assign_eq, List.nil_append]

theorem watched_fetch_of_context (hphase : s.phase = .ready) {w w₁ : σ} {f : Failure}
    (hbuild : buildSubject s.aliases p.subjectHook context w = (.error f, w₁)) :
    p.watched.fetch s flag context (.begin w) = (.error f, .begin w₁) := by
  simp only [fetch, hphase, Phase.refusal, watched_buildSubject, Watched.begin, Watched.leave,
    hbuild]

theorem watched_fetch_of_refusal {f : Failure} (hphase : s.phase.refusal = some f) (w : σ) :
    p.watched.fetch s flag context (.begin w) = (.error f, .begin w) := by
  simp only [fetch, hphase]

/-! ### The outcome and its stage -/

/-- The outcome of an evaluation that is watched, decided by a stage, and its log. -/
def Decided (p : Provider σ) (s : State) (type : FlagType) (flag : String) (default : Value)
    (context : Attributes) (w : σ) (result : Except Failure Outcome × Watched σ) : Prop :=
  ∀ outcome, result.1 = .ok outcome →
    p.Decides s type flag default context w outcome result.2.calls ∧
      result.2.logs = warnings type flag outcome

theorem decided_of_reported {p : Provider σ} {s : State} {type : FlagType} {flag : String}
    {default : Value} {context : Attributes} {w : σ} {w₁ : Watched σ} {report : Report}
    {cause : Option Failure}
    (h : p.watched.fetch s flag context (.begin w) = (.error (.reported report cause), w₁))
    (hlogs : w₁.logs = [])
    (hstage : p.Decides s type flag default context w
      (.failed default report.cls.kind report.message) w₁.calls) :
    p.Decided s type flag default context w
      (p.watched.evaluate s type flag default context (.begin w)) := by
  rw [evaluate_of_fetch_reported h, watched_fail_eq, hlogs]
  intro outcome houtcome
  cases houtcome
  exact ⟨hstage, rfl⟩

/-- An evaluation that fetches nothing and reports nothing has no outcome. -/
theorem decided_of_unreported {p : Provider σ} {s : State} {type : FlagType} {flag : String}
    {default : Value} {context : Attributes} {w : σ} {w₁ : Watched σ} {f : Failure}
    (h : p.watched.fetch s flag context (.begin w) = (.error f, w₁)) (hf : ¬ f.IsReported) :
    p.Decided s type flag default context w
      (p.watched.evaluate s type flag default context (.begin w)) := by
  intro outcome houtcome
  rw [evaluate_fst_of_unreported type default (by rw [h]) hf] at houtcome
  cases houtcome

theorem decided_of_ok {p : Provider σ} {s : State} {type : FlagType} {flag : String}
    {default : Value} {context : Attributes} {w : σ} {w₁ : Watched σ} {v : Variant}
    (h : p.watched.fetch s flag context (.begin w) = (.ok v, w₁)) (hlogs : w₁.logs = [])
    (hstage : ∀ outcome, evaluateVariant type v default = .ok outcome →
      p.Decides s type flag default context w outcome w₁.calls) :
    p.Decided s type flag default context w
      (p.watched.evaluate s type flag default context (.begin w)) := by
  intro outcome houtcome
  rw [evaluate_fst_of_fetch (v := v) (by rw [h])] at houtcome
  obtain ⟨hcalls, hlogs'⟩ := watched_foldl_log p (warnings type flag outcome) w₁
  rw [evaluate_of_fetch_ok h houtcome, hcalls, hlogs', hlogs]
  exact ⟨hstage outcome houtcome, rfl⟩

/-- Every evaluation with an outcome is decided by one of the stages. -/
theorem decided (p : Provider σ) (s : State) (type : FlagType) (flag : String) (default : Value)
    (context : Attributes) (w : σ) :
    p.Decided s type flag default context w
      (p.watched.evaluate s type flag default context (.begin w)) := by
  cases hphase : s.phase with
  | notReady =>
    exact decided_of_reported (watched_fetch_of_refusal p s flag context (by rw [hphase]; rfl) w)
      rfl (.notReady hphase)
  | failed =>
    exact decided_of_reported (watched_fetch_of_refusal p s flag context (by rw [hphase]; rfl) w)
      rfl (.errorState hphase)
  | ready =>
    cases hbuild : buildSubject s.aliases p.subjectHook context w with
    | mk built w₁ =>
      cases built with
      | error failure =>
        have hfetch := watched_fetch_of_context p s flag context hphase hbuild
        rcases buildSubject_error (congrArg Prod.fst hbuild) with ⟨message, cause, rfl⟩ | hsilent
        · exact decided_of_reported hfetch rfl (.context hphase message cause w₁ hbuild)
        · exact decided_of_unreported hfetch hsilent.not_isReported
      | ok subject =>
        have hfetch := watched_fetch_of_ready p s flag context hphase hbuild
        -- The client is asked now, and its answer is all that is left to look at.
        rw [assign] at hfetch
        cases hcall : p.client.evaluate subject [flag] w₁ with
        | mk answer w₂ =>
          rw [hcall] at hfetch
          cases answer with
          | error failure =>
            cases htext : failure.message with
            | error other =>
              refine decided_of_unreported hfetch ?_
              rw [assignmentFailure, Failure.handled_of_silent htext]
              exact Failure.not_isReported_of_silent htext
            | ok message =>
              dsimp only at hfetch
              rw [assignmentFailure, Failure.handled_of_message htext] at hfetch
              exact decided_of_reported hfetch rfl
                (.client hphase subject w₁ hbuild failure w₂ hcall message htext)
          | ok variants =>
            dsimp only at hfetch
            cases hfind : Assoc.find? flag variants with
            | none =>
              rw [hfind] at hfetch
              exact decided_of_reported hfetch rfl
                (.missing hphase subject w₁ hbuild variants w₂ hcall hfind)
            | some v =>
              rw [hfind] at hfetch
              exact decided_of_ok hfetch rfl fun outcome houtcome =>
                .payload hphase subject w₁ hbuild variants w₂ hcall v hfind outcome houtcome

/-- A failed outcome holds the default and names a kind of failure, whatever stage decided it. -/
theorem Decides.failed {p : Provider σ} {s : State} {type : FlagType} {flag : String}
    {default : Value} {context : Attributes} {w : σ} {outcome : Outcome}
    {calls : List ClientCall} (h : p.Decides s type flag default context w outcome calls)
    (hfailed : outcome.isFailed = true) : outcome.value = default ∧ outcome.kind ≠ .none := by
  cases h with
  | payload _ _ _ _ _ _ _ v _ outcome hv =>
    cases outcome with
    | failed value kind message =>
      exact ⟨evaluateVariant_value hv (by simp [Outcome.reason]), evaluateVariant_kind hv⟩
    | _ => cases hfailed
  | _ => exact ⟨rfl, by simp [Outcome.kind]⟩

end Provider

end Rollout
