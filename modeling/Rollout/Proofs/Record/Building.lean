/-
How building a record can fail.

A subject cannot be built from a context that identifies no one or holds a value that does not fit,
nor when the hook fails or takes the identity away.  An occurrence cannot be built from values that
do not fit, nor when its hook fails.  Each of these is reported as an unusable context, together with
all of the context as it was sorted.  Only a hook whose failure has no text gets past the report.

* `SilentSubjectHook`, `SilentOccurrenceHook` — hooks that are called and whose failure has no text;
* `buildSubject_error`, `buildOccurrence_error` — every other failure is a report of an unusable
  context with its sorted form.
-/
import Rollout.Record.OfAttributes
import Rollout.Proofs.Failure

namespace Rollout

variable {σ : Type} {table : AliasTable} {context : Attributes} {n : Normalization} {f : Failure}

theorem normalizeSubject_ok (h : normalizeSubject table context = .ok n) :
    n = normalize table .subject context ∧ n.hasIdentity = true := by
  simp only [normalizeSubject] at h
  split at h
  · rename_i hidentity
    cases h
    exact ⟨rfl, hidentity⟩
  · cases h

theorem normalizeSubject_error (h : normalizeSubject table context = .error f) :
    ∃ message cause, f = .invalidContext message (normalize table .subject context) cause := by
  simp only [normalizeSubject] at h
  split at h
  · cases h
  · cases h
    exact ⟨_, _, rfl⟩

theorem toRecord_error {shape : Shape} (h : n.toRecord shape = .error f) :
    ∃ message cause, f = .invalidContext message n (some cause) ∧ cause.HasText := by
  unfold Normalization.toRecord at h
  split at h
  · cases h
  · cases h
    exact ⟨_, _, rfl, _, rfl⟩

/-- The failure of a hook is reported, or has no text. -/
theorem hookFailure_cases (what : String) (n : Normalization) (thrown : Failure) :
    (∃ message cause, hookFailure what n thrown = .invalidContext message n (some cause) ∧
        cause.HasText) ∨
      thrown.message = .error (hookFailure what n thrown) := by
  rcases thrown.handled_cases fun message => .invalidContext (what ++ message) n (some thrown)
    with ⟨message, hmessage, hreport⟩ | hsilent
  · exact .inl ⟨_, _, hreport, message, hmessage⟩
  · exact .inr hsilent

/-! ### Subjects -/

/-- A hook that is called with the subject of a context and whose failure has no text. -/
def SilentSubjectHook (table : AliasTable) (hook : Option (SubjectHook σ)) (context : Attributes)
    (w : σ) (f : Failure) : Prop :=
  ∃ h n subject thrown, hook = some h ∧ normalizeSubject table context = .ok n ∧
    n.toRecord .subject = .ok subject ∧ (h context subject w).1 = .error thrown ∧
    thrown.message = .error f

theorem applySubjectHook_error {hook : SubjectHook σ} {subject : Subject} {w : σ}
    (h : (applySubjectHook hook context n subject w).1 = .error f) :
    (∃ message cause, f = .invalidContext message n cause) ∨
      ∃ thrown, (hook context subject w).1 = .error thrown ∧ thrown.message = .error f := by
  unfold applySubjectHook at h
  split at h
  · rename_i thrown _ hthrown
    cases h
    rcases hookFailure_cases "subject hook failed: " n thrown with ⟨_, _, hreport, -⟩ | hsilent
    · exact .inl ⟨_, _, hreport⟩
    · exact .inr ⟨thrown, by rw [hthrown], hsilent⟩
  · split at h
    · cases h
    · cases h
      exact .inl ⟨_, _, rfl⟩

/-- Whatever keeps a subject from being built is reported as an unusable context, with all of the
context as it was sorted, unless its hook fails without a text. -/
theorem buildSubject_error {hook : Option (SubjectHook σ)} {w : σ}
    (h : (buildSubject table hook context w).1 = .error f) :
    (∃ message cause, f = .invalidContext message (normalize table .subject context) cause) ∨
      SilentSubjectHook table hook context w f := by
  unfold buildSubject at h
  split at h
  · rename_i hn
    cases h
    exact .inl (normalizeSubject_error hn)
  · rename_i n hn
    split at h
    · rename_i hr
      cases h
      rw [(normalizeSubject_ok hn).1] at hr
      obtain ⟨message, cause, hreport, -⟩ := toRecord_error hr
      exact .inl ⟨message, _, hreport⟩
    · rename_i subject hr
      split at h
      · cases h
      · rename_i hook
        -- The hook is the last thing that can fail, and the only one that can fail without a text.
        rcases applySubjectHook_error h with hreport | ⟨thrown, hthrown, hsilent⟩
        · rw [(normalizeSubject_ok hn).1] at hreport
          exact .inl hreport
        · exact .inr ⟨hook, n, subject, thrown, rfl, hn, hr, hthrown, hsilent⟩

/-- A failure of asking for the text of a hook's failure is what building the subject fails with. -/
theorem SilentSubjectHook.buildSubject {hook : Option (SubjectHook σ)} {w : σ}
    (h : SilentSubjectHook table hook context w f) :
    (buildSubject table hook context w).1 = .error f := by
  obtain ⟨hook, n, subject, thrown, rfl, hn, hr, hthrown, hsilent⟩ := h
  obtain ⟨w', hresult⟩ : ∃ w', hook context subject w = (.error thrown, w') :=
    ⟨_, Prod.ext hthrown rfl⟩
  simp only [Rollout.buildSubject, hn, hr, applySubjectHook, hresult, hookFailure,
    Failure.handled_of_silent hsilent]

theorem SilentSubjectHook.not_isReported {hook : Option (SubjectHook σ)} {w : σ}
    (h : SilentSubjectHook table hook context w f) : ¬ f.IsReported := by
  obtain ⟨_, _, _, thrown, -, -, -, -, hsilent⟩ := h
  exact Failure.not_isReported_of_silent hsilent

/-! ### Occurrences -/

/-- A hook that is called with the occurrence of an event and whose failure has no text. -/
def SilentOccurrenceHook (table : AliasTable) (hook : Option (OccurrenceHook σ)) (event : Event)
    (w : σ) (f : Failure) : Prop :=
  ∃ h occurrence thrown, hook = some h ∧
    (normalizeEvent table event).toRecord .occurrence = .ok occurrence ∧
    (h event occurrence w).1 = .error thrown ∧ thrown.message = .error f

/-- Whatever keeps an occurrence from being built is reported as an unusable context, with the whole
event as it was sorted and the cause, which has a text, unless the hook fails without one. -/
theorem buildOccurrence_error {event : Event} {hook : Option (OccurrenceHook σ)} {w : σ}
    (h : (buildOccurrence table hook event w).1 = .error f) :
    (∃ message cause, f = .invalidContext message (normalizeEvent table event) (some cause) ∧
        cause.HasText) ∨
      SilentOccurrenceHook table hook event w f := by
  simp only [buildOccurrence] at h
  split at h
  · rename_i hr
    cases h
    exact .inl (toRecord_error hr)
  · rename_i occurrence hr
    split at h
    · cases h
    · rename_i hook
      split at h
      · cases h
      · rename_i thrown _ hthrown
        cases h
        rcases hookFailure_cases "occurrence hook failed: " (normalizeEvent table event) thrown
          with hreport | hsilent
        · exact .inl hreport
        · exact .inr ⟨hook, occurrence, thrown, rfl, hr, by rw [hthrown], hsilent⟩

theorem SilentOccurrenceHook.buildOccurrence {event : Event} {hook : Option (OccurrenceHook σ)}
    {w : σ} (h : SilentOccurrenceHook table hook event w f) :
    (buildOccurrence table hook event w).1 = .error f := by
  obtain ⟨hook, occurrence, thrown, rfl, hr, hthrown, hsilent⟩ := h
  obtain ⟨w', hresult⟩ : ∃ w', hook event occurrence w = (.error thrown, w') :=
    ⟨_, Prod.ext hthrown rfl⟩
  simp only [Rollout.buildOccurrence, hr, hresult, hookFailure, Failure.handled_of_silent hsilent]

theorem SilentOccurrenceHook.not_isReported {event : Event} {hook : Option (OccurrenceHook σ)} {w : σ}
    (h : SilentOccurrenceHook table hook event w f) : ¬ f.IsReported := by
  obtain ⟨_, _, thrown, -, -, -, hsilent⟩ := h
  exact Failure.not_isReported_of_silent hsilent

end Rollout
