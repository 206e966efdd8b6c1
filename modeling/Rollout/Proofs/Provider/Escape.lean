/-
What leaves an evaluation.

Every failure on the way to an outcome is one that the library reports, and becomes part of the
outcome, with two exceptions: a decimal that is a signaling `NaN`, asked for as a float, and a hook or
a client that fails without a text, so that the report of it fails as well.

* `coerce_error` — the failures of coercing a payload;
* `Provider.Wordless`, `fetch_error` — the failures of fetching a variant are reported, or come from a
  hook or a client without a text;
* `evaluate_error_iff_escapes` — an evaluation fails exactly on those exceptions, and holds the
  caller's default whenever it did not resolve.
-/
import Rollout.Proofs.FieldType
import Rollout.Proofs.Record.Building
import Rollout.Provider.Flags

namespace Rollout

/-- The one variant that has no outcome: a signaling `NaN` that is asked for as a float. -/
def Variant.Escapes (type : FlagType) (v : Variant) : Prop :=
  type = .float ∧ v.key ≠ Variant.offKey ∧
    ∃ negative diagnostic, v.payload = .decimal (.nan negative true diagnostic)

@[simp] theorem isReported_report (cls : ErrorClass) (message : String) :
    (Failure.report cls message).IsReported := ⟨_, _, rfl⟩

@[simp] theorem isReported_typeMismatch (message expected found : String)
    (cause : Option Failure) : (Failure.typeMismatch message expected found cause).IsReported :=
  ⟨_, _, rfl⟩

@[simp] theorem isReported_wrongKind (expected : String) (p : Payload) :
    (wrongKind expected p).IsReported := ⟨_, _, rfl⟩

@[simp] theorem isReported_invalidContext (message : String) (n : Normalization)
    (cause : Option Failure) : (Failure.invalidContext message n cause).IsReported := ⟨_, _, rfl⟩

@[simp] theorem isReported_flagNotFound (flag : String) :
    (Failure.flagNotFound flag).IsReported := ⟨_, _, rfl⟩

/-! ### Coercing a payload -/

theorem toFloat_error {n : Number} {f : Failure} (h : n.toFloat = .error f) :
    f.IsReported ∨
      f = .signalingNan ∧ ∃ negative diagnostic, n = .decimal (.nan negative true diagnostic) := by
  cases n with
  | int n =>
    simp only [Number.toFloat] at h
    split at h
    · cases h
    · left
      rw [← Except.error.inj h]
      simp
  | float x => cases h
  | decimal d =>
    cases d with
    | finite negative coefficient exponent => cases h
    | infinity negative => cases h
    | nan negative signaling diagnostic =>
      cases signaling with
      | false => cases h
      | true => exact .inr ⟨(Except.error.inj h).symm, negative, diagnostic, rfl⟩

theorem toInteger_error {n : Number} {f : Failure} (h : n.toInteger = .error f) :
    f.IsReported := by
  simp only [Number.toInteger] at h
  split at h
  · cases h
  · rw [← Except.error.inj h]
    simp

theorem floatOfText_error {s : String} {f : Failure} (h : floatOfText s = .error f) :
    f.IsReported := by
  unfold floatOfText at h
  split at h
  · cases h
  · rw [← Except.error.inj h]
    simp

theorem integerOfText_error {s : String} {f : Failure} (h : integerOfText s = .error f) :
    f.IsReported := by
  unfold integerOfText at h
  split at h
  · split at h
    · cases h
    · rw [← Except.error.inj h]
      simp
  · rw [← Except.error.inj h]
    simp

/-- Coercion fails with a report, or else on a signaling `NaN` as a float. -/
theorem coerce_error {type : FlagType} {p : Payload} {f : Failure}
    (h : type.coerce p = .error f) :
    f.IsReported ∨ f = .signalingNan ∧ type = .float ∧
      ∃ negative diagnostic, p = .number (.decimal (.nan negative true diagnostic)) := by
  cases type with
  | boolean => cases h
  | object => cases h
  | string => cases p <;> first | cases h; done | (cases h; simp)
  | integer =>
    left
    cases p with
    | number n => exact toInteger_error (map_eq_error_iff.mp h)
    | text s => exact integerOfText_error (map_eq_error_iff.mp h)
    | absent => cases h
    | _ => cases h; simp
  | float =>
    cases p with
    | number n =>
      rcases toFloat_error (map_eq_error_iff.mp h) with hf | ⟨hf, negative, diagnostic, rfl⟩
      · exact .inl hf
      · exact .inr ⟨hf, rfl, negative, diagnostic, rfl⟩
    | text s => exact .inl (floatOfText_error (map_eq_error_iff.mp h))
    | absent => cases h
    | _ => cases h; simp

theorem ofValue_error_isReported {v : Value} {f : Failure}
    (h : Payload.ofValue v = .error f) : f.IsReported := by
  cases v <;> cases h <;> simp

/-! ### The outcome for a variant -/

/-- The payload of a variant coerces, fails with a report, or escapes. -/
theorem Variant.coerce_error {type : FlagType} {v : Variant} {f : Failure}
    (hkey : v.key ≠ Variant.offKey) (h : v.coerce type = .error f) :
    f.IsReported ∨ f = .signalingNan ∧ v.Escapes type := by
  unfold Variant.coerce at h
  split at h
  · rename_i p hp
    rcases Rollout.coerce_error h with hf | ⟨hf, htype, negative, diagnostic, rfl⟩
    · exact .inl hf
    · have hv : v.payload = .decimal (.nan negative true diagnostic) :=
        (Payload.value_of_ofValue hp).symm
      exact .inr ⟨hf, htype, hkey, negative, diagnostic, hv⟩
  · rename_i failure hp
    cases h
    exact .inl (ofValue_error_isReported hp)

theorem Variant.Escapes.evaluate_eq {type : FlagType} {v : Variant} (h : v.Escapes type)
    (default : Value) : evaluateVariant type v default = .error .signalingNan := by
  obtain ⟨rfl, hkey, negative, diagnostic, hv⟩ := h
  have hoff : v.isOff = false := by simpa [Variant.isOff] using hkey
  have hcoerce : v.coerce .float = .error .signalingNan := by
    rw [Variant.coerce, hv]
    rfl
  rw [evaluateVariant, hoff, hcoerce]
  rfl

/-- Evaluating a variant fails exactly when the variant escapes. -/
theorem evaluateVariant_error_iff {type : FlagType} {v : Variant} {default : Value}
    {f : Failure} :
    evaluateVariant type v default = .error f ↔ f = .signalingNan ∧ v.Escapes type := by
  constructor
  · intro h
    unfold evaluateVariant at h
    split at h
    · cases h
    · rename_i hoff
      have hkey : v.key ≠ Variant.offKey := by simpa [Variant.isOff] using hoff
      split at h
      · cases h
      · cases h
      · cases h
      · rename_i failure hnot hcoerce
        cases h
        rcases Variant.coerce_error hkey hcoerce with ⟨report, cause, rfl⟩ | hf
        · exact absurd rfl (hnot report cause)
        · exact hf
  · rintro ⟨rfl, h⟩
    exact h.evaluate_eq default

/-- An outcome that is not resolved holds the default. -/
theorem evaluateVariant_value {type : FlagType} {v : Variant} {default : Value}
    {outcome : Outcome} (h : evaluateVariant type v default = .ok outcome)
    (hreason : outcome.reason ≠ .resolved) : outcome.value = default := by
  unfold evaluateVariant at h
  split at h
  · cases h
    rfl
  · split at h
    · cases h
      exact absurd rfl hreason
    · cases h
      rfl
    · cases h
      rfl
    · cases h

/-- Only a provider that is ready refuses nothing. -/
theorem Phase.eq_ready_of_refusal {phase : Phase} (h : phase.refusal = none) : phase = .ready := by
  cases phase with
  | ready => rfl
  | _ => cases h

namespace Provider

variable {σ : Type}

/-! ### Fetching the variant of a flag -/

/-- A hook or a client that is called for a flag and fails without a text. -/
inductive Wordless (p : Provider σ) (s : State) (flag : String) (context : Attributes) (w : σ)
    (f : Failure) : Prop
  | hook (phase : s.phase = .ready)
      (silent : SilentSubjectHook s.aliases p.subjectHook context w f)
  | client (phase : s.phase = .ready) (subject : Subject) (w₁ : σ)
      (build : buildSubject s.aliases p.subjectHook context w = (.ok subject, w₁))
      (thrown : Failure) (call : (p.client.evaluate subject [flag] w₁).1 = .error thrown)
      (text : thrown.message = .error f)

theorem Wordless.not_isReported {p : Provider σ} {s : State} {flag : String}
    {context : Attributes} {w : σ} {f : Failure} (h : p.Wordless s flag context w f) :
    ¬ f.IsReported := by
  cases h with
  | hook _ hsilent => exact hsilent.not_isReported
  | client _ _ _ _ _ _ htext => exact Failure.not_isReported_of_silent htext

theorem assignmentFailure_cases (flag : String) (thrown : Failure) :
    (assignmentFailure flag thrown).IsReported ∨
      thrown.message = .error (assignmentFailure flag thrown) := by
  rcases thrown.handled_cases fun message =>
      (Failure.reportCause .assignment ("assignment failed: " ++ message) thrown).withContext
        [(.text "flag", .text flag)] with ⟨message, -, hreport⟩ | hsilent
  · exact .inl ⟨_, _, hreport⟩
  · exact .inr hsilent

theorem assign_error {p : Provider σ} {flag : String} {subject : Subject} {w : σ}
    {f : Failure} (h : (p.assign flag subject w).1 = .error f) :
    f.IsReported ∨ ∃ thrown, (p.client.evaluate subject [flag] w).1 = .error thrown ∧
      thrown.message = .error f := by
  unfold assign at h
  split at h
  · rename_i thrown _ hcall
    cases h
    exact (assignmentFailure_cases flag thrown).imp_right fun htext => ⟨thrown, by rw [hcall], htext⟩
  · split at h
    · cases h
    · cases h
      exact .inl (isReported_flagNotFound flag)

/-- The failures of fetching a variant are reported, unless the hook or the client fails without a
text. -/
theorem fetch_error {p : Provider σ} {s : State} {flag : String} {context : Attributes} {w : σ}
    {f : Failure} (h : (p.fetch s flag context w).1 = .error f) :
    f.IsReported ∨ p.Wordless s flag context w f := by
  unfold fetch at h
  split at h
  · rename_i failure hphase
    cases h
    -- Both refusals of a provider that is not ready are reports.
    cases hs : s.phase <;> rw [hs] at hphase <;> cases hphase <;> simp
  · rename_i hphase
    have hready := Phase.eq_ready_of_refusal hphase
    split at h
    · rename_i hbuild
      cases h
      rcases buildSubject_error (congrArg Prod.fst hbuild) with ⟨message, cause, rfl⟩ | hsilent
      · exact .inl (isReported_invalidContext ..)
      · exact .inr (.hook hready hsilent)
    · rename_i subject w₁ hbuild
      rcases assign_error h with hreported | ⟨thrown, hcall, htext⟩
      · exact .inl hreported
      · exact .inr (.client hready subject w₁ hbuild thrown hcall htext)

theorem Wordless.fetch {p : Provider σ} {s : State} {flag : String} {context : Attributes} {w : σ}
    {f : Failure} (h : p.Wordless s flag context w f) :
    (p.fetch s flag context w).1 = .error f := by
  cases h with
  | hook hphase hsilent =>
    rcases hbuild : buildSubject s.aliases p.subjectHook context w with ⟨built, w₁⟩
    have hbuilt := hsilent.buildSubject
    rw [hbuild] at hbuilt
    obtain rfl : built = .error f := hbuilt
    simp only [Provider.fetch, hphase, Phase.refusal, hbuild]
  | client hphase subject w₁ hbuild thrown hcall htext =>
    rcases hanswer : p.client.evaluate subject [flag] w₁ with ⟨answer, w₂⟩
    rw [hanswer] at hcall
    obtain rfl : answer = .error thrown := hcall
    simp only [Provider.fetch, hphase, Phase.refusal, hbuild, assign, hanswer, assignmentFailure,
      Failure.handled_of_silent htext]

/-- What the stages before the payload have found: the provider is ready, the context gives a
subject, and the client has assigned a variant to it. -/
def Assigned (p : Provider σ) (s : State) (flag : String) (context : Attributes) (w : σ)
    (v : Variant) : Prop :=
  s.phase = .ready ∧ ∃ subject w₁ variants w₂,
    buildSubject s.aliases p.subjectHook context w = (.ok subject, w₁) ∧
    p.client.evaluate subject [flag] w₁ = (.ok variants, w₂) ∧ Assoc.find? flag variants = some v

theorem assign_ok_iff {p : Provider σ} {flag : String} {subject : Subject} {w : σ}
    {v : Variant} :
    (p.assign flag subject w).1 = .ok v ↔ ∃ variants w₁,
      p.client.evaluate subject [flag] w = (.ok variants, w₁) ∧
        Assoc.find? flag variants = some v := by
  unfold assign
  constructor
  · intro h
    split at h
    · cases h
    · rename_i variants w₁ hcall
      split at h
      · rename_i hfind
        cases h
        exact ⟨variants, w₁, hcall, hfind⟩
      · cases h
  · rintro ⟨variants, w₁, hcall, hfind⟩
    rw [hcall]
    simp [hfind]

theorem fetch_ok_iff {p : Provider σ} {s : State} {flag : String} {context : Attributes}
    {w : σ} {v : Variant} :
    (p.fetch s flag context w).1 = .ok v ↔ p.Assigned s flag context w v := by
  unfold fetch Assigned
  cases hs : s.phase with
  | notReady => simp [Phase.refusal]
  | failed => simp [Phase.refusal]
  | ready =>
    simp only [Phase.refusal, true_and]
    constructor
    · intro h
      split at h
      · cases h
      · rename_i subject w₁ hbuild
        obtain ⟨variants, w₂, hcall, hfind⟩ := assign_ok_iff.mp h
        exact ⟨subject, w₁, variants, w₂, hbuild, hcall, hfind⟩
    · rintro ⟨subject, w₁, variants, w₂, hbuild, hcall, hfind⟩
      rw [hbuild]
      exact assign_ok_iff.mpr ⟨variants, w₂, hcall, hfind⟩

/-! ### The outcome for a flag -/

@[simp] theorem fail_fst (p : Provider σ) (type : FlagType) (flag : String) (default : Value)
    (kind : ErrorKind) (message : String) (w : σ) :
    (p.fail type flag default kind message w).1 = .ok (.failed default kind message) := rfl

/-- An evaluation whose variant is known ends as the variant does. -/
theorem evaluate_fst_of_fetch {p : Provider σ} {s : State} {type : FlagType} {flag : String}
    {default : Value} {context : Attributes} {w : σ} {v : Variant}
    (h : (p.fetch s flag context w).1 = .ok v) :
    (p.evaluate s type flag default context w).1 = evaluateVariant type v default := by
  unfold evaluate
  split
  · rename_i hfetch
    rw [hfetch] at h
    cases h
  · rename_i hfetch
    rw [hfetch] at h
    cases h
  · rename_i variant w₁ hfetch
    rw [hfetch] at h
    cases h
    split
    -- A failed outcome is logged and built anew, from the same default.
    · rename_i value kind message hv
      have hdefault : value = default := evaluateVariant_value hv (by simp [Outcome.reason])
      rw [hv, hdefault, fail_fst]
    · rename_i hv
      exact hv.symm
    · rename_i hv
      exact hv.symm

/-- An evaluation whose variant is not found holds the default, if that is reported. -/
theorem evaluate_fst_of_reported {p : Provider σ} {s : State} (type : FlagType)
    {flag : String} (default : Value) {context : Attributes} {w : σ} {report : Report}
    {cause : Option Failure} (h : (p.fetch s flag context w).1 = .error (.reported report cause)) :
    (p.evaluate s type flag default context w).1
      = .ok (.failed default report.cls.kind report.message) := by
  unfold evaluate
  rw [show p.fetch s flag context w
    = (.error (.reported report cause), (p.fetch s flag context w).2) from Prod.ext h rfl]
  rfl

/-- A failure that is not reported is passed on. -/
theorem evaluate_fst_of_unreported {p : Provider σ} {s : State} (type : FlagType)
    {flag : String} (default : Value) {context : Attributes} {w : σ} {f : Failure}
    (h : (p.fetch s flag context w).1 = .error f) (hf : ¬ f.IsReported) :
    (p.evaluate s type flag default context w).1 = .error f := by
  unfold evaluate
  split
  · rename_i report cause _ hfetch
    rw [hfetch] at h
    cases h
    exact absurd ⟨report, cause, rfl⟩ hf
  · rename_i hfetch
    rw [hfetch] at h
    cases h
    rfl
  · rename_i hfetch
    rw [hfetch] at h
    cases h

/-- An evaluation whose variant is not found holds the default, if it has an outcome. -/
theorem evaluate_fst_of_fetch_error {p : Provider σ} {s : State} {type : FlagType} {flag : String}
    {default : Value} {context : Attributes} {w : σ} {f : Failure} {outcome : Outcome}
    (hfetch : (p.fetch s flag context w).1 = .error f)
    (h : (p.evaluate s type flag default context w).1 = .ok outcome) :
    ∃ report : Report, (∃ cause, f = .reported report cause) ∧
      outcome = .failed default report.cls.kind report.message := by
  rcases fetch_error hfetch with ⟨report, cause, rfl⟩ | hwordless
  · rw [evaluate_fst_of_reported type default hfetch] at h
    exact ⟨report, ⟨cause, rfl⟩, (Except.ok.inj h).symm⟩
  · rw [evaluate_fst_of_unreported type default hfetch hwordless.not_isReported] at h
    cases h

/-- **An evaluation fails exactly on a signaling `NaN` asked for as a float, or if the hook or the
client fails without a text.**  Whatever the phase, the context, the hook and the client do, every
other evaluation has an outcome, and one that is not resolved holds the caller's default. -/
theorem evaluate_error_iff_escapes (p : Provider σ) (s : State) (type : FlagType)
    (flag : String) (default : Value) (context : Attributes) (w : σ) :
    (∀ f, (p.evaluate s type flag default context w).1 = .error f ↔
      (f = .signalingNan ∧ ∃ v, p.Assigned s flag context w v ∧ v.Escapes type) ∨
        p.Wordless s flag context w f) ∧
    (∀ outcome, (p.evaluate s type flag default context w).1 = .ok outcome →
      outcome.reason ≠ .resolved → outcome.value = default) ∧
    (∀ v f, evaluateVariant type v default = .error f ↔ f = .signalingNan ∧ v.Escapes type) := by
  refine ⟨fun f => ?_, fun outcome h hreason => ?_, fun v f => evaluateVariant_error_iff⟩
  · constructor
    · intro h
      cases hfetch : (p.fetch s flag context w).1 with
      | error failure =>
        rcases fetch_error hfetch with ⟨report, cause, rfl⟩ | hwordless
        · rw [evaluate_fst_of_reported type default hfetch] at h
          cases h
        · rw [evaluate_fst_of_unreported type default hfetch hwordless.not_isReported] at h
          cases h
          exact .inr hwordless
      | ok v =>
        rw [evaluate_fst_of_fetch hfetch] at h
        obtain ⟨hf, hescapes⟩ := evaluateVariant_error_iff.mp h
        exact .inl ⟨hf, v, fetch_ok_iff.mp hfetch, hescapes⟩
    · rintro (⟨rfl, v, hassigned, hescapes⟩ | hwordless)
      · rw [evaluate_fst_of_fetch (fetch_ok_iff.mpr hassigned)]
        exact hescapes.evaluate_eq default
      · exact evaluate_fst_of_unreported type default hwordless.fetch hwordless.not_isReported
  · cases hfetch : (p.fetch s flag context w).1 with
    | error failure =>
      obtain ⟨report, -, rfl⟩ := evaluate_fst_of_fetch_error hfetch h
      rfl
    | ok v =>
      rw [evaluate_fst_of_fetch hfetch] at h
      exact evaluateVariant_value h hreason

/-- A ready provider whose client serves a signaling `NaN` fails on a float flag, and so does
evaluating the variant alone. -/
theorem evaluate_signaling_nan_fails :
    let v : Variant := ⟨"v", none, .decimal (.nan false true 0), []⟩
    let p : Provider StaticClient :=
      ⟨⟨"key", none, none, [], "", ""⟩, StaticClient.client [("ratio", v)] (.whole _),
        none, none, none, fun _ w => w⟩
    (p.evaluate ⟨.ready, [("user_id", .userId)]⟩ .float "ratio" (.float (.ofInt 9))
      [(.text "user_id", .text "u1")] .fresh).1 = .error .signalingNan ∧
    evaluateVariant .float v (.float (.ofInt 9)) = .error .signalingNan := ⟨rfl, rfl⟩

end Provider

end Rollout
