/-
Subjects are identified.

Whether a context identifies someone is decided twice: on the sorted values, before they are fitted
to fields, and on the fields of a subject after a hook has changed it.  Fitting does not come between
the two.  A text stays what it is, bytes become a text that is empty only if they are, and any other
value for a field that identifies does not fit.

* `convertText_isTruthy` — a value counts as given exactly when the text it becomes does;
* `Normalization.field_isTruthy` — so do the fields that identify;
* `buildSubject_identified` — a subject that is built is identified, and one that is not built is
  reported with all of the context as it was sorted, unless its hook fails without a text;
* `buildSubject_overlong_fails` — a hook whose failure has no text.
-/
import Rollout.Proofs.Record.Building
import Rollout.Proofs.Record.Projection

namespace Rollout

open Rollout.Text

/-! ### Texts from bytes -/

/-- Bytes stand for the empty text only if there are none. -/
theorem isEmpty_of_decodeUtf8 {octets : List UInt8} {cs : List Char}
    (h : decodeUtf8 octets = .ok cs) : cs.isEmpty = octets.isEmpty := by
  rw [decodeUtf8] at h
  match octets with
  | [] =>
    cases h
    rfl
  | a :: rest =>
    rw [List.length_cons, decodeUtf8Within.eq_3 _ _ _ (List.cons_ne_nil a rest)] at h
    split at h
    · cases h
    · obtain ⟨cs', -, rfl⟩ := map_eq_ok_iff.mp h
      rfl

theorem Value.isTruthy_text_ofList (cs : List Char) :
    (Value.text (.ofList cs)).isTruthy = !cs.isEmpty := by
  show (String.ofList cs != "") = !cs.isEmpty
  rw [bne, Bool.not_inj_iff, Bool.eq_iff_iff, beq_iff_eq, List.isEmpty_iff,
    ← String.ofList_nil, String.ofList_inj]

/-- A value counts as given exactly when the text that it becomes does. -/
theorem convertText_isTruthy {v w : Value} (h : convertText v = some w) :
    w.isTruthy = v.isTruthy := by
  unfold convertText at h
  split at h
  · cases h
    rfl
  · rename_i octets
    obtain ⟨cs, hcs, rfl⟩ := Option.map_eq_some_iff.mp h
    have hdecode : decodeUtf8 octets = .ok cs := by
      cases hresult : decodeUtf8 octets with
      | ok cs' =>
        rw [hresult] at hcs
        cases hcs
        rfl
      | error position =>
        rw [hresult] at hcs
        cases hcs
    rw [Value.isTruthy_text_ofList, isEmpty_of_decodeUtf8 hdecode]
    rfl
  · cases h

/-! ### Fields that identify -/

/-- Keys that identify have fields for texts that may be unset. -/
theorem fieldType_of_mem_identity : ∀ key ∈ CanonicalKey.identity,
    key ∈ Shape.subject.keys ∧ key ≠ Shape.subject.overflowKey ∧
      Shape.subject.fieldType key = .text ∧ Shape.subject.default? key = some .null := by
  intro key hkey
  rcases List.mem_pair.mp hkey with rfl | rfl
  · exact ⟨by decide, by decide, rfl, rfl⟩
  · exact ⟨by decide, by decide, rfl, rfl⟩

theorem fit_isTruthy {key : CanonicalKey} (hkey : key ∈ CanonicalKey.identity) {v w : Value}
    (h : Record.fit .subject key v = .ok w) : w.isTruthy = v.isTruthy := by
  obtain ⟨-, -, htype, -⟩ := fieldType_of_mem_identity key hkey
  rw [Record.fit, htype] at h
  split at h
  · rename_i hnull
    cases h
    rw [Bool.and_eq_true] at hnull
    cases v with
    | null => rfl
    | _ => exact absurd hnull.1 Bool.false_ne_true
  · exact convertText_isTruthy (fitHere_eq_ok_iff.mp h)

namespace Normalization

variable {n : Normalization}

/-- A field that identifies counts as given exactly when the sorted value for it does. -/
theorem field_isTruthy {subject : Subject} (h : n.toRecord .subject = .ok subject)
    {key : CanonicalKey} (hkey : key ∈ CanonicalKey.identity) :
    (subject.field key).isTruthy = ((Assoc.find? key n.canonical).getD .null).isTruthy := by
  obtain ⟨hmem, hother, -, hdefault⟩ := fieldType_of_mem_identity key hkey
  obtain ⟨hgiven, hunset⟩ := toRecord_field h hmem hother
  cases hvalue : Assoc.find? key n.canonical with
  | some v => exact fit_isTruthy hkey (hgiven v hvalue)
  | none =>
    have hnull := hunset hvalue
    rw [hdefault, Option.some.injEq] at hnull
    rw [← hnull]
    rfl

/-- The two checks for an identity agree on all that can be fitted. -/
theorem hasIdentity_of_toRecord {subject : Subject} (h : n.toRecord .subject = .ok subject) :
    subject.hasIdentity = n.hasIdentity := by
  rw [Bool.eq_iff_iff, Record.hasIdentity, hasIdentity, List.any_eq_true, List.any_eq_true]
  refine exists_congr fun key => and_congr_right fun hkey => ?_
  rw [field_isTruthy h hkey]

end Normalization

/-! ### Subjects -/

variable {σ : Type}

theorem applySubjectHook_ok {hook : SubjectHook σ} {context : Attributes} {n : Normalization}
    {subject changed : Subject} {w : σ}
    (h : (applySubjectHook hook context n subject w).1 = .ok changed) :
    changed.hasIdentity = true := by
  unfold applySubjectHook at h
  split at h
  · cases h
  · split at h
    · rename_i hidentity
      cases h
      exact hidentity
    · cases h

/-- A subject that is built is identified, whatever its hook does. -/
theorem hasIdentity_of_buildSubject {table : AliasTable} {hook : Option (SubjectHook σ)}
    {context : Attributes} {subject : Subject} {w : σ}
    (h : (buildSubject table hook context w).1 = .ok subject) : subject.hasIdentity = true := by
  unfold buildSubject at h
  split at h
  · cases h
  · rename_i n hn
    split at h
    · cases h
    · rename_i fitted hfitted
      split at h
      · cases h
        rw [Normalization.hasIdentity_of_toRecord hfitted]
        exact (normalizeSubject_ok hn).2
      · exact applySubjectHook_ok h

/-- **Subjects are identified.**  From any context, with any hook whose failures have a text, comes a
subject that is identified or a report with all of the context as it was sorted, and nothing else.
When the failure of the hook has no text, the failure of asking for it is what comes.  On whatever
can be fitted, the check before fitting and the one after it agree. -/
theorem buildSubject_identified (table : AliasTable) (hook : Option (SubjectHook σ))
    (context : Attributes) (w : σ) :
    ((∀ f, ¬ SilentSubjectHook table hook context w f) →
      (∃ subject w', buildSubject table hook context w = (.ok subject, w') ∧
        subject.hasIdentity = true) ∨
      ∃ message cause w', buildSubject table hook context w =
        (.error (.invalidContext message (normalize table .subject context) cause), w')) ∧
    (∀ f, SilentSubjectHook table hook context w f →
      (buildSubject table hook context w).1 = .error f) ∧
    ∀ (n : Normalization) (subject : Subject), n.toRecord .subject = .ok subject →
      (n.hasIdentity = true ↔ subject.hasIdentity = true) := by
  refine ⟨fun hloud => ?_, fun f hsilent => hsilent.buildSubject, fun n subject h => ?_⟩
  · rcases hresult : buildSubject table hook context w with ⟨f | subject, w'⟩
    · rcases buildSubject_error (congrArg Prod.fst hresult) with ⟨message, cause, rfl⟩ | hsilent
      · exact .inr ⟨message, cause, w', rfl⟩
      · exact absurd hsilent (hloud f)
    · exact .inl ⟨subject, w', rfl, hasIdentity_of_buildSubject (congrArg Prod.fst hresult)⟩
  · rw [Normalization.hasIdentity_of_toRecord h]

/-- A hook that takes away the identity, on a context that is identified by bytes. -/
theorem buildSubject_identified_blanked :
    let table : AliasTable := [("user_id", .userId)]
    let context : Attributes := [(.text "user_id", .bytes [0x75])]
    let blank : SubjectHook Unit := fun _ subject w => (subject.assign "user_id" (.text ""), w)
    let n := normalize table .subject context
    (∃ message cause w', buildSubject table (some blank) context () =
      (.error (.invalidContext message n cause), w')) ∧
    n.hasIdentity = true ∧
    ∃ subject, n.toRecord .subject = .ok subject ∧ subject.hasIdentity = true := by
  intro table context blank n
  obtain ⟨hresult, -, hagree⟩ := buildSubject_identified table (some blank) context ()
  have hidentity : n.hasIdentity = true := by decide
  obtain ⟨subject, hsubject⟩ : ∃ subject, n.toRecord .subject = .ok subject := ⟨_, rfl⟩
  refine ⟨?_, hidentity, subject, hsubject, (hagree n subject hsubject).mp hidentity⟩
  have hloud : ∀ f, ¬ SilentSubjectHook table (some blank) context () f := by
    rintro f ⟨h, n', subject', thrown, hhook, hn, hr, hthrown, -⟩
    cases hhook
    obtain ⟨rfl, -⟩ := normalizeSubject_ok hn
    cases hr
    cases hthrown
  rcases hresult hloud with ⟨subject', w', h, -⟩ | herror
  · cases h
  · exact herror

/-- A hook that fails with a failure without a text, on a context that is identified and fits. -/
theorem buildSubject_overlong_fails :
    let table : AliasTable := [("user_id", .userId)]
    let context : Attributes := [(.text "user_id", .text "u1")]
    let hook : SubjectHook Unit := fun _ _ w => (.error (.thrown .value [.int (10 ^ 5000)]), w)
    buildSubject table (some hook) context () = (.error .integerTooLong, ()) ∧
      ¬ ∃ message cause, Failure.integerTooLong =
        .invalidContext message (normalize table .subject context) cause := by
  intro table context hook
  obtain ⟨subject, hsubject⟩ :
      ∃ subject, (normalize table .subject context).toRecord .subject = .ok subject := ⟨_, rfl⟩
  have hsilent : SilentSubjectHook table (some hook) context () .integerTooLong :=
    ⟨hook, _, subject, .overlong, rfl, rfl, hsubject, rfl, Failure.message_overlong⟩
  refine ⟨Prod.ext hsilent.buildSubject rfl, ?_⟩
  rintro ⟨message, cause, h⟩
  cases h

end Rollout
