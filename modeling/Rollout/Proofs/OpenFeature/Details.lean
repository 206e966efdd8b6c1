/-
What the OpenFeature standard is told about an outcome.

The details of an outcome hold its value.  They name an error code when the outcome failed, and a
variant when it resolved.  The standard has no code for what is no failure, so outcomes have details
only because no evaluation fails with such a kind.  The metadata of a variant is merged below its key
and its value, which no entry of the service can replace.

* `OpenFeature.servedMetadata` — the metadata that the standard is given for a variant;
* `Variant.details_eq` — the merge, with one filter for the entries that give way;
* `OpenFeature.Image` — the details of an outcome, field by field;
* `OpenFeature.details_image` — every outcome of an evaluation has details, and these are they.
-/
import Rollout.OpenFeature
import Rollout.Proofs.Assoc
import Rollout.Proofs.Provider.Stages
import Rollout.Proofs.Value.SameKey

namespace Rollout

/-! ### The metadata of a variant -/

namespace Variant

/-- The entries that a variant has of its own: its key, and its value if there is one. -/
def ownEntries (v : Variant) : Attributes :=
  (.text "key", .text v.key) :: v.value.toList.map fun s => (.text "value", .text s)

/-- Metadata gives way to the entries that a variant has of its own, and null is left out. -/
theorem details_eq (v : Variant) (h : Assoc.Distinct v.metadata) :
    v.details = v.ownEntries ++ v.metadata.filter fun e =>
      !Assoc.contains e.1 v.ownEntries && !e.2.isNull := by
  have hown : v.details = v.metadata.foldl (fun found e =>
      if e.2.isNull then found else Assoc.insertNew e.1 e.2 found) v.ownEntries := by
    rw [details, ownEntries]
    cases v.value <;> rfl
  have hfold : v.details = (v.metadata.filter fun e => !e.2.isNull).foldl
      (fun found e => Assoc.insertNew e.1 e.2 found) v.ownEntries := by
    rw [hown, List.foldl_filter]
    congr 1
    funext found e
    cases e.2.isNull <;> rfl
  rw [hfold, (h.sublist List.filter_sublist).foldl_insertNew, List.filter_filter]

end Variant

namespace OpenFeature

/-- The metadata that the standard is given for a variant: its key, its value if there is one, and
every other entry of the service whose value the standard can hold. -/
def servedMetadata (v : Variant) : Attributes :=
  v.ownEntries ++ v.metadata.filter fun e => isPlain e.2 && !(e.1 == .text "key")
    && !(v.value.isSome && e.1 == .text "value")

theorem contains_ownEntries (v : Variant) (name : Value) :
    Assoc.contains name v.ownEntries
      = (name == .text "key" || (v.value.isSome && name == .text "value")) := by
  rw [Variant.ownEntries, Assoc.contains, Assoc.find?, BEq.comm (a := name) (b := .text "key"),
    BEq.comm (a := name) (b := .text "value")]
  cases v.value with
  | none => cases Value.text "key" == name <;> rfl
  | some s =>
    simp only [Option.toList_some, List.map_cons, List.map_nil, Assoc.find?, Option.isSome_some]
    cases Value.text "key" == name <;> cases Value.text "value" == name <;> rfl

/-- What the standard keeps of the details of a variant. -/
theorem filter_details (v : Variant) (h : Assoc.Distinct v.metadata) :
    (v.details.filter fun e => isPlain e.2) = servedMetadata v := by
  have hown : v.ownEntries.filter (fun e => isPlain e.2) = v.ownEntries := by
    rw [List.filter_eq_self, Variant.ownEntries]
    cases v.value <;> simp [isPlain]
  -- Null is not plain, so it need not be left out by itself.
  have hkept : ∀ e ∈ v.metadata,
      (isPlain e.2 && (!Assoc.contains e.1 v.ownEntries && !e.2.isNull))
        = (isPlain e.2 && !(e.1 == .text "key") && !(v.value.isSome && e.1 == .text "value")) := by
    intro e _
    rw [contains_ownEntries]
    cases e.2 <;> simp [isPlain, Value.isNull]
  rw [v.details_eq h, List.filter_append, hown, List.filter_filter, List.filter_congr hkept]
  rfl

/-! ### Codes -/

theorem exists_code {kind : ErrorKind} (h : kind ≠ .none) :
    ∃ code, ErrorCode.ofKind? kind = some code ∧ code.name = kind.name := by
  cases kind with
  | none => exact absurd rfl h
  | _ => exact ⟨_, rfl, rfl⟩

/-! ### Details -/

/-- The details of an outcome, field by field. -/
structure Image (outcome : Outcome) (d : Details) : Prop where
  value : d.value = outcome.value
  reason : d.reason = reasonName outcome.reason
  /-- The code has the name of the kind of failure. -/
  code : d.errorCode.map ErrorCode.name
    = if outcome.reason = .error then some outcome.kind.name else none
  message : d.errorMessage = outcome.message?
  message_iff : d.errorMessage.isSome ↔ outcome.reason = .error
  variant : d.variant = outcome.variant?
  variant_iff : d.variant.isSome ↔ outcome.reason = .resolved
  unresolved : outcome.reason ≠ .resolved → d.metadata = []

theorem exists_image {outcome : Outcome} (h : outcome.reason = .error → outcome.kind ≠ .none) :
    ∃ d, Details.ofOutcome outcome = .ok d ∧ Image outcome d ∧
      (outcome.reason = .resolved → d.metadata = outcome.metadata.filter fun e => isPlain e.2) := by
  cases outcome with
  | failed value kind message =>
    have hkind : kind ≠ .none := h rfl
    obtain ⟨code, hcode, hname⟩ := exists_code hkind
    refine ⟨⟨value, none, reasonName .error, some code, some message, []⟩, ?_, ?_, ?_⟩
    · rw [Details.ofOutcome, hcode]
    · exact ⟨rfl, rfl, congrArg some hname, rfl, by simp [Outcome.reason], rfl,
        by simp [Outcome.reason], fun _ => rfl⟩
    · intro hreason
      cases hreason
  | resolved value variant metadata =>
    exact ⟨_, rfl, ⟨rfl, rfl, rfl, rfl, by simp [Outcome.reason], rfl,
      by simp [Outcome.variant?, Outcome.reason], fun hreason => absurd rfl hreason⟩, fun _ => rfl⟩
  | defaulted value =>
    exact ⟨_, rfl, ⟨rfl, rfl, rfl, rfl, by simp [Outcome.reason], rfl,
      by simp [Outcome.variant?, Outcome.reason], fun _ => rfl⟩, fun _ => rfl⟩

end OpenFeature

/-! ### The outcomes of evaluations -/

theorem evaluateVariant_resolved {type : FlagType} {v : Variant} {default : Value}
    {outcome : Outcome} (h : evaluateVariant type v default = .ok outcome)
    (hreason : outcome.reason = .resolved) : ∃ value, outcome = .resolved value v.key v.details := by
  unfold evaluateVariant at h
  split at h
  · cases h
    cases hreason
  · split at h
    · cases h
      exact ⟨_, rfl⟩
    · cases h
      cases hreason
    · cases h
      cases hreason
    · cases h

namespace Provider

variable {σ : Type} {p : Provider σ} {s : State} {type : FlagType} {flag : String}
  {default : Value} {context : Attributes} {w : σ} {outcome : Outcome}

/-- An evaluation that fails does so with a kind of failure. -/
theorem evaluate_kind_ne_none (h : (p.evaluate s type flag default context w).1 = .ok outcome)
    (hreason : outcome.reason = .error) : outcome.kind ≠ .none := by
  cases hfetch : (p.fetch s flag context w).1 with
  | error failure =>
    obtain ⟨report, -, hout⟩ := evaluate_fst_of_fetch_error hfetch h
    cases hout
    exact report.cls.kind_ne_none
  | ok v =>
    rw [evaluate_fst_of_fetch hfetch] at h
    cases outcome with
    | failed value kind message => exact evaluateVariant_kind h
    | _ => cases hreason

/-- An evaluation that resolves has the key and the details of the variant that was assigned. -/
theorem evaluate_resolved (h : (p.evaluate s type flag default context w).1 = .ok outcome)
    (hreason : outcome.reason = .resolved) :
    ∃ v value, p.Assigned s flag context w v ∧ outcome = .resolved value v.key v.details := by
  cases hfetch : (p.fetch s flag context w).1 with
  | error failure =>
    obtain ⟨report, -, hout⟩ := evaluate_fst_of_fetch_error hfetch h
    cases hout
    cases hreason
  | ok v =>
    rw [evaluate_fst_of_fetch hfetch] at h
    obtain ⟨value, rfl⟩ := evaluateVariant_resolved h hreason
    exact ⟨v, value, fetch_ok_iff.mp hfetch, rfl⟩

end Provider

/-- **The details of the standard are an image of the outcome.**  Every outcome of an evaluation has
details with its value, a code and a message exactly when it failed, and a variant exactly when it
resolved.  An outcome that resolved is that of the variant assigned to the subject, and the metadata
is the key of that variant, its value, and the plain entries of the service under other names. -/
theorem OpenFeature.details_image {σ : Type} (p : Provider σ) (s : Provider.State)
    (type : FlagType) (flag : String) (default : Value) (context : Attributes) (w : σ)
    {outcome : Outcome} (h : (p.evaluate s type flag default context w).1 = .ok outcome) :
    ∃ d, Details.ofOutcome outcome = .ok d ∧ Image outcome d ∧
      (outcome.reason = .resolved → ∃ v, p.Assigned s flag context w v ∧
        d.variant = some v.key ∧
        (Assoc.Distinct v.metadata → d.metadata = servedMetadata v)) := by
  obtain ⟨d, hd, himage, hmetadata⟩ := exists_image (Provider.evaluate_kind_ne_none h)
  refine ⟨d, hd, himage, fun hreason => ?_⟩
  obtain ⟨v, value, hassigned, rfl⟩ := Provider.evaluate_resolved h hreason
  refine ⟨v, hassigned, himage.variant, fun hdistinct => ?_⟩
  rw [hmetadata hreason]
  exact filter_details v hdistinct

/-- A variant without a value of its own, and metadata under its names: the key of the variant wins,
the entry named value shows through, and the list is left out. -/
theorem OpenFeature.details_image_clash :
    let v : Variant := ⟨"v", none, .int 3,
      [(.text "key", .int 1), (.text "value", .text "x"), (.text "tags", .list []),
        (.text "seats", .int 4)]⟩
    let p : Provider StaticClient := ⟨⟨"key", none, none, [], "", ""⟩,
      StaticClient.client [("ratio", v)] (.whole _), none, none, none, fun _ w => w⟩
    let s : Provider.State := ⟨.ready, [("user_id", .userId)]⟩
    let outcome : Outcome := .resolved (.int 3) "v" v.details
    (p.evaluate s .integer "ratio" .null [(.text "user_id", .text "u")] .fresh).1
        = .ok outcome ∧
      ∃ d, Details.ofOutcome outcome = .ok d ∧ Image outcome d ∧ d.variant = some "v" ∧
        d.metadata = [(.text "key", .text "v"), (.text "value", .text "x"),
          (.text "seats", .int 4)] := by
  intro v p s outcome
  have houtcome : (p.evaluate s .integer "ratio" .null [(.text "user_id", .text "u")] .fresh).1
      = .ok outcome := rfl
  obtain ⟨d, hd, himage, hresolved⟩ := details_image p s .integer "ratio" .null
    [(.text "user_id", .text "u")] .fresh houtcome
  obtain ⟨v', hassigned, hvariant, hmetadata⟩ := hresolved rfl
  have hv : v' = v := by
    have hfetch : (p.fetch s "ratio" [(.text "user_id", .text "u")] .fresh).1 = .ok v := rfl
    exact Except.ok.inj ((Provider.fetch_ok_iff.mpr hassigned).symm.trans hfetch)
  subst hv
  refine ⟨houtcome, d, hd, himage, hvariant, ?_⟩
  rw [hmetadata (by decide)]
  rfl

end Rollout
