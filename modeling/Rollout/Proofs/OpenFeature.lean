/-
Who a context of the OpenFeature standard identifies.

The targeting key of a context is written under a name of its own, and of all attributes that name
the user the last one counts.  A new name comes after all attributes, so the targeting key is the
last.  But a caller can have an attribute of that very name: the targeting key then takes its place,
and the attributes that name the user after it are rivals, which outrank it.

* `OpenFeature.namesUser` — the spellings of the user and of the targeting key;
* `OpenFeature.rivals` — the attributes that outrank the targeting key;
* `OpenFeature.find?_userId` — of the attributes that name the user the last counts;
* `OpenFeature.targetingKey_identifies_iff` — who is identified, and sent to the client.
-/
import Mathlib.Data.List.TakeWhile
import Rollout.OpenFeature
import Rollout.Proofs.AliasTable
import Rollout.Proofs.Normalization
import Rollout.Proofs.Provider.Session
import Rollout.Proofs.Record.Identity
import Rollout.Proofs.Record.Rearranged
import Rollout.Proofs.Value.SameKey

namespace Rollout.OpenFeature

variable {attributes : Attributes}

/-! ### Attributes that name the user -/

/-- Whether a name stands for the user. -/
def namesUser : Value → Bool
  | .text s => (spellings CanonicalKey.userId.wireName ++ spellings targetingKey).contains s
  | _ => false

/-- The attributes that name the user after the one under the name of the targeting key. -/
def rivals (attributes : Attributes) : Attributes :=
  (attributes.dropWhile fun e => !(e.1 == .text targetingKeyAttribute)).tail.filter
    fun e => namesUser e.1

theorem namesUser_targetingKeyAttribute : namesUser (.text targetingKeyAttribute) = true := by
  decide +kernel

/-- Names of the user are for its field, whatever the value. -/
theorem fieldFor?_userId (name value : Value) :
    fieldFor? .standard .subject name value = some .userId ↔ namesUser name = true := by
  have hplaced : misplaced .userId value = false := rfl
  rw [fieldFor?_eq, Option.filter_eq_some_iff, hplaced]
  cases name with
  | text s =>
    rw [AliasTable.resolve?, Option.filter_eq_some_iff, AliasTable.lookup_standard_userId,
      namesUser, List.contains_iff_mem, List.mem_append]
    simp [Shape.accepts, CanonicalKey.scope]
  | _ => simp [AliasTable.resolve?, namesUser]

theorem filter_fieldEntries : (fieldEntries .standard .subject attributes).filter
      (fun e => e.1 == .userId)
    = (attributes.filter fun e => namesUser e.1).map fun e => (.userId, e.2) := by
  induction attributes with
  | nil => rfl
  | cons e rest ih =>
    rw [fieldEntries, List.filterMap_cons, ← fieldEntries, List.filter_cons]
    by_cases huser : namesUser e.1 = true
    · have hfield := (fieldFor?_userId e.1 e.2).mpr huser
      simp [hfield, huser, ih, Option.filter_some, Shape.overflowKey]
    · have hfield : fieldFor? .standard .subject e.1 e.2 ≠ some .userId :=
        fun h => huser ((fieldFor?_userId e.1 e.2).mp h)
      rw [if_neg huser, ← ih]
      split
      · rfl
      · rename_i x hx
        obtain ⟨key, hkey, rfl⟩ := Option.map_eq_some_iff.mp hx
        have hother : key ≠ .userId := by
          rintro rfl
          exact hfield (Option.filter_eq_some_iff.mp hkey).1
        simp [hother]

/-- Of the attributes that name the user, the last counts. -/
theorem find?_userId : Assoc.find? .userId (normalize .standard .subject attributes).canonical
    = (attributes.filter fun e => namesUser e.1).getLast?.map Prod.snd := by
  rw [normalize_eq, Assoc.find?_ofEntries, filter_fieldEntries, List.getLast?_map, Option.map_map]
  rfl

/-- Attributes that all name the user leave nothing else. -/
theorem normalize_of_namesUser (h : ∀ e ∈ attributes, namesUser e.1 = true) :
    normalize .standard .subject attributes
      = ⟨.subject, Assoc.ofEntries (attributes.map fun e => (.userId, e.2)), []⟩ := by
  have hfield : ∀ e ∈ attributes, fieldFor? .standard .subject e.1 e.2 = some .userId :=
    fun e he => (fieldFor?_userId e.1 e.2).mpr (h e he)
  have hentries : fieldEntries .standard .subject attributes
      = attributes.map fun e => (.userId, e.2) := by
    rw [fieldEntries, ← List.filterMap_eq_map]
    refine List.filterMap_congr fun e he => ?_
    rw [hfield e he]
    rfl
  have hloose : looseEntries .standard .subject attributes = [] := by
    refine List.filter_eq_nil_iff.mpr fun e he => ?_
    rw [hfield e he]
    exact Bool.false_ne_true
  have hbag : bagEntries .standard .subject attributes = [] := by
    refine List.filter_eq_nil_iff.mpr fun e he => ?_
    rw [hfield e he]
    decide
  rw [normalize_eq, hentries, hloose, bagOf, hbag]
  rfl

/-! ### The targeting key among the attributes -/

/-- The targeting key counts, unless it has rivals. -/
theorem find?_userId_flatten {c : Context} {t : String} (hkey : c.targetingKey = some t)
    (ht : t ≠ "") : Assoc.find? .userId (normalize .standard .subject c.flatten).canonical
      = some (((rivals c.attributes).getLast?.map Prod.snd).getD (.text t)) := by
  have hflatten : c.flatten
      = Assoc.insert (.text targetingKeyAttribute) (.text t) c.attributes := by
    rw [Context.flatten, hkey]
    exact if_neg ht
  have hfilter : ∀ later : Attributes,
      ((Value.text targetingKeyAttribute, Value.text t) :: later).filter (fun e => namesUser e.1)
        = (.text targetingKeyAttribute, .text t) :: later.filter fun e => namesUser e.1 :=
    fun later => List.filter_cons_of_pos namesUser_targetingKeyAttribute
  rw [find?_userId, hflatten, Assoc.insert_eq_append fun k => Value.eq_text_of_beq,
    List.filter_append, hfilter, List.getLast?_append, List.getLast?_cons, ← rivals]
  cases (rivals c.attributes).getLast? <;> rfl

/-- Without an attribute under the name of the targeting key there are no rivals. -/
theorem rivals_of_not_contains
    (h : Assoc.contains (.text targetingKeyAttribute) attributes = false) :
    rivals attributes = [] := by
  have hall : attributes.dropWhile (fun e => !(e.1 == .text targetingKeyAttribute)) = [] := by
    rw [List.dropWhile_eq_nil_iff]
    intro e he
    rw [Assoc.not_contains_iff.mp h e he]
    rfl
  rw [rivals, hall]
  rfl

/-! ### The subject that is sent -/

section Sent

variable {σ : Type} {p : Provider σ} {aliases : AliasTable} {type : FlagType} {flag : String}
  {default : Value} {context : Option Context} {w w₁ : σ} {subject : Subject} {flags : List String}
  {result : Except Failure Variants}

theorem resolve_calls {s : Provider.State} :
    (resolve p.watched s type flag default context (.begin w)).2.calls
      = (p.watched.fetch s flag (flatten context) (.begin w)).2.calls :=
  p.watched_evaluate_calls s type flag default (flatten context) (.begin w)

theorem resolve_calls_of_buildSubject (type : FlagType) (flag : String) (default : Value)
    (h : buildSubject aliases p.subjectHook (flatten context) w = (.ok subject, w₁)) :
    (resolve p.watched ⟨.ready, aliases⟩ type flag default context (.begin w)).2.calls
      = [.evaluate subject [flag] (p.client.evaluate subject [flag] w₁).1] := by
  rw [resolve_calls, p.watched_fetch_of_ready ⟨.ready, aliases⟩ flag (flatten context) rfl h]

/-- The subject that is sent to the client is built from the flattened context. -/
theorem buildSubject_of_resolve {phase : Phase} (h : .evaluate subject flags result ∈
      (resolve p.watched ⟨phase, aliases⟩ type flag default context (.begin w)).2.calls) :
    ∃ w₁, buildSubject aliases p.subjectHook (flatten context) w = (.ok subject, w₁) := by
  cases hrefusal : phase.refusal with
  | some failure =>
    rw [resolve_calls,
      p.watched_fetch_of_refusal ⟨phase, aliases⟩ flag (flatten context) hrefusal] at h
    cases h
  | none =>
    obtain rfl := Phase.eq_ready_of_refusal hrefusal
    rcases hbuild : buildSubject aliases p.subjectHook (flatten context) w with ⟨f | built, w₁⟩
    · rw [resolve_calls,
        p.watched_fetch_of_context ⟨.ready, aliases⟩ flag (flatten context) rfl hbuild] at h
      cases h
    · rw [resolve_calls_of_buildSubject type flag default hbuild] at h
      cases List.mem_singleton.mp h
      exact ⟨w₁, rfl⟩

theorem field_userId_of_toRecord {n : Normalization} {u : String}
    (huser : Assoc.find? .userId n.canonical = some (.text u))
    (h : n.toRecord .subject = .ok subject) : subject.field .userId = .text u := by
  have hfit := (Normalization.toRecord_field h (by decide) (by decide)).1 (.text u) huser
  exact (Except.ok.inj hfit).symm

/-- Without a hook, the subject that is sent is the user that the context names. -/
theorem field_userId_of_resolve {phase : Phase} {u : String} (hhook : p.subjectHook = none)
    (huser : Assoc.find? .userId (normalize aliases .subject (flatten context)).canonical
      = some (.text u))
    (h : .evaluate subject flags result ∈
      (resolve p.watched ⟨phase, aliases⟩ type flag default context (.begin w)).2.calls) :
    subject.field .userId = .text u := by
  obtain ⟨w₁, hbuild⟩ := buildSubject_of_resolve h
  rw [hhook] at hbuild
  rcases buildSubject_none_cases aliases (flatten context) w with ⟨built, hok⟩ | ⟨_, _, herror⟩
  · obtain ⟨hsame, -⟩ := Prod.ext_iff.mp (hok.symm.trans hbuild)
    rw [show built = subject from Except.ok.inj hsame] at hok
    exact field_userId_of_toRecord huser (buildSubject_none_eq_ok_iff.mp hok).2
  · rw [herror] at hbuild
    cases hbuild

end Sent

/-- **A targeting key identifies the subject, unless it has rivals.**  Sorting a context leaves the
last rival of its targeting key as the user, and the targeting key if there is none or if it says the
same.  A provider without a hook sends exactly that user to its client. -/
theorem targetingKey_identifies_iff (c : Context) {t : String} (hkey : c.targetingKey = some t)
    (ht : t ≠ "") :
    let user := Assoc.find? .userId (normalize .standard .subject c.flatten).canonical
    user = some (((rivals c.attributes).getLast?.map Prod.snd).getD (.text t)) ∧
    (user = some (.text t) ↔ ∀ e, (rivals c.attributes).getLast? = some e → e.2 = .text t) ∧
    ∀ {σ : Type} (p : Provider σ) (phase : Phase) (type : FlagType) (flag : String)
      (default : Value) (w : σ) (u : String) (subject : Subject) (flags : List String)
      (result : Except Failure Variants), p.subjectHook = none → user = some (.text u) →
      .evaluate subject flags result ∈
        (resolve p.watched ⟨phase, .standard⟩ type flag default (some c) (.begin w)).2.calls →
      subject.field .userId = .text u := by
  intro user
  have huser : user = some (((rivals c.attributes).getLast?.map Prod.snd).getD (.text t)) :=
    find?_userId_flatten hkey ht
  refine ⟨huser, ?_, ?_⟩
  · rw [huser]
    cases (rivals c.attributes).getLast? with
    | none => simp
    | some e => simp
  · intro σ p phase type flag default w u subject flags result hhook hu hcall
    exact field_userId_of_resolve hhook hu hcall

/-- A context with an attribute for the user, and a provider that is ready. -/
theorem targetingKey_identifies_before :
    let c : Context := ⟨some "t", [(.text "user_id", .text "y")]⟩
    let p : Provider StaticClient := ⟨⟨"key", none, none, [], "", ""⟩,
      StaticClient.client [] (.whole _), none, none, none, fun _ w => w⟩
    Assoc.find? .userId (normalize .standard .subject c.flatten).canonical = some (.text "t") ∧
    ∃ subject result, (resolve p.watched ⟨.ready, .standard⟩ .boolean "theme" .null (some c)
      (.begin .fresh)).2.calls = [.evaluate subject ["theme"] result] ∧
      subject.field .userId = .text "t" := by
  intro c p
  obtain ⟨-, hiff, hsent⟩ := targetingKey_identifies_iff c (t := "t") rfl (by decide)
  have hnone : rivals c.attributes = [] := rivals_of_not_contains (by decide)
  have huser := hiff.mpr fun e he => by
    rw [hnone] at he
    cases he
  have hnames : ∀ e ∈ flatten (some c), namesUser e.1 = true := by
    have hflatten : flatten (some c)
        = [(.text "user_id", .text "y"), (.text "targetingKey", .text "t")] := rfl
    rw [hflatten]
    decide +kernel
  obtain ⟨subject, hrecord⟩ : ∃ subject,
      Normalization.toRecord .subject ⟨.subject, [(.userId, .text "t")], []⟩ = .ok subject :=
    ⟨_, rfl⟩
  have hbuild : buildSubject .standard p.subjectHook (flatten (some c)) .fresh
      = (.ok subject, .fresh) := by
    refine buildSubject_none_eq_ok_iff.mpr ?_
    rw [normalize_of_namesUser hnames]
    exact ⟨rfl, hrecord⟩
  have hcalls := resolve_calls_of_buildSubject .boolean "theme" .null hbuild
  refine ⟨huser, subject, _, hcalls, ?_⟩
  refine hsent p .ready .boolean "theme" .null .fresh "t" subject ["theme"]
    (p.client.evaluate subject ["theme"] .fresh).1 rfl huser ?_
  rw [hcalls]
  exact List.mem_singleton_self _

/-- A context with an attribute under the name of the targeting key, and a rival after it. -/
theorem targetingKey_outranked :
    let c : Context := ⟨some "t", [(.text "targetingKey", .text "x"), (.text "user_id", .text "y")]⟩
    Assoc.find? .userId (normalize .standard .subject c.flatten).canonical = some (.text "y") := by
  intro c
  have hrivals : (rivals c.attributes).getLast?.map Prod.snd = some (.text "y") := by
    have huser : namesUser (.text "user_id") = true := by decide +kernel
    have hlater : rivals c.attributes
        = List.filter (fun e => namesUser e.1) [(Value.text "user_id", Value.text "y")] := rfl
    rw [hlater, List.filter_cons, huser]
    rfl
  rw [find?_userId_flatten (c := c) rfl (by decide), hrivals]
  rfl

end Rollout.OpenFeature
