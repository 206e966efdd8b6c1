/-
Evaluating a flag offline.

A provider of given variants needs a deployment key and added aliases that name keys.  Once it is
made it starts and stops without fail.  Its cache, if it has one, is empty, so the variant that it
finds is one of those given; so every evaluation has an outcome when the variants come from JSON.

* `Settings.UnknownTarget` — the first added alias that names no key;
* `Command.providerOf_error_iff` — when there is no provider;
* `Offline.evaluate_decoded` — an evaluation has an outcome, which JSON has a form for.
-/
import Rollout.Proofs.AliasTable
import Rollout.Proofs.Client.Storage
import Rollout.Proofs.Command.Input
import Rollout.Proofs.Evaluation.Decoded
import Rollout.Proofs.Fingerprint.Keyed
import Rollout.Proofs.Record.Rearranged
import Rollout.Proofs.Variant
import Rollout.Command

namespace Rollout

open Rollout.Text

/-! ### Added aliases -/

/-- The first added alias whose target is no key names this target. -/
def Settings.UnknownTarget (settings : Settings) (name : String) : Prop :=
  ∃ spelling, settings.extraAliases.find? (fun e => (CanonicalKey.ofWireName? e.2).isNone)
    = some (spelling, name)

theorem Settings.UnknownTarget.unique {settings : Settings} {name other : String}
    (h : settings.UnknownTarget name) (hother : settings.UnknownTarget other) : name = other := by
  obtain ⟨spelling, hfind⟩ := h
  obtain ⟨spelling', hfind'⟩ := hother
  rw [hfind] at hfind'
  cases hfind'
  rfl

/-- The failure of an added alias whose target is no key. -/
def unknownTarget (name : String) : Failure :=
  .reportCause .invalidConfig
    ("unknown canonical key in alias configuration: " ++ quoted name)
    (.notMember (.text name) "CanonicalKey")

/-- Texts are written as aliases up to the first whose target is no key. -/
theorem extend_texts_error_iff {table : AliasTable} {extra : List (String × String)} {f : Failure} :
    table.extend (extra.map fun (spelling, target) => (spelling, .text target)) = .error f ↔
      ∃ spelling name, extra.find? (fun e => (CanonicalKey.ofWireName? e.2).isNone)
        = some (spelling, name) ∧ f = unknownTarget name := by
  induction extra generalizing table with
  | nil =>
    rw [List.map_nil, AliasTable.extend, List.find?_nil]
    simp
  | cons e extra ih =>
    obtain ⟨added, name⟩ := e
    rw [List.map_cons, AliasTable.extend, List.find?_cons]
    cases hname : CanonicalKey.ofWireName? name with
    | some key =>
      have hkey : name = key.wireName := AliasTable.ofWireName?_eq_some_iff.mp hname
      rw [AliasTable.target_eq_ok_iff.mpr (congrArg Value.text hkey)]
      exact ih
    | none =>
      have htarget : AliasTable.target (.text name) = .error (unknownTarget name) := by
        rw [AliasTable.target]
        simp only [hname]
        rfl
      rw [htarget]
      simp [eq_comm]

theorem aliasesOf_error_iff {settings : Settings} {f : Failure} :
    Provider.aliasesOf settings = .error f ↔
      ∃ name, settings.UnknownTarget name ∧ f = unknownTarget name := by
  rw [Provider.aliasesOf, AliasTable.build, extend_texts_error_iff]
  constructor
  · rintro ⟨spelling, name, hfind, hf⟩
    exact ⟨name, ⟨spelling, hfind⟩, hf⟩
  · rintro ⟨name, ⟨spelling, hfind⟩, hf⟩
    exact ⟨spelling, name, hfind, hf⟩

/-! ### The provider -/

namespace Offline

variable {settings : Settings} {variants : Variants}

/-- The client of a provider of variants. -/
def client (settings : Settings) (variants : Variants) : AssignmentClient Offline :=
  Provider.cached settings (parts variants) (StaticClient.client variants historySlot)

/-- The provider of variants. -/
def providerFor (settings : Settings) (variants : Variants) : Provider Offline :=
  ⟨settings, client settings variants, none, none, none, log⟩

theorem client_providerFor (settings : Settings) (variants : Variants) :
    (providerFor settings variants).client = client settings variants := rfl

/-- What comes of the settings of a provider of variants. -/
theorem provider_eq (settings : Settings) (variants : Variants) : provider settings variants
    = if settings.deploymentKey = "" then
        .error (.report .missingConfig "deployment key must not be empty")
      else (Provider.aliasesOf settings).map fun aliases =>
        (providerFor settings variants, ⟨.notReady, aliases⟩) := by
  have hsource : Provider.source (parts variants)
      = .ok fun _ w => (.ok (StaticClient.client variants historySlot), w) := rfl
  simp only [provider, Provider.create, Provider.prepare, hsource]
  by_cases hkey : settings.deploymentKey = ""
  · simp only [hkey, if_true]
  · simp only [hkey, if_false]
    cases Provider.aliasesOf settings <;> rfl

end Offline

/-- There is no provider exactly without a deployment key or with an alias whose target is no
key. -/
theorem Command.providerOf_error_iff [Markup.Handlers] {settings : Settings} {variants : Variants}
    {ending : Ending} :
    providerOf settings variants = .error ending ↔
      (settings.deploymentKey = "" ∧ ending = .refused "deployment key must not be empty") ∨
        settings.deploymentKey ≠ "" ∧ ∃ name, settings.UnknownTarget name ∧
          ending = .refuse ("unknown canonical key in alias configuration: " ++ quoted name) := by
  rw [providerOf, Offline.provider_eq]
  by_cases hkey : settings.deploymentKey = ""
  · have hbare : Ending.refuse "deployment key must not be empty"
        = .refused "deployment key must not be empty" := Ending.refuse_of_bare (by decide)
    rw [if_pos hkey, ← hbare]
    simp [Failure.report, hkey, eq_comm]
  · rw [if_neg hkey]
    cases haliases : Provider.aliasesOf settings with
    | ok aliases =>
      have hnone : ∀ name, ¬ settings.UnknownTarget name := by
        intro name hname
        rw [aliasesOf_error_iff.mpr ⟨name, hname, rfl⟩] at haliases
        cases haliases
      simp [Except.map, hkey, hnone]
    | error f =>
      obtain ⟨name, hname, rfl⟩ := aliasesOf_error_iff.mp haliases
      have hsame : ∀ other, settings.UnknownTarget other ↔ name = other :=
        fun other => ⟨hname.unique, fun h => h ▸ hname⟩
      simp [Except.map, unknownTarget, Failure.reportCause, hkey, hsame, eq_comm]

theorem Command.provider_of_providerOf [Markup.Handlers] {settings : Settings} {variants : Variants}
    {made : Provider Offline × Provider.State} (h : providerOf settings variants = .ok made) :
    Offline.provider settings variants = .ok made := by
  unfold providerOf at h
  split at h
  · rename_i hmade
    cases h
    exact hmade
  · cases h
  · cases h

namespace Offline

variable {settings : Settings} {variants : Variants}

/-! ### The evaluation -/

theorem client_start (w : Offline) : (client settings variants).start w
    = (.ok (), { w with history := { w.history with started := true } }) := by
  rw [client, Provider.cached]
  split <;> rfl

theorem client_stop (w : Offline) : (client settings variants).stop w
    = (.ok (), { w with history := { w.history with started := false } }) := by
  rw [client, Provider.cached]
  split <;> rfl

/-- The place of the cache, in which no faults are injected. -/
def storage : Storage Offline where
  slot := storeSlot
  clock _ := 0
  getFault _ := none
  setFault _ := none
  note _ w := w
  log := log

/-- Variants are always come by, and with an empty cache they are all those given. -/
theorem exists_fetch (variants : Variants) (limits : MemoryCache) (ttl : Option Int) (key : String)
    (subject : Subject) (w : Offline) :
    ∃ vs w', CachingClient.fetch ⟨StaticClient.client variants historySlot,
        limits.backend storeSlot fun _ => 0, ttl, log⟩ key subject w = (.ok vs, w') ∧
      (w.store = [] → vs = variants) := by
  have hfetch : storage.Fetched limits ttl (StaticClient.client variants historySlot) key subject w
      (CachingClient.fetch ⟨StaticClient.client variants historySlot,
        limits.backend storeSlot fun _ => 0, ttl, log⟩ key subject w) :=
    Storage.fetch_spec key subject w
  generalize CachingClient.fetch _ key subject w = r at hfetch ⊢
  cases hfetch with
  | unread other w₁ hread =>
    obtain ⟨_, hfault, -⟩ := hread.error_iff.mp rfl
    cases hfault
  | hit vs w₁ hread =>
    refine ⟨vs, w₁, rfl, fun hstore => ?_⟩
    obtain ⟨e, he, -⟩ := hread.found rfl
    rw [show storage.slot.get w = [] from hstore] at he
    cases he
  -- The given variants are all there is to ask for, and asking for them never fails.
  | raised failure w₁ w₂ hread hanswer => cases hanswer
  | unwritten vs other w₁ w₂ w₃ hread hanswer hwrite =>
    obtain ⟨-, _, hfault, -⟩ := hwrite.error_iff.mp rfl
    cases hfault
  | miss vs w₁ w₂ w₃ hread hanswer hwrite =>
    cases hanswer
    exact ⟨_, w₃, rfl, fun _ => rfl⟩

/-- The client fails for a subject without a key, and says so, or else gives the variants of the flags;
with an empty cache they are those given. -/
theorem client_cases (subject : Subject) (flags : List String) (w : Offline) :
    (∃ f, ((client settings variants).evaluate subject flags w).1 = .error f ∧ f.HasText) ∨
      ∃ vs : Variants, ((client settings variants).evaluate subject flags w).1 = .ok (vs.select flags) ∧
        (w.store = [] → vs = variants) := by
  rw [client, Provider.cached]
  split
  · exact .inr ⟨variants, rfl, fun _ => rfl⟩
  · rename_i o _
    dsimp only [CachingClient.client, parts, Option.getD_none]
    cases hkey : cacheKey subject with
    | error failure =>
      rw [CachingClient.evaluate_of_keyless hkey]
      exact .inl ⟨failure, rfl, hasText_of_cacheKey hkey⟩
    | ok key =>
      obtain ⟨vs, w', hfetch, hall⟩ := exists_fetch variants ⟨o.cacheMaxSize, some o.cacheTtl⟩
        (some o.cacheTtl) key subject w
      rw [CachingClient.evaluate_of_cacheKey hkey, hfetch]
      exact .inr ⟨vs, rfl, hall⟩

/-- The client fails with a text if at all. -/
theorem hasText_of_client {subject : Subject} {flags : List String} {w : Offline} {f : Failure}
    (h : ((client settings variants).evaluate subject flags w).1 = .error f) : f.HasText := by
  rcases client_cases subject flags w with ⟨g, hg, htext⟩ | ⟨vs, hvs, -⟩
  · cases hg.symm.trans h
    exact htext
  · cases hvs.symm.trans h

/-- With an empty cache, a variant that is served is one of those given. -/
theorem mem_of_served {w w' : Offline} (hstore : w.store = []) {subject : Subject} {flag : String}
    {found : Variants} {v : Variant}
    (h : (client settings variants).evaluate subject [flag] w = (.ok found, w'))
    (hv : Assoc.find? flag found = some v) : (flag, v) ∈ variants := by
  have hfound : found = variants.select [flag] := by
    rcases client_cases subject [flag] w with ⟨f, hf, -⟩ | ⟨vs, hvs, hall⟩
    · cases hf.symm.trans (congrArg Prod.fst h)
    · cases hvs.symm.trans (congrArg Prod.fst h)
      rw [hall hstore]
  rw [hfound, Variants.find?_select, if_pos (.inr (List.mem_singleton_self flag))] at hv
  exact Assoc.mem_of_find? hv

/-- The variant that is assigned by a provider with an empty cache is one of those given. -/
theorem mem_of_assigned {state : Provider.State} {flag : String} {context : Attributes}
    {w : Offline} (hstore : w.store = []) {v : Variant}
    (h : (providerFor settings variants).Assigned state flag context w v) :
    (flag, v) ∈ variants := by
  obtain ⟨-, subject, w₁, found, w₂, hbuild, hcall, hfind⟩ := h
  have hw : w₁ = w := by
    rcases buildSubject_none_cases state.aliases context w with ⟨a, ha⟩ | ⟨message, cause, herror⟩
    · cases ha.symm.trans hbuild
      rfl
    · cases herror.symm.trans hbuild
  exact mem_of_served (hw ▸ hstore) hcall hfind

/-- The provider has no hook, and its client fails with a text if at all. -/
theorem not_wordless {state : Provider.State} {flag : String} {context : Attributes} {w : Offline}
    {f : Failure} : ¬ (providerFor settings variants).Wordless state flag context w f := by
  rintro (⟨-, hook, -, -, -, hhook, -⟩ | ⟨-, subject, w₁, -, thrown, hcall, htext⟩)
  · cases hhook
  · exact (hasText_of_client hcall).message_ne htext

/-- The provider starts, and its cache is as it was. -/
theorem start_providerFor (settings : Settings) (variants : Variants) (w : Offline) :
    ∃ w', w'.store = w.store ∧
      (providerFor settings variants).start .notReady w = (.ok (), .ready, w') := by
  refine ⟨log (Provider.readyEvent settings) { w with history := { w.history with started := true } },
    rfl, ?_⟩
  rw [Provider.start, if_neg (by decide), providerFor]
  simp only [client_start]

theorem stop_providerFor (settings : Settings) (variants : Variants) (w : Offline) :
    ∃ w', (providerFor settings variants).stop w = (.ok (), .notReady, w') := by
  refine ⟨log Provider.stoppedEvent { w with history := { w.history with started := false } }, ?_⟩
  rw [Provider.stop, providerFor]
  simp only [client_stop]

theorem eq_providerFor {p : Provider Offline} {state : Provider.State}
    (h : provider settings variants = .ok (p, state)) :
    p = providerFor settings variants ∧ state.phase = .notReady := by
  rw [provider_eq] at h
  split at h
  · cases h
  · obtain ⟨aliases, -, hmade⟩ := map_eq_ok_iff.mp h
    cases hmade
    exact ⟨rfl, rfl⟩

/-- **An offline evaluation has an outcome.**  The variants and the default come from JSON, and so
the outcome has a form in JSON. -/
theorem evaluate_decoded {p : Provider Offline} {state : Provider.State}
    (hprovider : provider settings variants = .ok (p, state))
    (hvariants : ∀ e ∈ variants, e.2.Decoded) {default : Value} (hdefault : Json.Decoded default)
    (type : FlagType) (flag : String) (context : Attributes) :
    ∃ o, (evaluate p state type flag default context .fresh).1 = .ok o ∧ o.Decoded := by
  obtain ⟨rfl, hphase⟩ := eq_providerFor hprovider
  obtain ⟨w, hstore, hstart⟩ := start_providerFor settings variants fresh
  have hresult : ∃ o, ((providerFor settings variants).evaluate { state with phase := .ready } type
      flag default context w).1 = .ok o ∧ o.Decoded := by
    cases hfetch : ((providerFor settings variants).fetch { state with phase := .ready } flag
        context w).1 with
    | error f =>
      rcases Provider.fetch_error hfetch with ⟨report, cause, rfl⟩ | hwordless
      · exact ⟨_, Provider.evaluate_fst_of_reported type default hfetch,
          Outcome.decoded_failed hdefault _ _⟩
      · exact absurd hwordless not_wordless
    | ok v =>
      have hmem := mem_of_assigned hstore (Provider.fetch_ok_iff.mp hfetch)
      rw [Provider.evaluate_fst_of_fetch hfetch]
      exact (hvariants _ hmem).exists_outcome type hdefault
  obtain ⟨o, ho, hdecoded⟩ := hresult
  refine ⟨o, ?_, hdecoded⟩
  rw [evaluate, hphase, hstart]
  dsimp only
  obtain ⟨w', hstop⟩ := stop_providerFor settings variants
    ((providerFor settings variants).evaluate { state with phase := .ready } type flag default
      context w).2
  rw [hstop]
  exact ho

end Offline

end Rollout
