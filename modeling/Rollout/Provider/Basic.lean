/-
What a provider is made of.

A provider evaluates flags for loosely typed contexts.  It owns a client of the assignment service,
behind a cache when the settings ask for one, and an alias table that can be replaced.

* `Provider.State` — what changes during its life: the phase and the alias table;
* `Provider.create` — a provider from settings and its parts, or what is wrong with them.
-/
import Rollout.Cache.Memory
import Rollout.Client.Caching
import Rollout.Record.OfAttributes
import Rollout.Settings.Basic

namespace Rollout

/-- The phase of a provider's life. -/
inductive Phase
  | notReady | ready | failed
deriving DecidableEq, Repr

def Phase.name : Phase → String
  | .notReady => "NOT_READY"
  | .ready => "READY"
  | .failed => "ERROR"

/-- The options under which variants are cached; none when they are not. -/
def Settings.caching (s : Settings) : Option RemoteOptions :=
  s.remote.filter (·.cacheEnabled)

/-- A provider, acting on an outside world. -/
structure Provider (σ : Type) where
  settings : Settings
  client : AssignmentClient σ
  tracker : Option (Tracker σ)
  subjectHook : Option (SubjectHook σ)
  occurrenceHook : Option (OccurrenceHook σ)
  log : LogEvent → σ → σ

/-- The parts from which a provider is made.  Its client is either given or made from the
settings.  `ownCache` keeps the variants when caching is on and no cache is given. -/
structure ProviderParts (σ : Type) where
  client : Option (AssignmentClient σ)
  factory : Option (Settings → Action σ (AssignmentClient σ))
  cache : Option (CacheBackend σ)
  ownCache : MemoryCache → CacheBackend σ
  tracker : Option (Tracker σ)
  subjectHook : Option (SubjectHook σ)
  occurrenceHook : Option (OccurrenceHook σ)
  log : LogEvent → σ → σ

namespace Provider

def name : String := "flagbridge"

def loggerName : String := "flagbridge.provider"

/-- What changes during the life of a provider. -/
structure State where
  phase : Phase
  aliases : AliasTable
deriving Repr

variable {σ : Type}

/-- A client behind a cache, when the settings ask for one. -/
def cached (settings : Settings) (parts : ProviderParts σ) (client : AssignmentClient σ) :
    AssignmentClient σ :=
  match settings.caching with
  | none => client
  | some o =>
    let cache := parts.cache.getD (parts.ownCache ⟨o.cacheMaxSize, some o.cacheTtl⟩)
    CachingClient.client ⟨client, cache, some o.cacheTtl, parts.log⟩

/-- The alias table with the aliases that the settings add. -/
def aliasesOf (settings : Settings) : Except Failure AliasTable :=
  AliasTable.build (settings.extraAliases.map fun (spelling, target) => (spelling, .text target))
    CanonicalKey.all

/-- The way to a client that the parts name; it must be exactly one. -/
def source (parts : ProviderParts σ) :
    Except Failure (Settings → Action σ (AssignmentClient σ)) :=
  match parts.client, parts.factory with
  | some client, none => .ok fun _ w => (.ok client, w)
  | none, some factory => .ok factory
  | some _, some _ =>
    .error (.report .invalidConfig "pass either client or client_factory, not both")
  | none, none =>
    .error (.report .missingConfig "an assignment client or client_factory is required")

/-- What must be in order before a client is made: the deployment key, the way to the client and
the aliases. -/
def prepare (settings : Settings) (parts : ProviderParts σ) :
    Except Failure ((Settings → Action σ (AssignmentClient σ)) × AliasTable) :=
  if settings.deploymentKey = "" then
    .error (.report .missingConfig "deployment key must not be empty")
  else match source parts, aliasesOf settings with
    | .ok make, .ok aliases => .ok (make, aliases)
    | .error failure, _ => .error failure
    | .ok _, .error failure => .error failure

/-- A provider that was not started yet. -/
def create (settings : Settings) (parts : ProviderParts σ) : Action σ (Provider σ × State) :=
  fun w =>
    match prepare settings parts with
    | .error failure => (.error failure, w)
    | .ok (make, aliases) =>
      match make settings w with
      | (.error failure, w) => (.error failure, w)
      | (.ok client, w) =>
        (.ok (⟨settings, cached settings parts client, parts.tracker, parts.subjectHook,
          parts.occurrenceHook, parts.log⟩, ⟨.notReady, aliases⟩), w)

end Provider

end Rollout
