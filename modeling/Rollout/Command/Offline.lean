/-
Flags evaluated offline, against variants that are given.

* `Offline.provider` — a provider whose client serves the variants;
* `Offline.evaluate` — the outcome for a flag, between a start and a stop of the provider.
-/
import Rollout.Provider.Flags

namespace Rollout

/-- What a provider leaves behind when it runs on its own: its client's history, its cache and its
log. -/
structure Offline where
  history : StaticClient
  store : CacheStore
  events : List LogEvent

namespace Offline

def fresh : Offline := ⟨.fresh, [], []⟩

/-- One more event at the end of the log. -/
def log (e : LogEvent) (w : Offline) : Offline := { w with events := w.events ++ [e] }

/-- Where the client keeps its history. -/
def historySlot : Slot Offline StaticClient where
  get w := w.history
  set history w := { w with history }

/-- Where the cache keeps its entries. -/
def storeSlot : Slot Offline CacheStore where
  get w := w.store
  set store w := { w with store }

/-- The parts of a provider of variants.  No time passes. -/
def parts (variants : Variants) : ProviderParts Offline where
  client := some (StaticClient.client variants historySlot)
  factory := none
  cache := none
  ownCache limits := limits.backend storeSlot fun _ => 0
  tracker := none
  subjectHook := none
  occurrenceHook := none
  log := log

/-- A provider of variants. -/
def provider (settings : Settings) (variants : Variants) :
    Except Failure (Provider Offline × Provider.State) :=
  (Provider.create settings (parts variants) fresh).1

/-- The outcome for a flag.  The provider is stopped also when the evaluation fails. -/
def evaluate (p : Provider Offline) (s : Provider.State) (type : FlagType) (flag : String)
    (default : Value) (context : Attributes) : Action Offline Outcome := fun w =>
  match p.start s.phase w with
  | (.error failure, _, w) => (.error failure, w)
  | (.ok (), phase, w) =>
    match p.evaluate { s with phase } type flag default context w with
    | (outcome, w) =>
      match p.stop w with
      | (.ok (), _, w) => (outcome, w)
      | (.error failure, _, w) => (.error failure, w)

end Offline

end Rollout
