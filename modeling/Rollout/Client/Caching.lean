/-
A client that caches every variant of a subject.

Entries are found by the content of the subject, so an entry serves only subjects with the same
fields.  When there is none, all flags are fetched at once and stored.  A cache that fails is
logged, and the live result is served, unless its failure has no text to log.

* `CachingClient.read`, `CachingClient.write` — the cache, with its failures logged;
* `CachingClient.evaluate` — the variants of a subject;
* `CachingClient.client` — the whole as a client.
-/
import Rollout.Client.Basic
import Rollout.Fingerprint
import Rollout.Log.Event

namespace Rollout

/-- A client in front of another one. -/
structure CachingClient (σ : Type) where
  inner : AssignmentClient σ
  cache : CacheBackend σ
  ttl : Option Int
  log : LogEvent → σ → σ

namespace CachingClient

variable {σ : Type}

/-- A warning about the cache. -/
def warning (event key message : String) : LogEvent :=
  ⟨.warning, some "flagbridge.client", event, [("key", .text key), ("error", .text message)]⟩

/-- Logs a failure of the cache, and goes on with a result.  A failure whose text cannot be taken is
not logged, and nothing goes on. -/
def warn {α : Type} (c : CachingClient σ) (event key : String) (failure : Failure) (result : α) :
    Action σ α := fun w =>
  match failure.message with
  | .ok message => (.ok result, c.log (warning event key message) w)
  | .error other => (.error other, w)

/-- The variants that a cached value stands for; none for an absent value. -/
def decode : Value → Except Failure (Option Variants)
  | .null => .ok none
  | .map entries =>
    (Variant.ofFlags (entries.map fun (flag, v) => (flag.display, v))).map some
  | v => .error (.noEntries v)

/-- The cached variants under a key.  A failing cache and a corrupt entry count as a miss. -/
def read (c : CachingClient σ) (key : String) : Action σ (Option Variants) := fun w =>
  match c.cache.get key w with
  | (.error failure, w) => c.warn "variant_cache_read_failed" key failure none w
  | (.ok value, w) =>
    match decode value with
    | .ok found => (.ok found, w)
    | .error failure => c.warn "variant_cache_read_failed" key failure none w

/-- Stores variants under a key, unless they cannot be reduced to JSON or the cache fails. -/
def write (c : CachingClient σ) (key : String) (variants : Variants) : Action σ Unit := fun w =>
  match variants.dump with
  | .error failure => c.warn "variant_cache_write_failed" key failure () w
  | .ok entries =>
    match c.cache.set key (.map entries) c.ttl w with
    | (.ok (), w) => (.ok (), w)
    | (.error failure, w) => c.warn "variant_cache_write_failed" key failure () w

/-- All variants that the inner client has for a subject, stored under a key. -/
def refresh (c : CachingClient σ) (key : String) (subject : Subject) : Action σ Variants := fun w =>
  -- All flags are asked for, so that the entry answers later calls for any of them.
  match c.inner.evaluate subject [] w with
  | (.error failure, w) => (.error failure, w)
  | (.ok variants, w) =>
    match c.write key variants w with
    | (.error failure, w) => (.error failure, w)
    | (.ok (), w) => (.ok variants, w)

/-- All variants under a key: the cached ones, or else those that the inner client has. -/
def fetch (c : CachingClient σ) (key : String) (subject : Subject) : Action σ Variants := fun w =>
  match c.read key w with
  | (.error failure, w) => (.error failure, w)
  | (.ok (some variants), w) => (.ok variants, w)
  | (.ok none, w) => c.refresh key subject w

/-- The variants of a subject for the flags asked for. -/
def evaluate (c : CachingClient σ) (subject : Subject) (flags : List String) :
    Action σ Variants := fun w =>
  match cacheKey subject with
  | .error failure => (.error failure, w)
  | .ok key =>
    match c.fetch key subject w with
    | (.error failure, w) => (.error failure, w)
    | (.ok variants, w) => (.ok (variants.select flags), w)

/-- The caching client as a client. -/
def client (c : CachingClient σ) : AssignmentClient σ where
  start := c.inner.start
  stop := c.inner.stop
  evaluate := c.evaluate

end CachingClient

end Rollout
