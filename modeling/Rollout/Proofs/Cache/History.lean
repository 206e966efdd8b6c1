/-
The history of a cache in memory.

Callers read and write the cache, and the clock moves on meanwhile.  The history of a run keeps, for
every command, the cache before and after it and what the caller got.

* `CacheRequest`, `CacheReply`, `CacheBackend.answer` — what callers ask of any cache;
* `CacheCommand`, `CacheEvent`, `MemoryCache.run` — a cache in memory with its clock, and its history;
* `CacheEvent.Effect`, `MemoryCache.event_effect` — what a single command can do;
* `MemoryCache.run_induction` — what every command preserves holds of every run.
-/
import Mathlib.Algebra.Field.Rat
import Rollout.Proofs.Cache.Store

namespace Rollout

/-! ### Requests -/

/-- What a caller can ask of a cache. -/
inductive CacheRequest
  | get (key : String)
  | set (key : String) (value : Value) (ttl : Option Int)
  | delete (key : String)
  | exists? (key : String)
  | clear

/-- What the caller gets. -/
inductive CacheReply
  | done
  | value (v : Value)
  | found (b : Bool)
  | count (n : Nat)

/-- An action with its result as a reply. -/
def Action.reply {σ α : Type} (action : Action σ α) (reply : α → CacheReply) :
    Action σ CacheReply := fun w =>
  ((action w).1.map reply, (action w).2)

/-- The reply of a cache to a request. -/
def CacheBackend.answer {σ : Type} (backend : CacheBackend σ) : CacheRequest → Action σ CacheReply
  | .get key => Action.reply (backend.get key) .value
  | .set key value ttl => Action.reply (backend.set key value ttl) fun _ => .done
  | .delete key => Action.reply (backend.delete key) fun _ => .done
  | .exists? key => Action.reply (backend.exists? key) .found
  | .clear => Action.reply backend.clear fun _ => .done

/-! ### Runs and their histories -/

/-- The entries of a cache in memory, and its clock. -/
structure MemoryState where
  store : CacheStore
  clock : Rat

namespace MemoryState

/-- The entries as a part of the state. -/
def storeSlot : Slot MemoryState CacheStore where
  get := store
  set store s := { s with store }

/-- The stored keys, in the order of the entries. -/
def keys (s : MemoryState) : List String := s.store.map Prod.fst

/-- Whether there is an entry under a key that has not expired. -/
def live (s : MemoryState) (key : String) : Bool :=
  match Assoc.find? key s.store with
  | some x => !MemoryCache.expired s.clock x
  | none => false

/-- Whether there is an entry under a key that has expired. -/
def lapsed (s : MemoryState) (key : String) : Bool :=
  match Assoc.find? key s.store with
  | some x => MemoryCache.expired s.clock x
  | none => false

end MemoryState

/-- What can happen to a cache in memory.  The clock never goes back. -/
inductive CacheCommand
  | request (request : CacheRequest)
  | size
  | advance (seconds : ℚ≥0)

/-- One command, as it went. -/
structure CacheEvent where
  command : CacheCommand
  before : MemoryState
  reply : Except Failure CacheReply
  after : MemoryState

/-- What has happened to a cache so far, and what it holds. -/
structure CacheRun where
  history : List CacheEvent
  state : MemoryState

namespace MemoryCache

variable (cache : MemoryCache)

def perform : CacheCommand → Action MemoryState CacheReply
  | .request request => (cache.backend MemoryState.storeSlot MemoryState.clock).answer request
  | .size => fun s => (.ok (.count (size s.store)), s)
  | .advance seconds => fun s => (.ok .done, { s with clock := s.clock + seconds })

/-- A command given to a cache, as it goes. -/
def event (s : MemoryState) (command : CacheCommand) : CacheEvent :=
  ⟨command, s, (cache.perform command s).1, (cache.perform command s).2⟩

/-- A run after one more command. -/
def proceed (r : CacheRun) (command : CacheCommand) : CacheRun :=
  ⟨r.history ++ [cache.event r.state command], (cache.event r.state command).after⟩

/-- All commands given to an empty cache. -/
def run (clock : Rat) (commands : List CacheCommand) : CacheRun :=
  commands.foldl cache.proceed ⟨[], [], clock⟩

end MemoryCache

/-! ### What a command does -/

namespace CacheEvent

/-- A value was written under a key. -/
def Stores (e : CacheEvent) (key : String) (value : Value) (ttl : Option Int) : Prop :=
  e.command = .request (.set key value ttl) ∧ e.reply = .ok .done

/-- A key was asked for, or asked whether it exists. -/
def LooksUp (e : CacheEvent) (key : String) : Prop :=
  e.command = .request (.get key) ∨ e.command = .request (.exists? key)

/-- What a single command can do. -/
inductive Effect (cache : MemoryCache) : CacheEvent → Prop
  | hit (s : MemoryState) (key : String) (x : CacheEntry)
      (found : Assoc.find? key s.store = some x) (live : MemoryCache.expired s.clock x = false) :
      Effect cache ⟨.request (.get key), s, .ok (.value x.value),
        { s with store := MemoryCache.touch key x s.store }⟩
  | missed (s : MemoryState) (key : String) (absent : Assoc.find? key s.store = none) :
      Effect cache ⟨.request (.get key), s, .ok (.value .null), s⟩
  | lapsed (s : MemoryState) (key : String) (x : CacheEntry)
      (found : Assoc.find? key s.store = some x) (dead : MemoryCache.expired s.clock x = true) :
      Effect cache ⟨.request (.get key), s, .ok (.value .null),
        { s with store := Assoc.erase key s.store }⟩
  | present (s : MemoryState) (key : String) (x : CacheEntry)
      (found : Assoc.find? key s.store = some x) (live : MemoryCache.expired s.clock x = false) :
      Effect cache ⟨.request (.exists? key), s, .ok (.found true), s⟩
  | absent (s : MemoryState) (key : String) (absent : Assoc.find? key s.store = none) :
      Effect cache ⟨.request (.exists? key), s, .ok (.found false), s⟩
  | gone (s : MemoryState) (key : String) (x : CacheEntry)
      (found : Assoc.find? key s.store = some x) (dead : MemoryCache.expired s.clock x = true) :
      Effect cache ⟨.request (.exists? key), s, .ok (.found false),
        { s with store := Assoc.erase key s.store }⟩
  | stored (s : MemoryState) (key : String) (value : Value) (ttl : Option Int)
      (expiresAt : Option Rat) (store : CacheStore)
      (expiry : cache.expiry s.clock ttl = .ok expiresAt)
      (put : cache.put key ⟨value, expiresAt⟩ s.store = .ok store) :
      Effect cache ⟨.request (.set key value ttl), s, .ok .done, { s with store }⟩
  | refused (s : MemoryState) (key : String) (value : Value) (ttl : Option Int)
      (failure : Failure) (set : cache.set s.clock key value ttl s.store = .error failure) :
      Effect cache ⟨.request (.set key value ttl), s, .error failure, s⟩
  | deleted (s : MemoryState) (key : String) :
      Effect cache ⟨.request (.delete key), s, .ok .done,
        { s with store := Assoc.erase key s.store }⟩
  | cleared (s : MemoryState) :
      Effect cache ⟨.request .clear, s, .ok .done, { s with store := [] }⟩
  | counted (s : MemoryState) : Effect cache ⟨.size, s, .ok (.count s.store.length), s⟩
  | advanced (s : MemoryState) (seconds : ℚ≥0) :
      Effect cache ⟨.advance seconds, s, .ok .done, { s with clock := s.clock + seconds }⟩

end CacheEvent

namespace MemoryCache

variable {cache : MemoryCache}

theorem backend_set (s : MemoryState) (key : String) (value : Value) (ttl : Option Int) :
    (cache.backend MemoryState.storeSlot MemoryState.clock).set key value ttl s
      = match cache.set s.clock key value ttl s.store with
        | .ok store => (.ok (), { s with store })
        | .error failure => (.error failure, s) := rfl

theorem event_get (s : MemoryState) (key : String) :
    cache.event s (.request (.get key))
      = ⟨.request (.get key), s, .ok (.value ((get s.clock key s.store).1.getD .null)),
        { s with store := (get s.clock key s.store).2 }⟩ := rfl

theorem event_exists? (s : MemoryState) (key : String) :
    cache.event s (.request (.exists? key))
      = ⟨.request (.exists? key), s, .ok (.found (exists? s.clock key s.store).1),
        { s with store := (exists? s.clock key s.store).2 }⟩ := rfl

theorem event_set (s : MemoryState) (key : String) (value : Value) (ttl : Option Int) :
    cache.event s (.request (.set key value ttl))
      = match cache.set s.clock key value ttl s.store with
        | .ok store => ⟨.request (.set key value ttl), s, .ok .done, { s with store }⟩
        | .error failure => ⟨.request (.set key value ttl), s, .error failure, s⟩ := by
  simp only [event, perform, CacheBackend.answer, Action.reply, backend_set]
  cases cache.set s.clock key value ttl s.store with
  | ok store => rfl
  | error failure => rfl

/-- A cache with room writes everything whose lifetime it can measure. -/
theorem reply_set_iff (hsize : 1 ≤ cache.maxSize) (s : MemoryState) (key : String) (value : Value)
    (ttl : Option Int) :
    (cache.event s (.request (.set key value ttl))).reply = .ok .done ↔ cache.Measurable ttl := by
  rw [← @exists_set_iff cache s.clock key value ttl s.store hsize, event_set]
  cases cache.set s.clock key value ttl s.store <;> simp

theorem event_effect (s : MemoryState) (command : CacheCommand) :
    (cache.event s command).Effect cache := by
  cases command with
  | size => exact .counted s
  | advance seconds => exact .advanced s seconds
  | request request =>
    cases request with
    | delete key => exact .deleted s key
    | clear => exact .cleared s
    | set key value ttl =>
      rw [event_set]
      cases hset : cache.set s.clock key value ttl s.store with
      | error failure => exact .refused s key value ttl failure hset
      | ok store =>
        obtain ⟨expiresAt, hexpiry, hput⟩ := set_eq_ok hset
        exact .stored s key value ttl expiresAt store hexpiry hput
    | get key =>
      rw [event_get, get]
      cases hfind : Assoc.find? key s.store with
      | none => exact .missed s key hfind
      | some x =>
        cases hexpired : expired s.clock x with
        | false => simpa [hexpired] using .hit s key x hfind hexpired
        | true => simpa [hexpired] using .lapsed s key x hfind hexpired
    | exists? key =>
      rw [event_exists?, exists?]
      cases hfind : Assoc.find? key s.store with
      | none => exact .absent s key hfind
      | some x =>
        cases hexpired : expired s.clock x with
        | false => simpa [hexpired] using .present s key x hfind hexpired
        | true => simpa [hexpired] using .gone s key x hfind hexpired

/-- What holds of an empty cache and is preserved by every command holds of every run. -/
theorem run_induction (cache : MemoryCache) {P : CacheRun → Prop} (clock : Rat)
    (hempty : P ⟨[], [], clock⟩)
    (hstep : ∀ r e, e.before = r.state → e.Effect cache → P r → P ⟨r.history ++ [e], e.after⟩)
    (commands : List CacheCommand) : P (cache.run clock commands) :=
  List.foldlRecOn commands cache.proceed hempty fun r hr command _ =>
    hstep r _ rfl (event_effect r.state command) hr

end MemoryCache

end Rollout
