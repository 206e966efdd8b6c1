/-
A bounded cache in memory.

The entries are kept in order of use, the least recently used first.  Writing an entry and reading
it count as use, asking whether it exists does not.  An entry lives until the clock has passed the
end of its lifetime, and is dropped when it is next looked at.

* `MemoryCache.get`, `set`, `delete`, `exists?`, `size` — the operations on the entries;
* `MemoryCache.backend` — the cache as a backend that keeps its entries in a slot.
-/
import Rollout.Cache.Basic

namespace Rollout

/-- The limits of a cache: how many entries it holds and how long they live by default. -/
structure MemoryCache where
  maxSize : Int
  defaultTtl : Option Int
deriving DecidableEq, Repr

/-- A cached value.  Without an end, it lives until it is evicted. -/
structure CacheEntry where
  value : Value
  expiresAt : Option Rat
deriving Repr

/-- The entries of a cache, the least recently used first. -/
abbrev CacheStore := Assoc String CacheEntry

namespace MemoryCache

/-- The limits of a cache for which none are given. -/
def standard : MemoryCache := ⟨10000, some 60⟩

/-- Whether an entry has outlived its time. -/
def expired (now : Rat) (e : CacheEntry) : Bool :=
  match e.expiresAt with
  | some limit => decide (limit < now)
  | none => false

/-- Puts an entry at the end, as the most recently used. -/
def touch (key : String) (e : CacheEntry) (store : CacheStore) : CacheStore :=
  Assoc.erase key store ++ [(key, e)]

/-- Whether a lifetime is short enough for the clock. -/
def measurable (seconds : Int) : Bool := (Binary64.ofInt seconds).isFinite

/-- The end of a lifetime that begins now.  Neither no lifetime nor one of zero ever ends; one that
is beyond the range of the clock is a failure. -/
def expiry (cache : MemoryCache) (now : Rat) (ttl : Option Int) : Except Failure (Option Rat) :=
  match ttl <|> cache.defaultTtl with
  | none => .ok none
  | some seconds =>
    if seconds = 0 then .ok none
    else if measurable seconds then .ok (some (now + seconds))
    else .error .floatOverflow

/-- The value under a key, and the entries after it was used. -/
def get (now : Rat) (key : String) (store : CacheStore) : Option Value × CacheStore :=
  match Assoc.find? key store with
  | none => (none, store)
  | some e =>
    if expired now e then (none, Assoc.erase key store) else (some e.value, touch key e store)

/-- Stores an entry as the most recently used.  A new key in a full cache takes the place of the
least recently used one. -/
def put (cache : MemoryCache) (key : String) (e : CacheEntry) (store : CacheStore) :
    Except Failure CacheStore :=
  if Assoc.contains key store then .ok (touch key e store)
  else if cache.maxSize ≤ store.length then
    match store with
    | [] => .error .nothingToEvict
    | _ :: rest => .ok (rest ++ [(key, e)])
  else .ok (store ++ [(key, e)])

/-- Writes a value, unless its lifetime cannot be measured. -/
def set (cache : MemoryCache) (now : Rat) (key : String) (value : Value) (ttl : Option Int)
    (store : CacheStore) : Except Failure CacheStore :=
  match cache.expiry now ttl with
  | .ok expiresAt => cache.put key ⟨value, expiresAt⟩ store
  | .error failure => .error failure

def delete (key : String) (store : CacheStore) : CacheStore := Assoc.erase key store

/-- Whether a key is present, and the entries without it if it has expired. -/
def exists? (now : Rat) (key : String) (store : CacheStore) : Bool × CacheStore :=
  match Assoc.find? key store with
  | none => (false, store)
  | some e => if expired now e then (false, Assoc.erase key store) else (true, store)

/-- How many entries there are.  Those that have expired count until they are looked at. -/
def size (store : CacheStore) : Nat := store.length

/-- The cache as a backend with its entries in a slot of the world and a clock to read. -/
def backend {σ : Type} (cache : MemoryCache) (slot : Slot σ CacheStore) (clock : σ → Rat) :
    CacheBackend σ where
  get key w :=
    let (value, store) := get (clock w) key (slot.get w)
    (.ok (value.getD .null), slot.set store w)
  set key value ttl w :=
    match cache.set (clock w) key value ttl (slot.get w) with
    | .ok store => (.ok (), slot.set store w)
    | .error failure => (.error failure, w)
  delete key w := (.ok (), slot.set (delete key (slot.get w)) w)
  exists? key w :=
    let (found, store) := exists? (clock w) key (slot.get w)
    (.ok found, slot.set store w)
  clear w := (.ok (), slot.set [] w)

end MemoryCache

end Rollout
