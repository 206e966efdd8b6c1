/-
A caching client in a world of faults.

The world holds the entries of a cache, a clock, and the faults that the cache and the service
behind the client have at the moment.  It remembers what the service was asked.  The client in
front is the caching client over the cache in memory.

* `World`, `cachingClient` — the world and the client in it;
* `World.Keeps` — what reading and writing the cache leave as it is.
-/
import Rollout.Proofs.Client.Storage

namespace Rollout

/-- What the service was asked for, and what it raised. -/
structure Inquiry where
  subject : Subject
  raised : Option Failure

/-- A cache, a clock, the faults of the moment, and what has happened. -/
structure World where
  store : CacheStore
  clock : Rat
  getFault : Option Failure
  setFault : Option Failure
  innerFault : Option Failure
  requests : List Inquiry
  log : List LogEvent

namespace World

def fresh : World := ⟨[], 0, none, none, none, [], []⟩

/-- The entries of the cache as a part of the world. -/
def storeSlot : Slot World CacheStore where
  get := World.store
  set store w := { w with store }

/-- The place of the cache in the world. -/
def storage : Storage World where
  slot := storeSlot
  clock := World.clock
  getFault := World.getFault
  setFault := World.setFault
  note _ w := w
  log event w := { w with log := w.log ++ [event] }

/-- A service that gives every subject its variants, unless a fault is set. -/
def service (variants : Subject → Variants) : AssignmentClient World where
  start w := (.ok (), w)
  stop w := (.ok (), w)
  evaluate subject flags w :=
    let w' := { w with requests := w.requests ++ [⟨subject, w.innerFault⟩] }
    match w.innerFault with
    | some failure => (.error failure, w')
    | none => (.ok ((variants subject).select flags), w')

/-- The caching client in front of the service. -/
def cachingClient (variants : Subject → Variants) (cache : MemoryCache) (ttl : Option Int) :
    CachingClient World :=
  storage.client cache ttl (service variants)

/-- The world without the entries and the log. -/
def rest (w : World) : World := { w with store := [], log := [] }

theorem apart_rest : storage.Apart rest := ⟨fun _ _ => rfl, fun _ _ => rfl, fun _ _ => rfl⟩

/-- Everything but the entries and the log is as it was. -/
structure Keeps (w w' : World) : Prop where
  clock : w'.clock = w.clock
  getFault : w'.getFault = w.getFault
  setFault : w'.setFault = w.setFault
  innerFault : w'.innerFault = w.innerFault
  requests : w'.requests = w.requests

theorem keeps_of_rest {w w' : World} (h : w'.rest = w.rest) : Keeps w w' := by
  simp only [rest, World.mk.injEq, true_and, and_true] at h
  obtain ⟨hclock, hget, hset, hinner, hrequests⟩ := h
  exact ⟨hclock, hget, hset, hinner, hrequests⟩

/-- The world after the service was asked. -/
def asked (w : World) (subject : Subject) : World :=
  { w with requests := w.requests ++ [⟨subject, w.innerFault⟩] }

variable {variants : Subject → Variants} {subject : Subject} {flags : List String} {w : World}

/-- The service changes nothing but what it was asked. -/
theorem service_eq (variants : Subject → Variants) (subject : Subject) (flags : List String)
    (w : World) : (service variants).evaluate subject flags w
      = (w.innerFault.elim (.ok ((variants subject).select flags)) .error, w.asked subject) := by
  obtain ⟨store, clock, getFault, setFault, innerFault, requests, log⟩ := w
  cases innerFault <;> rfl

/-- The service fails with the fault that is set. -/
theorem of_service_error {failure : Failure} {w' : World}
    (h : (service variants).evaluate subject flags w = (.error failure, w')) :
    w.innerFault = some failure ∧ w' = w.asked subject := by
  rw [service_eq] at h
  cases hfault : w.innerFault with
  | some fault =>
    rw [hfault] at h
    cases h
    exact ⟨rfl, rfl⟩
  | none =>
    rw [hfault] at h
    cases h

/-- The service answers with the variants of the subject while no fault is set. -/
theorem of_service_ok {vs : Variants} {w' : World}
    (h : (service variants).evaluate subject flags w = (.ok vs, w')) :
    w.innerFault = none ∧ vs = (variants subject).select flags ∧ w' = w.asked subject := by
  rw [service_eq] at h
  cases hfault : w.innerFault with
  | some fault =>
    rw [hfault] at h
    cases h
  | none =>
    rw [hfault] at h
    cases h
    exact ⟨rfl, rfl, rfl⟩

end World

end Rollout
