/-
The boundary to the assignment service.

The service decides which variant of each flag a subject gets.  A client asks it; it acts on an
outside world `σ` and may fail at every step.

* `AssignmentClient` — what a client offers;
* `Tracker.collecting` — a tracker that collects the events it receives;
* `Variants.select` — the variants of the flags asked for;
* `StaticClient` — a client that serves the same variants to everyone.
-/
import Rollout.Cache.Basic
import Rollout.Record
import Rollout.Variant

namespace Rollout

/-- A client of the assignment service.  An empty list of flags asks for all of them. -/
structure AssignmentClient (σ : Type) where
  start : Action σ Unit
  stop : Action σ Unit
  evaluate : Subject → List String → Action σ Variants

/-- A receiver of tracked events. -/
abbrev Tracker (σ : Type) := Occurrence → σ → σ

/-- A tracker that collects the events it receives in a slot of the world. -/
def Tracker.collecting {σ : Type} (slot : Slot σ (List Occurrence)) : Tracker σ :=
  fun occurrence w => slot.set (slot.get w ++ [occurrence]) w

namespace Variants

/-- The variants of the flags asked for, in the order of asking. -/
def pick (variants : Variants) : List String → Variants
  | [] => []
  | flag :: rest =>
    match Assoc.find? flag variants with
    | some variant => (flag, variant) :: pick variants rest
    | none => pick variants rest

/-- The variants of the flags asked for, each once; all variants when no flag is named. -/
def select (variants : Variants) (flags : List String) : Variants :=
  if flags.isEmpty then variants else Assoc.ofEntries (pick variants flags)

end Variants

/-- What a static client has been through: whether it is started, and what it was asked. -/
structure StaticClient where
  started : Bool
  calls : List (Subject × List String)

namespace StaticClient

def fresh : StaticClient := ⟨false, []⟩

/-- A client that serves fixed variants and keeps its history in a slot of the world. -/
def client {σ : Type} (variants : Variants) (slot : Slot σ StaticClient) :
    AssignmentClient σ where
  start w := (.ok (), slot.set { slot.get w with started := true } w)
  stop w := (.ok (), slot.set { slot.get w with started := false } w)
  evaluate subject flags w :=
    let history := slot.get w
    (.ok (variants.select flags),
      slot.set { history with calls := history.calls ++ [(subject, flags)] } w)

end StaticClient

end Rollout
