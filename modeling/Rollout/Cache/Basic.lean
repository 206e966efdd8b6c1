/-
What a cache of values offers.

A backend acts on an outside world `σ` and may fail at every step.

* `CacheBackend` — the operations;
* `Slot` — a part of a world in which something keeps its state.
-/
import Rollout.Failure

namespace Rollout

/-- A computation that may fail and that changes a world. -/
abbrev Action (σ α : Type) := σ → Except Failure α × σ

/-- A cache of values under textual keys.  A lifetime is given in seconds; none asks for the
default of the backend. -/
structure CacheBackend (σ : Type) where
  /-- The value under a key, null when there is none. -/
  get : String → Action σ Value
  set : String → Value → Option Int → Action σ Unit
  delete : String → Action σ Unit
  exists? : String → Action σ Bool
  clear : Action σ Unit

/-- A part of a world. -/
structure Slot (σ α : Type) where
  get : σ → α
  set : α → σ → σ
  get_set : ∀ a w, get (set a w) = a := by intros; rfl
  set_get : ∀ w, set (get w) w = w := by intros; rfl
  set_set : ∀ a b w, set a (set b w) = set a w := by intros; rfl

/-- The world itself. -/
def Slot.whole (α : Type) : Slot α α where
  get := id
  set a _ := a

end Rollout
