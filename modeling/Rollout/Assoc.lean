/-
Association lists that remember the order in which their keys first appeared.

Writing an existing key keeps the place and the spelling of the key and replaces the value, so a
list written through `insert` holds every key once.

* `Assoc.find?`, `Assoc.insert`, `Assoc.erase` — access to one key;
* `Assoc.update` — all entries of another list, written in their order;
* `Assoc.find?_insert` — a write changes what is found under its own key only.
-/

namespace Rollout

/-- Keys with their values, in the order of first appearance. -/
abbrev Assoc (α β : Type) := List (α × β)

namespace Assoc

variable {α β : Type} [BEq α]

/-- The value under a key. -/
def find? (key : α) : Assoc α β → Option β
  | [] => none
  | (k, v) :: rest => if k == key then some v else find? key rest

def contains (key : α) (entries : Assoc α β) : Bool := (find? key entries).isSome

/-- Writes a value under a key: in its place, or at the end for a new key. -/
def insert (key : α) (value : β) : Assoc α β → Assoc α β
  | [] => [(key, value)]
  | (k, v) :: rest => if k == key then (k, value) :: rest else (k, v) :: insert key value rest

/-- Writes a value under a key that is not yet present. -/
def insertNew (key : α) (value : β) (entries : Assoc α β) : Assoc α β :=
  if contains key entries then entries else insert key value entries

def erase (key : α) : Assoc α β → Assoc α β
  | [] => []
  | (k, v) :: rest => if k == key then rest else (k, v) :: erase key rest

/-- Writes all entries of `others` in their order. -/
def update (entries others : Assoc α β) : Assoc α β :=
  others.foldl (fun entries entry => insert entry.1 entry.2 entries) entries

/-- The list that writing the given entries one by one leaves. -/
def ofEntries (entries : List (α × β)) : Assoc α β := update [] entries

def keys (entries : Assoc α β) : List α := entries.map Prod.fst

@[simp] theorem find?_nil (key : α) : find? key ([] : Assoc α β) = none := rfl

theorem find?_insert [PartialEquivBEq α] (key other : α) (value : β) (entries : Assoc α β) :
    find? other (insert key value entries)
      = if key == other then some value else find? other entries := by
  induction entries with
  | nil => rfl
  | cons entry rest ih =>
    obtain ⟨k, v⟩ := entry
    by_cases hk : (k == key) = true
    · have hsame : (k == other) = (key == other) := BEq.congr_left hk
      by_cases ho : (key == other) = true <;> simp [insert, find?, hk, hsame, ho]
    · by_cases ho : (k == other) = true
      · have hother : (key == other) = false := by
          rw [← Bool.not_eq_true]
          exact fun h => hk (PartialEquivBEq.trans ho (BEq.symm h))
        simp [insert, find?, hk, ho, hother]
      · simp [insert, find?, hk, ho, ih]

end Assoc

end Rollout
