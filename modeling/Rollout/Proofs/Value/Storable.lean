/-
Values that can be reduced to what JSON holds.

A key of a map must become a text, and a value must be made of parts that JSON has a form for.  Both
are told by the value alone: an object of an unknown kind has no form, bytes have one if they are
text in UTF-8, and an integer becomes a name if it is short enough to be written.

* `Value.Nameable`, `Value.Storable` — keys and values that can be reduced;
* `Value.exists_dumpKey_iff`, `Value.reducible_iff_storable` — reducing them succeeds, and reducing
  anything else fails.
-/
import Rollout.Proofs.Dump

namespace Rollout

open Rollout.Text

namespace Value

/-! ### Keys -/

/-- A key that becomes a text. -/
inductive Nameable : Value → Prop
  | null : Nameable .null
  | bool (b : Bool) : Nameable (.bool b)
  | int (n : Int) (short : digitCount n.natAbs ≤ Numeral.maxDigits) : Nameable (.int n)
  | float (x : Binary64) : Nameable (.float x)
  | decimal (d : Decimal) : Nameable (.decimal d)
  | text (s : String) : Nameable (.text s)
  | bytes (octets : List UInt8) (cs : List Char) (utf8 : decodeUtf8 octets = .ok cs) :
      Nameable (.bytes octets)
  | tuple (items : List Value) (h : ∀ v ∈ items, Nameable v) : Nameable (.tuple items)

theorem exists_dumpKeys_iff {items : List Value} :
    (∃ texts, dumpKeys items = .ok texts) ↔ ∀ v ∈ items, ∃ s, v.dumpKey = .ok s := by
  induction items with
  | nil => simp [dumpKeys]
  | cons v items ih =>
    rw [dumpKeys, List.forall_mem_cons, ← ih]
    cases v.dumpKey with
    | error failure => simp
    | ok s => simp [exists_map_eq_ok_iff]

theorem exists_textOfBytes_iff {octets : List UInt8} :
    (∃ s, textOfBytes octets = .ok s) ↔ ∃ cs, decodeUtf8 octets = .ok cs := by
  unfold textOfBytes
  cases decodeUtf8 octets <;> simp

/-- The keys that become a text are the nameable ones. -/
theorem exists_dumpKey_iff (v : Value) : (∃ s, v.dumpKey = .ok s) ↔ v.Nameable := by
  induction v using induction_parts with
  | step v ih =>
    cases v with
    | null => exact ⟨fun _ => .null, fun _ => ⟨_, rfl⟩⟩
    | bool b => exact ⟨fun _ => .bool b, fun _ => ⟨_, rfl⟩⟩
    | float x => exact ⟨fun _ => .float x, fun _ => ⟨_, rfl⟩⟩
    | decimal d => exact ⟨fun _ => .decimal d, fun _ => ⟨_, rfl⟩⟩
    | text s => exact ⟨fun _ => .text s, fun _ => ⟨_, rfl⟩⟩
    | int n =>
      have hshort : (∃ s, (Value.int n).dumpKey = .ok s) ↔
          digitCount n.natAbs ≤ Numeral.maxDigits := by
        rw [dumpKey]
        split <;> simp_all
      rw [hshort]
      refine ⟨.int n, fun h => ?_⟩
      cases h with
      | int _ short => exact short
    | bytes octets =>
      rw [dumpKey, exists_textOfBytes_iff]
      constructor
      · rintro ⟨cs, hcs⟩
        exact .bytes octets cs hcs
      · intro h
        cases h with
        | bytes _ cs utf8 => exact ⟨cs, utf8⟩
    | tuple items =>
      rw [dumpKey, exists_map_eq_ok_iff, exists_dumpKeys_iff]
      refine (forall₂_congr ih).trans ⟨.tuple items, fun h => ?_⟩
      cases h with
      | tuple _ h => exact h
    | list | set | map | object =>
      constructor
      · rintro ⟨s, hs⟩
        simp [dumpKey] at hs
      · intro h
        cases h

/-! ### Values -/

/-- A value that JSON has a form for: no part of it is an object, its bytes are text, and the keys of
its maps become texts. -/
inductive Storable : Value → Prop
  | null : Storable .null
  | bool (b : Bool) : Storable (.bool b)
  | int (n : Int) : Storable (.int n)
  | float (x : Binary64) : Storable (.float x)
  | decimal (d : Decimal) : Storable (.decimal d)
  | text (s : String) : Storable (.text s)
  | bytes (octets : List UInt8) (cs : List Char) (utf8 : decodeUtf8 octets = .ok cs) :
      Storable (.bytes octets)
  | list (items : List Value) (h : ∀ v ∈ items, Storable v) : Storable (.list items)
  | tuple (items : List Value) (h : ∀ v ∈ items, Storable v) : Storable (.tuple items)
  | set (items : List Value) (h : ∀ v ∈ items, Storable v) : Storable (.set items)
  | map (entries : Attributes) (keys : ∀ e ∈ entries, e.1.Nameable)
      (values : ∀ e ∈ entries, Storable e.2) : Storable (.map entries)

/-- A value can be reduced exactly when JSON has a form for it. -/
theorem reducible_iff_storable (v : Value) : v.Reducible ↔ v.Storable := by
  induction v using induction_parts with
  | step v ih =>
    cases v with
    | null => exact ⟨fun _ => .null, fun _ => ⟨_, rfl⟩⟩
    | bool b => exact ⟨fun _ => .bool b, fun _ => ⟨_, rfl⟩⟩
    | int n => exact ⟨fun _ => .int n, fun _ => ⟨_, rfl⟩⟩
    | float x => exact ⟨fun _ => .float x, fun _ => ⟨_, rfl⟩⟩
    | decimal d => exact ⟨fun _ => .decimal d, fun _ => ⟨_, rfl⟩⟩
    | text s => exact ⟨fun _ => .text s, fun _ => ⟨_, rfl⟩⟩
    | bytes octets =>
      rw [Reducible, reduce, exists_map_eq_ok_iff, exists_textOfBytes_iff]
      constructor
      · rintro ⟨cs, hcs⟩
        exact .bytes octets cs hcs
      · intro h
        cases h with
        | bytes _ cs utf8 => exact ⟨cs, utf8⟩
    | list items =>
      rw [reducible_iff_of_listItems? rfl]
      refine (forall₂_congr ih).trans ⟨.list items, fun h => ?_⟩
      cases h with
      | list _ h => exact h
    | tuple items =>
      rw [reducible_iff_of_listItems? rfl]
      refine (forall₂_congr ih).trans ⟨.tuple items, fun h => ?_⟩
      cases h with
      | tuple _ h => exact h
    | set items =>
      rw [reducible_iff_of_listItems? rfl]
      refine (forall₂_congr ih).trans ⟨.set items, fun h => ?_⟩
      cases h with
      | set _ h => exact h
    | map entries =>
      have hvalues : ∀ e ∈ entries, e.2.Reducible ↔ e.2.Storable :=
        fun e he => (forall_parts_map ih e he).2
      rw [reducible_map_iff]
      constructor
      · intro h
        refine .map entries (fun e he => (exists_dumpKey_iff e.1).mp (h e he).1) fun e he => ?_
        exact (hvalues e he).mp (h e he).2
      · intro h e he
        cases h with
        | map _ keys values =>
          exact ⟨(exists_dumpKey_iff e.1).mpr (keys e he), (hvalues e he).mpr (values e he)⟩
    | object =>
      constructor
      · rintro ⟨d, hd⟩
        cases hd
      · intro h
        cases h

end Value

end Rollout
