/-
The order of custom properties in a fingerprint.

The custom properties of a subject stand in the order in which the caller gave them.  Subjects that
differ in that order only are reduced to maps that differ in the order of entries only, which sorting
takes away.  They are too deep together, so they have the same fingerprint, or both none, as soon as
their fields can be reduced.

* `Record.SameUpToOrder` — equality of records whose custom properties stand in another order;
* `fingerprint_eq_of_sameUpToOrder` — such subjects have one fingerprint.
-/
import Rollout.Proofs.Fingerprint

namespace Rollout

namespace Record

variable {shape : Shape}

/-- Equality of records whose custom properties stand in another order. -/
structure SameUpToOrder (a b : Record shape) : Prop where
  fields : ∀ key, key ≠ shape.overflowKey → a.field key = b.field key
  properties : ∃ as bs, a.field shape.overflowKey = .map as ∧ b.field shape.overflowKey = .map bs ∧
    Named as ∧ as.Perm bs

namespace SameUpToOrder

variable {a b : Record shape} (h : a.SameUpToOrder b)
include h

theorem isNull_eq (key : CanonicalKey) : (a.field key).isNull = (b.field key).isNull := by
  by_cases hkey : key = shape.overflowKey
  · obtain ⟨as, bs, ha, hb, -, -⟩ := h.properties
    rw [hkey, ha, hb]
    rfl
  · rw [h.fields key hkey]

theorem reducesAlike (key : CanonicalKey) (ha : (a.field key).Reducible) :
    (a.field key).ReducesAlike (b.field key) := by
  by_cases hkey : key = shape.overflowKey
  · obtain ⟨as, bs, has, hbs, hnamed, hperm⟩ := h.properties
    rw [hkey] at ha ⊢
    rw [has] at ha ⊢
    rw [hbs]
    exact Value.reducesAlike_of_perm hnamed hperm ha
  · rw [← h.fields key hkey]
    exact ha.reducesAlike

/-- The fields that are set are the same ones, in the same order. -/
theorem forall₂_entries (ha : ∀ key, (a.field key).Reducible) :
    List.Forall₂ (fun e e' => e.1 = e'.1 ∧ e.2.ReducesAlike e'.2) a.entries b.entries := by
  have hmodel : (shape.keys.filter fun key => !(a.field key).isNull)
      = shape.keys.filter fun key => !(b.field key).isNull :=
    List.filter_congr fun key _ => by rw [h.isNull_eq]
  rw [entries, entries, model, model, hmodel, List.map_map, List.map_map,
    List.forall₂_map_left_iff, List.forall₂_map_right_iff, List.forall₂_same]
  intro key _
  exact ⟨rfl, h.reducesAlike key (ha key)⟩

theorem levels_le_iff (key : CanonicalKey) {n : Nat} :
    (shape.fieldType key).levels (a.field key) ≤ n ↔
      (shape.fieldType key).levels (b.field key) ≤ n := by
  by_cases hkey : key = shape.overflowKey
  · obtain ⟨as, bs, ha, hb, -, hperm⟩ := h.properties
    have htype : shape.fieldType shape.overflowKey = .mapOf .anything := by cases shape <;> rfl
    rw [hkey, htype, ha, hb, FieldType.levels, FieldType.levels, foldr_max_le_iff, foldr_max_le_iff,
      List.forall_mem_map, List.forall_mem_map]
    exact ⟨fun has e he => has e (hperm.mem_iff.mpr he), fun hbs e he => hbs e (hperm.mem_iff.mp he)⟩
  · rw [h.fields key hkey]

theorem shallow_iff : a.Shallow ↔ b.Shallow := forall₂_congr fun key _ => h.levels_le_iff key

end SameUpToOrder

end Record

/-! ### Fingerprints -/

/-- Entries of the same names with alike values are reduced alike. -/
theorem exists_reduce_of_alike {as bs : Attributes} (hkeys : ∀ e ∈ as, ∃ s, e.1 = .text s)
    (h : List.Forall₂ (fun e e' => e.1 = e'.1 ∧ e.2.ReducesAlike e'.2) as bs) :
    ∃ reduced reduced', dumpEachEntry Value.reduce as = .ok reduced ∧
      dumpEachEntry Value.reduce bs = .ok reduced' ∧
      Json.sortMembers reduced = Json.sortMembers reduced' := by
  induction h with
  | nil => exact ⟨[], [], rfl, rfl, rfl⟩
  | @cons e e' as bs hfirst _ ih =>
    obtain ⟨k, v⟩ := e
    obtain ⟨k', v'⟩ := e'
    obtain ⟨rfl, d, d', hd, hd', hsame⟩ := hfirst
    obtain ⟨s, hs⟩ := hkeys (k, v) List.mem_cons_self
    obtain rfl : k = .text s := hs
    obtain ⟨rest, rest', hrest, hrest', hsorted⟩ :=
      ih fun x hx => hkeys x (List.mem_cons_of_mem _ hx)
    rw [dumpEachEntry_eq_ok_iff] at hrest hrest'
    refine ⟨(.text s, d) :: rest, (.text s, d') :: rest', ?_, ?_, ?_⟩
    · exact dumpEachEntry_eq_ok_iff.mpr (.cons ⟨s, rfl, rfl, hd⟩ hrest)
    · exact dumpEachEntry_eq_ok_iff.mpr (.cons ⟨s, rfl, rfl, hd'⟩ hrest')
    · rw [Json.sortMembers, Json.sortMembers, hsame, hsorted]

/-- **Fingerprints do not see the order of custom properties.** -/
theorem fingerprint_eq_of_sameUpToOrder {a b : Subject} (h : a.SameUpToOrder b)
    (ha : ∀ key, (a.field key).Reducible) : fingerprint a = fingerprint b := by
  obtain ⟨reduced, reduced', hreduced, hreduced', hsorted⟩ :=
    exists_reduce_of_alike a.named_entries.1 (h.forall₂_entries ha)
  have hmap : ∀ (r : Subject) (d : Attributes), dumpEachEntry Value.reduce r.entries = .ok d →
      (Value.map r.entries).reduce = .ok (.map d) := fun r d hd =>
    r.named_entries.reduce_map.mpr ⟨d, hd, r.named_entries.of_dumpEachEntry hd, rfl⟩
  have hmap_a := hmap a reduced hreduced
  have hmap_b := hmap b reduced' hreduced'
  by_cases hshallow : a.Shallow
  · rw [fingerprint, fingerprint, Record.dump_eq_ok_iff.mpr ⟨hshallow, hmap_a⟩,
      Record.dump_eq_ok_iff.mpr ⟨h.shallow_iff.mp hshallow, hmap_b⟩]
    simp only [Json.sortNames, hsorted]
  · rw [fingerprint, fingerprint, Record.dump_eq_tooDeep hmap_a hshallow,
      Record.dump_eq_tooDeep hmap_b (mt h.shallow_iff.mpr hshallow)]

end Rollout
