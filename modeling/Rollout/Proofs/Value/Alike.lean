/-
Values that differ in the order of their maps only.

Two values are alike when they are of the same kind and their parts are: lists item by item, maps
name by name, in whatever order the names stand.  Sorting the names of all maps picks one value of
each kind of alike ones.

* `Value.Alike` — equality up to the order of entries, at every depth;
* `Value.alike_iff_sortNames_eq` — plain values are alike exactly when they sort to the same value.
-/
import Rollout.Proofs.Value.Plain

namespace Rollout

open Rollout.Json

/-- Equality up to the order of the entries of maps, at every depth. -/
inductive Value.Alike : Value → Value → Prop
  | refl (v : Value) : Alike v v
  | list (as bs : List Value) (length : as.length = bs.length)
      (h : ∀ p ∈ as.zip bs, Alike p.1 p.2) : Alike (.list as) (.list bs)
  | map (as bs : Attributes) (keys : (as.map Prod.fst).Perm (bs.map Prod.fst))
      (h : ∀ k v w, (k, v) ∈ as → (k, w) ∈ bs → Alike v w) : Alike (.map as) (.map bs)

/-! ### Sorting entries -/

namespace Json

theorem sortEntries_pairwise (entries : Attributes) :
    (sortEntries entries).Pairwise fun a b => nameOf a.1 ≤ nameOf b.1 := by
  have h : (sortEntries entries).Pairwise fun a b => decide (nameOf a.1 ≤ nameOf b.1) = true := by
    refine List.pairwise_mergeSort (fun a b c hab hbc => ?_) (fun a b => ?_) entries
    · rw [decide_eq_true_eq] at *
      exact String.le_trans hab hbc
    · rw [Bool.or_eq_true, decide_eq_true_eq, decide_eq_true_eq]
      exact String.le_total _ _
  exact h.imp fun hab => of_decide_eq_true hab

/-- Entries with distinct names are sorted to the same list whatever their order was. -/
theorem sortEntries_eq_iff {as bs : Attributes} (ha : Named as) :
    sortEntries as = sortEntries bs ↔ as.Perm bs := by
  constructor
  · intro h
    calc as.Perm (sortEntries as) := (sortEntries_perm as).symm
      _ = sortEntries bs := h
      List.Perm _ bs := sortEntries_perm bs
  · intro h
    have hperm : (sortEntries as).Perm (sortEntries bs) :=
      (sortEntries_perm as).trans (h.trans (sortEntries_perm bs).symm)
    -- Sorted lists that are permutations agree if entries that are sorted both ways are one entry.
    refine hperm.eq_of_pairwise ?_ (sortEntries_pairwise as) (sortEntries_pairwise bs)
    intro a b hmem hmem' hab hba
    have hmem_a : a ∈ as := (sortEntries_perm as).mem_iff.mp hmem
    have hmem_b : b ∈ as := h.mem_iff.mpr ((sortEntries_perm bs).mem_iff.mp hmem')
    obtain ⟨s, hs⟩ := ha.1 a hmem_a
    obtain ⟨t, ht⟩ := ha.1 b hmem_b
    rw [hs, ht] at hab hba
    have hst : s = t := String.le_antisymm hab hba
    exact List.inj_on_of_nodup_map ha.2 hmem_a hmem_b (by rw [hs, ht, hst])

end Json

namespace Value

/-! ### Alike values sort to the same value -/

theorem map_sortNames_eq {as bs : List Value} (hlen : as.length = bs.length)
    (h : ∀ p ∈ as.zip bs, sortNames p.1 = sortNames p.2) :
    as.map sortNames = bs.map sortNames := by
  induction as generalizing bs with
  | nil => rw [List.length_eq_zero_iff.mp hlen.symm]
  | cons a as ih =>
    cases bs with
    | nil => cases hlen
    | cons b bs =>
      rw [List.map_cons, List.map_cons, h (a, b) List.mem_cons_self,
        ih (Nat.succ.inj hlen) fun p hp => h p (List.mem_cons_of_mem _ hp)]

theorem mem_sortMembers_of_keys_perm {as bs : Attributes}
    (hkeys : (as.map Prod.fst).Perm (bs.map Prod.fst))
    (h : ∀ k v w, (k, v) ∈ as → (k, w) ∈ bs → sortNames v = sortNames w) {e : Value × Value}
    (he : e ∈ sortMembers as) : e ∈ sortMembers bs := by
  rw [sortMembers_eq] at he ⊢
  obtain ⟨⟨k, v⟩, hv, rfl⟩ := List.mem_map.mp he
  have hk : k ∈ bs.map Prod.fst := hkeys.mem_iff.mp (List.mem_map_of_mem hv)
  obtain ⟨⟨k', w⟩, hw, rfl⟩ := List.mem_map.mp hk
  refine List.mem_map.mpr ⟨(k', w), hw, ?_⟩
  rw [h k' v w hv hw]

theorem sortMembers_perm {as bs : Attributes} (ha : Named as) (hb : Named bs)
    (hkeys : (as.map Prod.fst).Perm (bs.map Prod.fst))
    (h : ∀ k v w, (k, v) ∈ as → (k, w) ∈ bs → sortNames v = sortNames w) :
    (sortMembers as).Perm (sortMembers bs) := by
  -- Distinct entries are permuted when the same ones occur, so membership is enough.
  have hna := (named_sortMembers ha).2.of_map
  have hnb := (named_sortMembers hb).2.of_map
  rw [List.perm_ext_iff_of_nodup hna hnb]
  intro e
  constructor
  · exact mem_sortMembers_of_keys_perm hkeys h
  · exact mem_sortMembers_of_keys_perm hkeys.symm fun k v w hv hw => (h k w v hw hv).symm

theorem Plain.items {items : List Value} (h : (Value.list items).Plain) :
    ∀ v ∈ items, v.Plain := by
  cases h with
  | list _ h => exact h

theorem Plain.named {entries : Attributes} (h : (Value.map entries).Plain) : Named entries := by
  cases h with
  | map _ hnamed _ => exact hnamed

theorem Plain.values {entries : Attributes} (h : (Value.map entries).Plain) :
    ∀ e ∈ entries, e.2.Plain := by
  cases h with
  | map _ _ h => exact h

theorem Alike.sortNames_eq {a b : Value} (h : a.Alike b) (ha : a.Plain) (hb : b.Plain) :
    sortNames a = sortNames b := by
  induction h with
  | refl v => rfl
  | list as bs hlen _ ih =>
    rw [sortNames, sortNames, sortItems_eq, sortItems_eq]
    refine congrArg Value.list (map_sortNames_eq hlen fun p hp => ?_)
    have hmem := List.of_mem_zip (a := p.1) (b := p.2) hp
    exact ih p hp (ha.items _ hmem.1) (hb.items _ hmem.2)
  | map as bs hkeys _ ih =>
    rw [sortNames, sortNames]
    have hperm := sortMembers_perm ha.named hb.named hkeys fun k v w hv hw =>
      ih k v w hv hw (ha.values _ hv) (hb.values _ hw)
    rw [(sortEntries_eq_iff (named_sortMembers ha.named)).mpr hperm]

theorem Alike.isNull_eq {a b : Value} (h : a.Alike b) : a.isNull = b.isNull := by
  cases h <;> rfl

/-- Maps are alike when they have the same names with alike values. -/
theorem alike_map_iff {as bs : Attributes} (ha : Named as) :
    (Value.map as).Alike (.map bs) ↔ (as.map Prod.fst).Perm (bs.map Prod.fst) ∧
      ∀ k v w, (k, v) ∈ as → (k, w) ∈ bs → v.Alike w := by
  constructor
  · intro h
    cases h with
    | refl =>
      refine ⟨List.Perm.refl _, fun k v w hv hw => ?_⟩
      rw [ha.unique hv hw]
      exact .refl w
    | map _ _ hkeys h => exact ⟨hkeys, h⟩
  · rintro ⟨hkeys, h⟩
    exact .map as bs hkeys h

/-! ### Values that sort to the same value are alike -/

theorem mem_zip_sortNames {as bs : List Value} (h : as.map sortNames = bs.map sortNames) :
    ∀ p ∈ as.zip bs, sortNames p.1 = sortNames p.2 := by
  induction as generalizing bs with
  | nil =>
    intro p hp
    cases hp
  | cons a as ih =>
    cases bs with
    | nil => cases h
    | cons b bs =>
      rw [List.map_cons, List.map_cons, List.cons.injEq] at h
      intro p hp
      rcases List.mem_cons.mp hp with rfl | hp
      · exact h.1
      · exact ih h.2 p hp

theorem keys_perm_of_sortMembers_perm {as bs : Attributes}
    (h : (sortMembers as).Perm (sortMembers bs)) : (as.map Prod.fst).Perm (bs.map Prod.fst) := by
  have := h.map Prod.fst
  rwa [sortMembers_keys, sortMembers_keys] at this

theorem sortNames_eq_of_sortMembers_perm {as bs : Attributes} (hb : Named bs)
    (h : (sortMembers as).Perm (sortMembers bs)) {k v w : Value} (hv : (k, v) ∈ as)
    (hw : (k, w) ∈ bs) : sortNames v = sortNames w := by
  rw [sortMembers_eq, sortMembers_eq] at h
  have hmem := h.mem_iff.mp (List.mem_map_of_mem hv)
  obtain ⟨⟨k', w'⟩, hw', heq⟩ := List.mem_map.mp hmem
  rw [Prod.mk.injEq] at heq
  obtain ⟨rfl, heq⟩ := heq
  rw [hb.unique hw hw', heq]

theorem alike_of_sortNames_eq {a b : Value} (ha : a.Plain) (hb : b.Plain)
    (h : sortNames a = sortNames b) : a.Alike b := by
  -- The induction is on the value that is known to be plain, the other one is opened in each case.
  induction ha generalizing b with
  | null | bool | int | float | text =>
    cases hb <;> simp only [sortNames] at h <;> cases h
    exact .refl _
  | list as _ ih =>
    cases hb with
    | list bs hbs =>
      rw [sortNames, sortNames, sortItems_eq, sortItems_eq, Value.list.injEq] at h
      have hlen : as.length = bs.length := by
        rw [← List.length_map sortNames, h, List.length_map]
      refine .list as bs hlen fun p hp => ?_
      have hmem := List.of_mem_zip (a := p.1) (b := p.2) hp
      exact ih p.1 hmem.1 (hbs p.2 hmem.2) (mem_zip_sortNames h p hp)
    | _ => simp only [sortNames, reduceCtorEq] at h
  | map as hnamed _ ih =>
    cases hb with
    | map bs hnamed' hbs =>
      rw [sortNames, sortNames, Value.map.injEq] at h
      have hperm := (sortEntries_eq_iff (named_sortMembers hnamed)).mp h
      refine .map as bs (keys_perm_of_sortMembers_perm hperm) fun k v w hv hw => ?_
      exact ih (k, v) hv (hbs (k, w) hw) (sortNames_eq_of_sortMembers_perm hnamed' hperm hv hw)
    | _ => simp only [sortNames, reduceCtorEq] at h

/-- **Sorting decides likeness.**  Plain values are alike exactly when they sort to the same
value. -/
theorem alike_iff_sortNames_eq {a b : Value} (ha : a.Plain) (hb : b.Plain) :
    a.Alike b ↔ sortNames a = sortNames b :=
  ⟨fun h => h.sortNames_eq ha hb, alike_of_sortNames_eq ha hb⟩

end Value

end Rollout
