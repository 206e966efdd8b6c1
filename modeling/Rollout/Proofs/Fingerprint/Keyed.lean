/-
Which subjects have a cache key.

The key of a subject is made from the text of all its fields, so a single field without a text leaves
the subject without a key.  The fields that are read from a context may hold any value that a caller
passes on, and not all of them have a text, or few enough levels.

* `Record.Keyed` — records all of whose fields can be dumped and written;
* `exists_cacheKey_iff` — a subject has a cache key exactly when it is keyed.
-/
import Rollout.Proofs.Fingerprint
import Rollout.Proofs.Json.Writable

namespace Rollout

namespace Record

variable {shape : Shape}

/-- A record whose fields have few enough levels, and a form in JSON with integers that are short
enough to be written. -/
def Keyed (r : Record shape) : Prop := ∀ key ∈ shape.keys,
  (shape.fieldType key).levels (r.field key) ≤ Value.maxLevels ∧
  (r.field key).Storable ∧ ∀ d, (r.field key).reduce = .ok d → Json.Writable d

theorem exists_writable_iff {v : Value} : (∃ d, v.reduce = .ok d ∧ Json.Writable d) ↔
    v.Storable ∧ ∀ d, v.reduce = .ok d → Json.Writable d := by
  rw [← v.reducible_iff_storable]
  constructor
  · rintro ⟨d, hd, hwritable⟩
    refine ⟨⟨d, hd⟩, fun d' hd' => ?_⟩
    rw [hd] at hd'
    exact Except.ok.inj hd' ▸ hwritable
  · rintro ⟨⟨d, hd⟩, hwritable⟩
    exact ⟨d, hd, hwritable d hd⟩

/-- A map of distinct names can be written when its values can be reduced and written. -/
theorem exists_writable_map_iff {entries : Attributes} (hnamed : Named entries) :
    (∃ d, (Value.map entries).reduce = .ok d ∧ Json.Writable d) ↔
      ∀ e ∈ entries, ∃ d, e.2.reduce = .ok d ∧ Json.Writable d := by
  constructor
  · rintro ⟨d, hd, hwritable⟩ e he
    obtain ⟨reduced, hreduced, -, rfl⟩ := hnamed.reduce_map.mp hd
    cases hwritable with
    | map _ _ values =>
      have hflip := (dumpEachEntry_eq_ok_iff.mp hreduced).flip
      obtain ⟨x, hx, -, -, -, hdump⟩ := exists_of_mem_right hflip he
      exact ⟨x.2, hdump, values x hx⟩
  · intro h
    have hentries : ∀ e ∈ entries, ∃ x, DumpsEntry Value.reduce e x ∧ Json.Writable x.2 := by
      intro e he
      obtain ⟨s, hs⟩ := hnamed.1 e he
      obtain ⟨d, hd, hwritable⟩ := h e he
      exact ⟨(.text s, d), ⟨s, by rw [hs, Value.dumpKey], rfl, hd⟩, hwritable⟩
    obtain ⟨reduced, hall⟩ := exists_forall₂_iff.mpr hentries
    have hreduced := dumpEachEntry_eq_ok_iff.mpr (hall.imp fun _ _ h => h.1)
    have hnames := hnamed.of_dumpEachEntry hreduced
    refine ⟨.map reduced, hnamed.reduce_map.mpr ⟨reduced, hreduced, hnames, rfl⟩, ?_⟩
    refine .map reduced (fun x hx => ?_) fun x hx => ?_
    · obtain ⟨s, hs⟩ := hnames.1 x hx
      exact ⟨s, by rw [hs, Json.keyName]⟩
    · obtain ⟨e, -, -, hwritable⟩ := exists_of_mem_right hall hx
      exact hwritable

/-- Fields that are not set need not be written, and could be. -/
theorem keyed_iff {r : Record shape} :
    r.Keyed ↔ r.Shallow ∧ ∀ e ∈ r.entries, ∃ d, e.2.reduce = .ok d ∧ Json.Writable d := by
  constructor
  · intro h
    refine ⟨fun key hkey => (h key hkey).1, fun e he => ?_⟩
    obtain ⟨key, hkey, -, rfl⟩ := mem_entries.mp he
    exact exists_writable_iff.mpr (h key hkey).2
  · rintro ⟨hshallow, h⟩ key hkey
    refine ⟨hshallow key hkey, exists_writable_iff.mp ?_⟩
    by_cases hnull : (r.field key).isNull = true
    · rw [isNull_iff.mp hnull]
      exact ⟨.null, rfl, .null⟩
    · exact h _ (mem_entries.mpr ⟨key, hkey, Bool.not_eq_true _ ▸ hnull, rfl⟩)

end Record

theorem exists_fingerprint_iff {a : Subject} : (∃ s, fingerprint a = .ok s) ↔ a.Keyed := by
  rw [Record.keyed_iff, ← Record.exists_writable_map_iff a.named_entries, fingerprint]
  cases hdump : a.dump with
  | error failure =>
    simp only [reduceCtorEq, exists_false, false_iff]
    rintro ⟨hshallow, d, hd, -⟩
    cases hdump.symm.trans (Record.dump_eq_ok_iff.mpr ⟨hshallow, hd⟩)
  | ok d =>
    obtain ⟨hshallow, hd⟩ := Record.dump_eq_ok_iff.mp hdump
    rw [Json.exists_write_sortNames_iff]
    constructor
    · exact fun hwritable => ⟨hshallow, d, hd, hwritable⟩
    · rintro ⟨-, d', hd', hwritable⟩
      cases hd.symm.trans hd'
      exact hwritable

/-- A subject has a cache key exactly when all its fields can be dumped and written. -/
theorem exists_cacheKey_iff {a : Subject} : (∃ key, cacheKey a = .ok key) ↔ a.Keyed := by
  rw [cacheKey, cacheKeyWith, exists_map_eq_ok_iff, exists_fingerprint_iff]

/-- Whatever keeps a subject from having a key has a text. -/
theorem hasText_of_cacheKey {a : Subject} {f : Failure} (h : cacheKey a = .error f) : f.HasText := by
  have hfingerprint : fingerprint a = .error f := map_eq_error_iff.mp h
  rw [fingerprint] at hfingerprint
  cases hdump : a.dump with
  | ok d =>
    rw [hdump] at hfingerprint
    exact Json.hasText_of_write hfingerprint
  | error failure =>
    rw [hdump] at hfingerprint
    cases hfingerprint
    exact hasText_of_dumpFields (map_eq_error_iff.mp hdump)

end Rollout
