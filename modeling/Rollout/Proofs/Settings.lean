/-
What accepted settings promise.

Settings are accepted only if every field of theirs fits its type; a lifetime or a size that is
accepted is therefore positive, whether it was given or not.

* `RemoteOptions.positive` — the limits of the cache in accepted options;
* `Settings.caching_positive` — the same for the settings of a provider that caches.
-/
import Rollout.Proofs.FieldType
import Rollout.Provider.Basic

namespace Rollout

theorem positive_of_convert {v : Value} {n : Int}
    (h : FieldType.positiveInteger.convert v = .ok (.int n)) : 0 < n := by
  rw [FieldType.convert] at h
  obtain ⟨m, hm, hn⟩ := Option.map_eq_some_iff.mp (fitHere_eq_ok_iff.mp h)
  cases hn
  exact of_decide_eq_true (Option.filter_eq_some_iff.mp hm).2

/-- Every option is the default of its field, or what is given for it and fits its type. -/
theorem readOptions_eq_ok {fields : List OptionField} {v : Value} {values : List Value}
    (h : readOptions fields v = .ok values) :
    ∀ x ∈ fields.zip values, x.2 = x.1.default ∨ ∃ entries given, v = .map entries ∧
      Assoc.find? (.text x.1.name) entries = some given ∧ x.1.type.convert given = .ok x.2 := by
  cases v with
  | map entries =>
    intro x hx
    have hread := List.forall₂_zip (gather_map_eq_ok_iff.mp h) hx
    split at hread
    · rename_i given hgiven
      exact .inr ⟨entries, given, rfl, hgiven, below_eq_ok_iff.mp hread⟩
    · exact .inl (Except.ok.inj hread).symm
  | _ => cases h

/-- A whole number of a record of options is positive if its field and its default are. -/
theorem positive_of_readOptions {fields : List OptionField} {v : Value} {values : List Value}
    (h : readOptions fields v = .ok values) {n : Int} (name : String) (k : Int) (hk : 0 < k)
    (hmem : (⟨name, .positiveInteger, .int k⟩, .int n) ∈ fields.zip values) : 0 < n := by
  rcases readOptions_eq_ok h _ hmem with hdefault | ⟨-, given, -, -, hgiven⟩
  · cases hdefault
    exact hk
  · exact positive_of_convert hgiven

/-- The limits of the cache are positive in all options that are accepted. -/
theorem RemoteOptions.positive {v : Value} {o : RemoteOptions}
    (h : RemoteOptions.ofValue v = .ok o) :
    0 < o.cacheTtl ∧ 0 < o.cacheMaxSize := by
  unfold RemoteOptions.ofValue at h
  split at h
  · rename_i timeout enabled ttl size hread
    cases h
    constructor
    · exact positive_of_readOptions hread "cache_ttl_seconds" 60 (by decide)
        (by simp [RemoteOptions.fields])
    · exact positive_of_readOptions hread "cache_max_size" 10000 (by decide)
        (by simp [RemoteOptions.fields])
  · cases h
  · cases h

theorem readRecord_eq_ok {α : Type} {entries : Attributes} {name : String}
    {ofValue : Value → Except (List Path) α} {a : α}
    (h : Settings.readRecord entries name ofValue = .ok (some a)) :
    ofValue ((Assoc.find? (.text name) entries).getD .null) = .ok a := by
  unfold Settings.readRecord at h
  split at h
  · cases h
  · obtain ⟨b, hb, hsome⟩ := map_eq_ok_iff.mp h
    cases hsome
    exact below_eq_ok_iff.mp hb

/-- The options of the service in settings that were accepted. -/
theorem Settings.remoteOptions_of_ofMap {entries : Attributes} {s : Settings} {o : RemoteOptions}
    (haccepted : Settings.ofMap entries = .ok s) (hremote : s.remote = some o) :
    RemoteOptions.ofValue ((Assoc.find? (.text "remote") entries).getD .null) = .ok o := by
  unfold Settings.ofMap at haccepted
  dsimp only at haccepted
  split at haccepted
  · cases haccepted
  · rename_i hread _ _ _
    cases haccepted
    cases hremote
    exact readRecord_eq_ok hread
  · cases haccepted

/-- A provider that caches for settings that were accepted has a lifetime and room for its
entries. -/
theorem Settings.caching_positive {entries : Attributes} {s : Settings} {o : RemoteOptions}
    (haccepted : Settings.ofMap entries = .ok s) (hcaching : s.caching = some o) :
    0 < o.cacheTtl ∧ 0 < o.cacheMaxSize := by
  have hremote : s.remote = some o := (Option.filter_eq_some_iff.mp hcaching).1
  exact RemoteOptions.positive (remoteOptions_of_ofMap haccepted hremote)

end Rollout
