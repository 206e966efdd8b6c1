/-
What an alias table says of a spelling.

Registering a name is a loop that writes all of its spellings, so of several names with a spelling
the one that was registered last would win.  But no two names share a spelling, since their letters
differ, and so the order has no say.  The targeting key is registered as well, and stands for the
user; aliases that a caller adds are written over all that.

* `AliasTable.lookup_register` — one name more;
* `AliasTable.eq_of_spelled` — a spelling is one of a single key;
* `AliasTable.lookup_generate_eq_some_iff` — the table for a list of keys;
* `AliasTable.lookup_extend` — the table with added aliases;
* `AliasTable.Resolution`, `AliasTable.build_resolves` — what a spelling stands for.
-/
import Rollout.AliasTable
import Rollout.Proofs.Assoc
import Rollout.Proofs.Spelling

namespace Rollout.AliasTable

variable {table : AliasTable} {key : CanonicalKey} {spelling : String}

theorem lookup_foldl_insert (names : List String) :
    lookup (names.foldl (fun table name => Assoc.insert name key table) table) spelling
      = if spelling ∈ names then some key else table.lookup spelling := by
  induction names using List.reverseRecOn with
  | nil => simp
  | append_singleton names name ih =>
    rw [List.foldl_append, List.foldl_cons, List.foldl_nil, lookup, Assoc.find?_insert, ← lookup,
      ih]
    by_cases hname : name = spelling
    · simp [hname]
    · simp [hname, Ne.symm hname]

/-- The spellings of a name that is registered stand for its key, and all others for what they
stood for. -/
theorem lookup_register (name : String) : (table.register key name).lookup spelling
    = if spelling ∈ spellings name then some key else table.lookup spelling :=
  lookup_foldl_insert (spellings name)

theorem lookup_foldl_register (keys : List CanonicalKey) :
    lookup (keys.foldl (fun table key => register key key.wireName table) []) spelling
      = keys.reverse.find? fun key => decide (spelling ∈ spellings key.wireName) := by
  induction keys using List.reverseRecOn with
  | nil => rfl
  | append_singleton keys key ih =>
    rw [List.foldl_append, List.foldl_cons, List.foldl_nil, lookup_register, ih,
      List.reverse_append, List.reverse_singleton, List.singleton_append, List.find?_cons]
    by_cases hspelling : spelling ∈ spellings key.wireName
    · simp [hspelling]
    · simp [hspelling]

/-- A spelling of the targeting key stands for the user, any other for the last key that it is a
spelling of. -/
theorem lookup_generate (keys : List CanonicalKey) : (generate keys).lookup spelling
    = if spelling ∈ spellings targetingKey then some .userId
      else keys.reverse.find? fun key => decide (spelling ∈ spellings key.wireName) := by
  rw [generate, lookup_register, lookup_foldl_register]

/-! ### Spellings of keys -/

theorem allAscii_wireName : ∀ key ∈ CanonicalKey.all, AllAscii key.wireName.toList := by
  decide +kernel

/-- The names of the keys and of the targeting key are different words. -/
theorem letters_nodup : ((targetingKey :: CanonicalKey.all.map CanonicalKey.wireName).map
    fun name => letters name.toList).Nodup := by
  decide +kernel

theorem letters_of_spelled (h : spelling ∈ spellings key.wireName) :
    letters spelling.toList = letters key.wireName.toList :=
  letters_of_mem_spellings (allAscii_wireName key key.mem_all) h

/-- A spelling is one of a single key. -/
theorem eq_of_spelled {other : CanonicalKey} (h : spelling ∈ spellings key.wireName)
    (hother : spelling ∈ spellings other.wireName) : key = other := by
  have hnodup : (CanonicalKey.all.map fun key => letters key.wireName.toList).Nodup := by
    have htail := (List.nodup_cons.mp letters_nodup).2
    rwa [List.map_map] at htail
  refine List.inj_on_of_nodup_map hnodup key.mem_all other.mem_all ?_
  show letters key.wireName.toList = letters other.wireName.toList
  rw [← letters_of_spelled h, ← letters_of_spelled hother]

/-- No key is spelled as the targeting key is. -/
theorem not_spelled_of_targetingKey (h : spelling ∈ spellings targetingKey) :
    spelling ∉ spellings key.wireName := by
  intro hkey
  have htargeting := letters_of_mem_spellings (by decide +kernel) h
  have hfresh := (List.nodup_cons.mp letters_nodup).1
  rw [List.map_map] at hfresh
  exact hfresh (List.mem_map.mpr
    ⟨key, key.mem_all, (letters_of_spelled hkey).symm.trans htargeting⟩)

theorem wireName_mem_spellings : ∀ key ∈ CanonicalKey.all,
    key.wireName ∈ spellings key.wireName := by
  decide +kernel

/-! ### Generated tables -/

/-- In the table for a list of keys a spelling stands for the user if it is one of the targeting
key, and for the key of the list that it is a spelling of. -/
theorem lookup_generate_eq_some_iff {keys : List CanonicalKey} :
    (generate keys).lookup spelling = some key ↔
      (spelling ∈ spellings targetingKey ∧ key = .userId) ∨
        key ∈ keys ∧ spelling ∈ spellings key.wireName := by
  rw [lookup_generate]
  split
  · rename_i htargeting
    constructor
    · intro h
      exact .inl ⟨htargeting, (Option.some.inj h).symm⟩
    · rintro (⟨-, rfl⟩ | ⟨-, hspelled⟩)
      · rfl
      · exact absurd hspelled (not_spelled_of_targetingKey htargeting)
  · rename_i htargeting
    constructor
    · intro h
      have hspelled := List.find?_some h
      exact .inr ⟨List.mem_reverse.mp (List.mem_of_find?_eq_some h), of_decide_eq_true hspelled⟩
    · rintro (⟨h, -⟩ | ⟨hkey, hspelled⟩)
      · exact absurd h htargeting
      -- The loop finds some key with the spelling, and there is only this one.
      · have hfound : (keys.reverse.find? fun key =>
            decide (spelling ∈ spellings key.wireName)).isSome = true :=
          List.find?_isSome.mpr ⟨key, List.mem_reverse.mpr hkey, decide_eq_true hspelled⟩
        obtain ⟨other, hother⟩ := Option.isSome_iff_exists.mp hfound
        have hspelled' := List.find?_some hother
        rw [hother, eq_of_spelled hspelled (of_decide_eq_true hspelled')]

/-- In the standard table the name of every key stands for the key. -/
theorem lookup_standard_wireName (key : CanonicalKey) :
    standard.lookup key.wireName = some key :=
  lookup_generate_eq_some_iff.mpr
    (.inr ⟨key.mem_all, wireName_mem_spellings key key.mem_all⟩)

/-- The spellings of the user, and those of the targeting key, stand for the user. -/
theorem lookup_standard_userId : standard.lookup spelling = some .userId ↔
    spelling ∈ spellings CanonicalKey.userId.wireName ∨ spelling ∈ spellings targetingKey := by
  rw [standard, lookup_generate_eq_some_iff]
  simp [CanonicalKey.mem_all, or_comm]

/-! ### Added aliases -/

theorem ofWireName?_eq_some_iff {name : String} :
    CanonicalKey.ofWireName? name = some key ↔ name = key.wireName := by
  rw [CanonicalKey.ofWireName?]
  constructor
  · intro h
    have hname := List.find?_some h
    exact (beq_iff_eq.mp hname).symm
  · rintro rfl
    have hfound : (CanonicalKey.all.find? (·.wireName == key.wireName)).isSome = true :=
      List.find?_isSome.mpr ⟨key, key.mem_all, beq_self_eq_true _⟩
    obtain ⟨other, hother⟩ := Option.isSome_iff_exists.mp hfound
    have hname := List.find?_some hother
    have hspelled := wireName_mem_spellings other other.mem_all
    rw [hother, eq_of_spelled hspelled]
    rw [beq_iff_eq.mp hname]
    exact wireName_mem_spellings key key.mem_all

theorem target_eq_ok_iff {name : Value} : target name = .ok key ↔ name = .text key.wireName := by
  cases name with
  | text s =>
    rw [Value.text.injEq, ← ofWireName?_eq_some_iff, target]
    cases CanonicalKey.ofWireName? s <;> simp
  | _ => simp [target]

/-- A target that names no key is reported as such. -/
theorem target_error {name : Value} {f : Failure} (h : target name = .error f) :
    ∃ message, f = .reportCause .invalidConfig message (.notMember name "CanonicalKey") := by
  simp only [target] at h
  split at h
  · cases h
  · cases h
    exact ⟨_, rfl⟩

theorem extend_cons_eq_ok {name : Value} {extra : Assoc String Value} {extended : AliasTable}
    (h : extend table ((spelling, name) :: extra) = .ok extended) :
    ∃ key, target name = .ok key ∧ extend (Assoc.insert spelling key table) extra = .ok extended := by
  rw [extend] at h
  split at h
  · rename_i key hkey
    exact ⟨key, hkey, h⟩
  · cases h

/-- All added aliases are written, unless the target of one names no key. -/
theorem exists_extend_iff {extra : Assoc String Value} :
    (∃ extended, extend table extra = .ok extended) ↔
      ∀ e ∈ extra, ∃ key : CanonicalKey, e.2 = .text key.wireName := by
  induction extra generalizing table with
  | nil => simp [extend]
  | cons e extra ih =>
    rw [List.forall_mem_cons]
    constructor
    · rintro ⟨extended, h⟩
      obtain ⟨key, hkey, hrest⟩ := extend_cons_eq_ok h
      exact ⟨⟨key, target_eq_ok_iff.mp hkey⟩, ih.mp ⟨extended, hrest⟩⟩
    · rintro ⟨⟨key, hkey⟩, hrest⟩
      obtain ⟨extended, h⟩ := ih.mpr hrest
      refine ⟨extended, ?_⟩
      rw [extend, target_eq_ok_iff.mpr hkey]
      exact h

/-- The first target that names no key is reported. -/
theorem extend_error {extra : Assoc String Value} {f : Failure} (h : extend table extra = .error f) :
    ∃ e ∈ extra, (∀ key : CanonicalKey, e.2 ≠ .text key.wireName) ∧
      ∃ message, f = .reportCause .invalidConfig message (.notMember e.2 "CanonicalKey") := by
  induction extra generalizing table with
  | nil => cases h
  | cons e extra ih =>
    rw [extend] at h
    split at h
    · obtain ⟨x, hx, hbad⟩ := ih h
      exact ⟨x, List.mem_cons_of_mem _ hx, hbad⟩
    · rename_i failure htarget
      cases h
      refine ⟨e, List.mem_cons_self, fun key hkey => ?_, target_error htarget⟩
      rw [target_eq_ok_iff.mpr hkey] at htarget
      cases htarget

/-- An added alias stands for the key that it names, and any other spelling for what it stood for
before. -/
theorem lookup_extend {extra : Assoc String Value} {extended : AliasTable}
    (hextra : Assoc.Distinct extra) (h : extend table extra = .ok extended) :
    extended.lookup spelling = some key ↔
      Assoc.find? spelling extra = some (.text key.wireName) ∨
        Assoc.find? spelling extra = none ∧ table.lookup spelling = some key := by
  induction extra generalizing table with
  | nil =>
    cases h
    simp
  | cons e extra ih =>
    obtain ⟨added, name⟩ := e
    obtain ⟨hfresh, hextra⟩ := Assoc.distinct_cons.mp hextra
    obtain ⟨target, htarget, hrest⟩ := extend_cons_eq_ok h
    rw [ih hextra hrest, lookup, Assoc.find?_insert, ← lookup, Assoc.find?]
    by_cases hspelling : (added == spelling) = true
    · -- A mapping has one entry for an alias, so nothing is written over this one.
      have hnone : Assoc.find? spelling extra = none :=
        Assoc.find?_eq_none_of_forall_ne fun e he => by
          rw [BEq.comm, ← beq_iff_eq.mp hspelling]
          exact hfresh e he
      simp only [hnone, hspelling, if_true, reduceCtorEq, false_or, true_and, Option.some.injEq,
        or_false, false_and]
      rw [← target_eq_ok_iff, htarget, Except.ok.injEq]
    · rw [if_neg hspelling, if_neg hspelling]

/-! ### Tables with added aliases -/

/-- What a spelling stands for: the key that an added alias names, or else the user if it is a
spelling of the targeting key, or else the key of the list that it is a spelling of. -/
inductive Resolution (extra : Assoc String Value) (keys : List CanonicalKey) (spelling : String) :
    CanonicalKey → Prop
  | added (key : CanonicalKey) (h : Assoc.find? spelling extra = some (.text key.wireName)) :
      Resolution extra keys spelling key
  | targeting (free : Assoc.find? spelling extra = none) (h : spelling ∈ spellings targetingKey) :
      Resolution extra keys spelling .userId
  | spelled (key : CanonicalKey) (free : Assoc.find? spelling extra = none)
      (other : spelling ∉ spellings targetingKey) (mem : key ∈ keys)
      (h : spelling ∈ spellings key.wireName) : Resolution extra keys spelling key

theorem resolution_iff {extra : Assoc String Value} {keys : List CanonicalKey} :
    Resolution extra keys spelling key ↔
      Assoc.find? spelling extra = some (.text key.wireName) ∨
        Assoc.find? spelling extra = none ∧ (generate keys).lookup spelling = some key := by
  rw [lookup_generate_eq_some_iff]
  constructor
  · intro h
    cases h with
    | added key h => exact .inl h
    | targeting free h => exact .inr ⟨free, .inl ⟨h, rfl⟩⟩
    | spelled key free other mem h => exact .inr ⟨free, .inr ⟨mem, h⟩⟩
  · rintro (h | ⟨free, ⟨h, rfl⟩ | ⟨mem, h⟩⟩)
    · exact .added key h
    · exact .targeting free h
    · exact .spelled key free (fun htargeting => not_spelled_of_targetingKey htargeting h) mem h

theorem build_eq_ok {extra : Assoc String Value} {keys : List CanonicalKey} {built : AliasTable}
    (hextra : Assoc.Distinct extra) (h : build extra keys = .ok built) :
    built.lookup spelling = some key ↔ Resolution extra keys spelling key := by
  rw [resolution_iff]
  exact lookup_extend hextra h

/-- **What spellings stand for.**  A table is built unless the target of some added alias names no
key.  In it a spelling stands for what its added alias names, or else for the user or the one key of
the list that it is a spelling of.  So the order and the repetitions of the list have no say, and an
added alias has none for any other spelling. -/
theorem build_resolves (extra : Assoc String Value) (keys : List CanonicalKey)
    (hextra : Assoc.Distinct extra) :
    ((∃ message cause, build extra keys = .error (.reportCause .invalidConfig message cause)) ↔
      ∃ e ∈ extra, ∀ key : CanonicalKey, e.2 ≠ .text key.wireName) ∧
    ((∀ e ∈ extra, ∃ key : CanonicalKey, e.2 = .text key.wireName) →
      ∃ built, build extra keys = .ok built ∧
        (∀ spelling key, built.lookup spelling = some key ↔ Resolution extra keys spelling key) ∧
        (∀ others, (∀ key, key ∈ others ↔ key ∈ keys) →
          ∃ rebuilt, build extra others = .ok rebuilt ∧
            ∀ spelling, rebuilt.lookup spelling = built.lookup spelling) ∧
        ∀ (changed : Assoc String Value) (rebuilt : AliasTable), Assoc.Distinct changed →
          build changed keys = .ok rebuilt → ∀ spelling,
            Assoc.find? spelling changed = Assoc.find? spelling extra →
            rebuilt.lookup spelling = built.lookup spelling) ∧
    ∀ (spelling : String) (key other : CanonicalKey), spelling ∈ spellings key.wireName →
      spelling ∈ spellings other.wireName → key = other := by
  refine ⟨⟨?_, ?_⟩, fun htargets => ?_, fun spelling key other => eq_of_spelled⟩
  · rintro ⟨message, cause, herror⟩
    obtain ⟨e, he, hbad, -⟩ := extend_error herror
    exact ⟨e, he, hbad⟩
  · rintro ⟨e, he, hbad⟩
    cases hbuild : build extra keys with
    | error f =>
      obtain ⟨-, -, -, message, rfl⟩ := extend_error hbuild
      exact ⟨message, _, rfl⟩
    | ok built =>
      obtain ⟨key, hkey⟩ := exists_extend_iff.mp ⟨built, hbuild⟩ e he
      exact absurd hkey (hbad key)
  · obtain ⟨built, hbuilt⟩ := exists_extend_iff.mpr htargets
    refine ⟨built, hbuilt, fun spelling key => build_eq_ok hextra hbuilt, ?_, ?_⟩
    · intro others hothers
      obtain ⟨rebuilt, hrebuilt⟩ := exists_extend_iff.mpr htargets
      refine ⟨rebuilt, hrebuilt, fun spelling => Option.ext fun key => ?_⟩
      rw [build_eq_ok hextra hrebuilt, build_eq_ok hextra hbuilt, resolution_iff, resolution_iff,
        lookup_generate_eq_some_iff, lookup_generate_eq_some_iff, hothers]
    · intro changed rebuilt hchanged hrebuilt spelling hsame
      refine Option.ext fun key => ?_
      rw [build_eq_ok hchanged hrebuilt, build_eq_ok hextra hbuilt, resolution_iff, resolution_iff,
        hsame]

/-- An added alias takes a spelling of one key for another key.  The key keeps its other spellings,
in whatever order the keys are listed. -/
theorem build_resolves_overridden :
    let extra : Assoc String Value := [("uid", .text "user_id"), ("os", .text "platform")]
    let keys : List CanonicalKey := [.os, .userId, .os, .osName]
    let others : List CanonicalKey := [.osName, .os, .userId]
    ∃ built rebuilt plain, build extra keys = .ok built ∧ build extra others = .ok rebuilt ∧
      build [] keys = .ok plain ∧ built.lookup "os" = some .platform ∧
      built.lookup "OS" = some .os ∧ rebuilt.lookup "OS" = some .os ∧
      plain.lookup "OS" = some .os ∧ built.lookup "targetingKey" = some .userId := by
  intro extra keys others
  have hextra : Assoc.Distinct extra := by decide
  have htargets : ∀ e ∈ extra, ∃ key : CanonicalKey, e.2 = .text key.wireName := by
    intro e he
    rcases List.mem_pair.mp he with rfl | rfl
    · exact ⟨.userId, rfl⟩
    · exact ⟨.platform, rfl⟩
  have hothers : ∀ key, key ∈ others ↔ key ∈ keys := by
    intro key
    simp only [others, keys, List.mem_cons, List.not_mem_nil, or_false]
    tauto
  obtain ⟨-, hbuilds, -⟩ := build_resolves extra keys hextra
  obtain ⟨built, hbuilt, hresolves, hsame, hlocal⟩ := hbuilds htargets
  obtain ⟨rebuilt, hrebuilt, hsame⟩ := hsame others hothers
  obtain ⟨plain, hplain⟩ : ∃ plain, build [] keys = .ok plain := ⟨_, rfl⟩
  have hos : built.lookup "OS" = some .os :=
    (hresolves "OS" .os).mpr (.spelled .os rfl (by decide +kernel) (by decide) (by decide +kernel))
  refine ⟨built, rebuilt, plain, hbuilt, hrebuilt, hplain, ?_, hos, ?_, ?_, ?_⟩
  · exact (hresolves "os" .platform).mpr (.added .platform rfl)
  · rw [hsame, hos]
  · rw [hlocal [] plain List.Pairwise.nil hplain "OS" rfl, hos]
  · exact (hresolves "targetingKey" .userId).mpr (.targeting rfl (by decide +kernel))

end Rollout.AliasTable
