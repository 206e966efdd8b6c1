/-
Fingerprints identify subjects.

Two subjects are alike when every field of theirs is, up to the order of the entries of maps.  The
fingerprint of a subject whose fields are plain is one text for all subjects that are alike, and
another text for the others; the cache key is as good as the digest that it is made of.  A field with
too many levels leaves its subject without a fingerprint.

* `Record.Alike` — equality of records up to the order of entries;
* `Record.Shallow` — records whose fields have few enough levels;
* `fingerprint_eq_iff` — subjects have the same fingerprint exactly when they are alike;
* `cacheKey_eq_iff` — cache keys are the same exactly when the digests of the fingerprints are;
* `fingerprint_identifies` — both facts for subjects that were read, with the digest in between.
-/
import Rollout.Fingerprint
import Rollout.Proofs.Dump
import Rollout.Proofs.Json.RoundTrip
import Rollout.Proofs.Record

namespace Rollout

open Rollout.Text

/-! ### Digests as texts -/

namespace Sha256

/-- Two messages that share a digest. -/
def Collide (message other : List UInt8) : Prop :=
  message ≠ other ∧ digest message = digest other

theorem length_digest (message : List UInt8) : (digest message).length = 32 := by
  simp [digest, State.octets, octets]

theorem hexText_octet (b : UInt8) :
    hexText 2 b.toNat = [(b.toNat / 16).digitChar, (b.toNat % 16).digitChar] := by
  have hb : b.toNat < 256 := b.toNat_lt
  rw [hexText_succ, hexText_one (by omega)]
  rfl

theorem hexText_octet_injective {a b : UInt8} (h : hexText 2 a.toNat = hexText 2 b.toNat) :
    a = b := by
  have ha : a.toNat < 256 := a.toNat_lt
  have hb : b.toNat < 256 := b.toNat_lt
  rw [hexText_octet, hexText_octet, List.cons.injEq, List.cons.injEq] at h
  have hhigh := congrArg Json.hexDigit? h.1
  have hlow := congrArg Json.hexDigit? h.2.1
  rw [Json.hexDigit?_digitChar _ (by omega), Json.hexDigit?_digitChar _ (by omega),
    Option.some.injEq] at hhigh hlow
  apply UInt8.toNat_inj.mp
  omega

theorem length_flatMap_hexText (octets : List UInt8) :
    (octets.flatMap fun b => hexText 2 b.toNat).length = 2 * octets.length := by
  induction octets with
  | nil => rfl
  | cons b octets ih =>
    rw [List.flatMap_cons, List.length_append, ih, hexText_octet, List.length_cons]
    simp only [List.length_cons, List.length_nil]
    omega

theorem flatMap_hexText_injective {as bs : List UInt8} (hlen : as.length = bs.length)
    (h : (as.flatMap fun b => hexText 2 b.toNat) = bs.flatMap fun b => hexText 2 b.toNat) :
    as = bs := by
  induction as generalizing bs with
  | nil => exact (List.length_eq_zero_iff.mp hlen.symm).symm
  | cons a as ih =>
    cases bs with
    | nil => cases hlen
    | cons b bs =>
      rw [List.flatMap_cons, List.flatMap_cons] at h
      obtain ⟨hhead, htail⟩ := List.append_inj h (by rw [hexText_octet, hexText_octet]; rfl)
      rw [hexText_octet_injective hhead, ih (Nat.succ.inj hlen) htail]

/-- A digest is known by its hexadecimal text. -/
theorem hexDigest_eq_iff (message other : List UInt8) :
    hexDigest message = hexDigest other ↔ digest message = digest other := by
  constructor
  · intro h
    exact flatMap_hexText_injective (by rw [length_digest, length_digest]) h
  · intro h
    rw [hexDigest, hexDigest, h]

theorem length_hexDigest (message : List UInt8) : (hexDigest message).length = 64 := by
  rw [hexDigest, length_flatMap_hexText, length_digest]

end Sha256

/-! ### Records as maps -/

namespace Record

variable {shape : Shape}

/-- A record whose fields are plain. -/
def Plain (r : Record shape) : Prop := ∀ key ∈ shape.keys, (r.field key).Plain

/-- Equality of the fields of records up to the order of the entries of maps. -/
def Alike (a b : Record shape) : Prop := ∀ key ∈ shape.keys, (a.field key).Alike (b.field key)

/-- The fields that are set, under their names. -/
def entries (r : Record shape) : Attributes := r.model.map fun m => (.text m.1, m.2)

theorem isNull_iff {v : Value} : v.isNull = true ↔ v = .null := by
  cases v <;> simp [Value.isNull]

theorem mem_entries {r : Record shape} {e : Value × Value} :
    e ∈ r.entries ↔ ∃ key ∈ shape.keys, (r.field key).isNull = false ∧
      e = (.text key.wireName, r.field key) := by
  simp only [entries, model, List.map_map, List.mem_map, List.mem_filter, Function.comp,
    Bool.not_eq_true']
  constructor
  · rintro ⟨key, ⟨hkey, hnull⟩, rfl⟩
    exact ⟨key, hkey, hnull, rfl⟩
  · rintro ⟨key, hkey, hnull, rfl⟩
    exact ⟨key, ⟨hkey, hnull⟩, rfl⟩

theorem keys_entries (r : Record shape) : r.entries.map Prod.fst
    = (shape.keys.filter fun key => !(r.field key).isNull).map fun key => .text key.wireName := by
  simp only [entries, model, List.map_map]
  rfl

theorem wireNames_nodup (shape : Shape) :
    (shape.keys.map fun key => Value.text key.wireName).Nodup := by
  have h : (shape.keys.map CanonicalKey.wireName).Nodup := by cases shape <;> decide
  have h' := h.map (f := Value.text) fun s t hst => Value.text.inj hst
  rwa [List.map_map] at h'

theorem named_entries (r : Record shape) : Named r.entries := by
  constructor
  · intro e he
    obtain ⟨key, -, -, rfl⟩ := mem_entries.mp he
    exact ⟨key.wireName, rfl⟩
  · rw [keys_entries]
    exact (wireNames_nodup shape).sublist (List.filter_sublist.map _)

theorem wireName_inj {key other : CanonicalKey} (hkey : key ∈ shape.keys)
    (hother : other ∈ shape.keys) (h : key.wireName = other.wireName) : key = other :=
  List.inj_on_of_nodup_map (wireNames_nodup shape) hkey hother (congrArg Value.text h)

theorem mem_entries_of_key {r : Record shape} {key : CanonicalKey} (hkey : key ∈ shape.keys)
    {v : Value} : (Value.text key.wireName, v) ∈ r.entries
      ↔ (r.field key).isNull = false ∧ v = r.field key := by
  rw [mem_entries]
  constructor
  · rintro ⟨other, hother, hnull, heq⟩
    rw [Prod.mk.injEq, Value.text.injEq] at heq
    obtain rfl := wireName_inj hkey hother heq.1
    exact ⟨hnull, heq.2⟩
  · rintro ⟨hnull, rfl⟩
    exact ⟨key, hkey, hnull, rfl⟩

theorem Plain.entries {r : Record shape} (h : r.Plain) : (Value.map r.entries).Plain := by
  refine .map _ r.named_entries fun e he => ?_
  obtain ⟨key, hkey, -, rfl⟩ := mem_entries.mp he
  exact h key hkey

/-- A record whose fields have few enough levels. -/
def Shallow (r : Record shape) : Prop :=
  ∀ key ∈ shape.keys, (shape.fieldType key).levels (r.field key) ≤ Value.maxLevels

instance (r : Record shape) : Decidable r.Shallow :=
  inferInstanceAs (Decidable (∀ key ∈ shape.keys, _ ≤ Value.maxLevels))

/-- The fields that are set, with their names and types. -/
def givenFields (r : Record shape) : List (String × FieldType × Value) :=
  (shape.keys.filter fun key => !(r.field key).isNull).map
    fun key => (key.wireName, shape.fieldType key, r.field key)

theorem namedEntries_givenFields (r : Record shape) : namedEntries r.givenFields = r.entries := by
  simp only [namedEntries, givenFields, entries, model, List.map_map]
  rfl

theorem named_givenFields (r : Record shape) : Named (namedEntries r.givenFields) := by
  rw [namedEntries_givenFields]
  exact r.named_entries

theorem levels_null (type : FieldType) : type.levels .null = 1 := by
  cases type <;> rfl

/-- Fields that are not set have few enough levels anyway. -/
theorem shallow_iff {r : Record shape} : r.Shallow ↔
    ∀ field ∈ r.givenFields, field.2.1.levels field.2.2 ≤ Value.maxLevels := by
  rw [givenFields, List.forall_mem_map]
  constructor
  · exact fun h key hkey => h key (List.mem_of_mem_filter hkey)
  · intro h key hkey
    by_cases hnull : (r.field key).isNull = true
    · rw [isNull_iff.mp hnull, levels_null]
      decide
    · exact h key (List.mem_filter.mpr ⟨hkey, by simp [hnull]⟩)

/-- A record is dumped as its map is reduced, if its fields have few enough levels. -/
theorem dump_eq_ok_iff {r : Record shape} {d : Value} :
    r.dump = .ok d ↔ r.Shallow ∧ (Value.map r.entries).reduce = .ok d := by
  rw [shallow_iff, ← namedEntries_givenFields]
  exact r.named_givenFields.map_dumpFields

/-- A record that could be reduced is too deep, or is dumped. -/
theorem dump_eq_tooDeep {r : Record shape} {d : Value}
    (hreduce : (Value.map r.entries).reduce = .ok d) (hdeep : ¬ r.Shallow) :
    r.dump = .error .tooDeep := by
  cases hdump : r.dump with
  | ok d => exact absurd (dump_eq_ok_iff.mp hdump).1 hdeep
  | error f =>
    rw [← namedEntries_givenFields] at hreduce
    rw [r.named_givenFields.eq_tooDeep_of_dumpFields hreduce hdump]

theorem Plain.reduce {r : Record shape} (h : r.Plain) :
    (Value.map r.entries).reduce = .ok (.map r.entries) :=
  h.entries.reduce

theorem Plain.dump {r : Record shape} (h : r.Plain) (hshallow : r.Shallow) :
    r.dump = .ok (.map r.entries) :=
  dump_eq_ok_iff.mpr ⟨hshallow, h.reduce⟩

/-- Records are alike exactly when their maps are. -/
theorem alike_entries_iff {a b : Record shape} :
    (Value.map a.entries).Alike (.map b.entries) ↔ a.Alike b := by
  rw [Value.alike_map_iff a.named_entries]
  constructor
  · rintro ⟨hkeys, h⟩ key hkey
    -- A field is set in both records or in none.
    have hset : (a.field key).isNull = false ↔ (b.field key).isNull = false := by
      have hmem : ∀ r : Record shape, Value.text key.wireName ∈ r.entries.map Prod.fst
          ↔ (r.field key).isNull = false := by
        intro r
        rw [List.mem_map]
        constructor
        · rintro ⟨⟨k, v⟩, hv, rfl⟩
          exact ((mem_entries_of_key hkey).mp hv).1
        · intro hnull
          exact ⟨_, (mem_entries_of_key hkey).mpr ⟨hnull, rfl⟩, rfl⟩
      rw [← hmem a, ← hmem b]
      exact hkeys.mem_iff
    by_cases ha : (a.field key).isNull = false
    · exact h _ _ _ ((mem_entries_of_key hkey).mpr ⟨ha, rfl⟩)
        ((mem_entries_of_key hkey).mpr ⟨hset.mp ha, rfl⟩)
    · have hb := mt hset.mpr ha
      rw [Bool.not_eq_false, isNull_iff] at ha hb
      rw [ha, hb]
      exact .refl _
  · intro h
    constructor
    -- Alike fields are null together, so both maps hold the same keys, in the order of the shape.
    · have hfilter : (shape.keys.filter fun key => !(a.field key).isNull)
          = shape.keys.filter fun key => !(b.field key).isNull :=
        List.filter_congr fun key hkey => by rw [(h key hkey).isNull_eq]
      rw [keys_entries, keys_entries, hfilter]
    · intro k v w hv hw
      obtain ⟨key, hkey, -, heq⟩ := mem_entries.mp hv
      rw [Prod.mk.injEq] at heq
      obtain ⟨rfl, rfl⟩ := heq
      rw [((mem_entries_of_key hkey).mp hw).2]
      exact h key hkey

end Record

/-! ### Subjects read from maps -/

namespace Record

theorem plain_of_convert_text {v w : Value} (h : FieldType.text.convert v = .ok w) : w.Plain := by
  rw [FieldType.convert] at h
  obtain ⟨s, rfl⟩ := exists_text_of_convertText (fitHere_eq_ok_iff.mp h)
  exact .text s

theorem plain_of_convert_listOf_text {v w : Value} (h : (FieldType.listOf .text).convert v = .ok w) :
    w.Plain := by
  obtain ⟨items, results, -, hall, rfl⟩ := FieldType.convert_listOf_iff.mp h
  refine .list _ fun w hw => ?_
  obtain ⟨v, -, hv⟩ := exists_of_mem_right hall hw
  exact plain_of_convert_text hv

/-- The fields of a subject that hold no map hold a text or a list of texts. -/
theorem fieldType_of_not_holdsMap : ∀ key ∈ Shape.subject.keys, key.holdsMap = false →
    Shape.subject.fieldType key = .text ∨ Shape.subject.fieldType key = .listOf .text := by
  decide

theorem default_of_not_holdsMap : ∀ key ∈ Shape.subject.keys, key.holdsMap = false →
    Shape.subject.overflowKey ≠ key ∧ key ≠ .eventType := by
  decide

theorem plain_of_readField {entries : Attributes} {key : CanonicalKey}
    (hkey : key ∈ Shape.subject.keys) (hmap : key.holdsMap = false) {v : Value}
    (h : readField .subject entries key = .ok v) : v.Plain := by
  unfold readField at h
  split at h
  · have hfit := below_eq_ok_iff.mp h
    unfold fit at hfit
    split at hfit
    · cases hfit
      exact .null
    · rcases fieldType_of_not_holdsMap key hkey hmap with htype | htype
      · rw [htype] at hfit
        exact plain_of_convert_text hfit
      · rw [htype] at hfit
        exact plain_of_convert_listOf_text hfit
  -- A field that is missing gets its default, which is null for all fields without a map.
  · obtain ⟨hoverflow, hevent⟩ := default_of_not_holdsMap key hkey hmap
    rw [Shape.default?, if_neg (Ne.symm hoverflow), if_neg hevent] at h
    cases h
    exact .null

/-- A record whose maps are plain. -/
def PlainMaps (r : Record shape) : Prop :=
  ∀ key ∈ shape.keys, key.holdsMap = true → (r.field key).Plain

/-- A subject that was read from a map is plain as soon as its maps are. -/
theorem PlainMaps.plain {entries : Attributes} {a : Subject} (h : a.PlainMaps)
    (hread : ofMap .subject entries = .ok a) : a.Plain := by
  intro key hkey
  by_cases hmap : key.holdsMap = true
  · exact h key hkey hmap
  · exact plain_of_readField hkey (Bool.not_eq_true _ ▸ hmap)
      ((ofMap_eq_ok_iff.mp hread).2.1 key hkey)

end Record

/-! ### Fingerprints -/

section Plain

variable {a b : Subject} (ha : a.Plain)
include ha

theorem fingerprint_of_plain (hshallow : a.Shallow) :
    fingerprint a = Json.write .compact (Json.sortNames (.map a.entries)) := by
  rw [fingerprint, ha.dump hshallow]

/-- A subject with plain fields has a fingerprint, if the fields have few enough levels. -/
theorem exists_fingerprint (hshallow : a.Shallow) : ∃ s, fingerprint a = .ok s := by
  obtain ⟨s, hs, -⟩ := Json.exists_write_read Json.readable_compact ha.entries.sortNames
  exact ⟨s, by rw [fingerprint_of_plain ha hshallow, hs]⟩

theorem fingerprint_of_deep (hdeep : ¬ a.Shallow) : fingerprint a = .error .tooDeep := by
  rw [fingerprint, Record.dump_eq_tooDeep ha.reduce hdeep]

theorem cacheKey_of_deep (hdeep : ¬ a.Shallow) : cacheKey a = .error .tooDeep := by
  rw [cacheKey, cacheKeyWith, fingerprint_of_deep ha hdeep]
  rfl

theorem exists_cacheKey (hshallow : a.Shallow) : ∃ key, cacheKey a = .ok key := by
  obtain ⟨s, hs⟩ := exists_fingerprint ha hshallow
  exact ⟨_, by rw [cacheKey, cacheKeyWith, hs]; rfl⟩

/-- Subjects have the same fingerprint exactly when they are alike. -/
theorem fingerprint_eq_iff (hshallow : a.Shallow) (hb : b.Plain) (hshallow' : b.Shallow) :
    fingerprint a = fingerprint b ↔ a.Alike b := by
  rw [fingerprint_of_plain ha hshallow, fingerprint_of_plain hb hshallow',
    ← Record.alike_entries_iff, Value.alike_iff_sortNames_eq ha.entries hb.entries]
  constructor
  · exact Json.write_injective Json.readable_compact ha.entries.sortNames hb.entries.sortNames
  · intro h
    rw [h]

end Plain

/-- Only a subject with few enough levels has a fingerprint. -/
theorem shallow_of_fingerprint {a : Subject} {s : String} (h : fingerprint a = .ok s) :
    a.Shallow := by
  rw [fingerprint] at h
  split at h
  · rename_i hdump
    exact (Record.dump_eq_ok_iff.mp hdump).1
  · cases h

theorem encodeUtf8_injective {as bs : List Char} (h : encodeUtf8 as = encodeUtf8 bs) : as = bs := by
  have hbytes : as.utf8Encode = bs.utf8Encode := congrArg List.toByteArray h
  rw [← String.toByteArray_ofList, ← String.toByteArray_ofList] at hbytes
  exact String.ofList_inj.mp (String.toByteArray_inj.mp hbytes)

theorem contentHash_text (s : String) :
    contentHash 64 [.text s] = .ofList (Sha256.hexDigest (encodeUtf8 s.toList)) := by
  have hcontent : joinedContent [.text s] = s := rfl
  have hcount : Int.toNat 64 = 64 := rfl
  rw [contentHash, hcontent, textHash, leading, if_neg (by decide), hcount,
    List.take_of_length_le (by rw [Sha256.length_hexDigest])]

/-- Cache keys are the same exactly when the digests of the fingerprints are. -/
theorem cacheKey_eq_iff {a b : Subject} {s t : String} (hs : fingerprint a = .ok s)
    (ht : fingerprint b = .ok t) : cacheKey a = cacheKey b ↔
      Sha256.digest (encodeUtf8 s.toList) = Sha256.digest (encodeUtf8 t.toList) := by
  rw [← Sha256.hexDigest_eq_iff]
  simp only [cacheKey, cacheKeyWith, hs, ht, Except.map, contentHash_text, Except.ok.injEq]
  rw [String.append_right_inj, String.ofList_inj]

/-- Subjects that share a cache key share a fingerprint, unless their fingerprints collide. -/
theorem fingerprint_eq_of_cacheKey_eq {a b : Subject} {s t : String} (hs : fingerprint a = .ok s)
    (ht : fingerprint b = .ok t)
    (hcollide : ¬ Sha256.Collide (encodeUtf8 s.toList) (encodeUtf8 t.toList))
    (h : cacheKey a = cacheKey b) : fingerprint a = fingerprint b := by
  rw [cacheKey_eq_iff hs ht] at h
  rw [hs, ht]
  -- Different fingerprints with one digest would be a collision.
  by_contra hne
  refine hcollide ⟨fun heq => hne ?_, h⟩
  rw [String.toList_inj.mp (encodeUtf8_injective heq)]

/-- Subjects that share a cache key are alike, unless their fingerprints collide. -/
theorem alike_of_cacheKey_eq {a b : Subject} (ha : a.Plain) (hb : b.Plain) {s t : String}
    (hs : fingerprint a = .ok s) (ht : fingerprint b = .ok t)
    (hcollide : ¬ Sha256.Collide (encodeUtf8 s.toList) (encodeUtf8 t.toList))
    (h : cacheKey a = cacheKey b) : a.Alike b :=
  (fingerprint_eq_iff ha (shallow_of_fingerprint hs) hb (shallow_of_fingerprint ht)).mp
    (fingerprint_eq_of_cacheKey_eq hs ht hcollide h)

/-- Subjects with fingerprints share one and a cache key exactly when they are alike, unless their
fingerprints collide. -/
theorem exists_fingerprint_iff_alike {a b : Subject} (ha : a.Plain) (hb : b.Plain)
    (hshallow : a.Shallow) (hshallow' : b.Shallow) :
    ∃ s t, fingerprint a = .ok s ∧ fingerprint b = .ok t ∧ (s = t ↔ a.Alike b) ∧
      (a.Alike b → cacheKey a = cacheKey b) ∧
      (¬ Sha256.Collide (encodeUtf8 s.toList) (encodeUtf8 t.toList) →
        cacheKey a = cacheKey b → a.Alike b) := by
  obtain ⟨s, hs⟩ := exists_fingerprint ha hshallow
  obtain ⟨t, ht⟩ := exists_fingerprint hb hshallow'
  have hiff : s = t ↔ a.Alike b := by
    rw [← fingerprint_eq_iff ha hshallow hb hshallow', hs, ht, Except.ok.injEq]
  refine ⟨s, t, hs, ht, hiff, fun h => ?_, alike_of_cacheKey_eq ha hb hs ht⟩
  rw [cacheKey_eq_iff hs ht, hiff.mpr h]

/-- A subject known by a user name and custom properties. -/
def Record.ofProperties (user : String) (properties : Attributes) : Subject :=
  ⟨fun key => if key = .userId then .text user
    else if key = .userProperties then .map properties else .null⟩

namespace Record

variable (user : String) {properties : Attributes}

theorem ofProperties_plain (h : (Value.map properties).Plain) :
    (ofProperties user properties).Plain := by
  intro key _
  simp only [ofProperties]
  split
  · exact .text user
  · split
    · exact h
    · exact .null

theorem ofProperties_alike {as bs : Attributes} (h : (Value.map as).Alike (.map bs)) :
    (ofProperties user as).Alike (ofProperties user bs) := by
  intro key _
  simp only [ofProperties]
  split
  · exact .refl _
  · split
    · exact h
    · exact .refl _

/-- Only the custom properties have levels to speak of. -/
theorem ofProperties_shallow_iff : (ofProperties user properties).Shallow ↔
    ∀ e ∈ properties, e.2.levels ≤ Value.maxLevels := by
  have hproperties : (Shape.subject.fieldType .userProperties).levels (.map properties)
      = (properties.map fun e => e.2.levels).foldr max 0 := rfl
  rw [← List.forall_mem_map (f := fun e : Value × Value => e.2.levels)
    (P := fun n => n ≤ Value.maxLevels), ← foldr_max_le_iff, ← hproperties]
  constructor
  · exact fun h => h .userProperties (by decide)
  · intro h key hkey
    simp only [ofProperties]
    split
    · rename_i huser
      rw [huser]
      exact Nat.le_of_ble_eq_true rfl
    · split
      · rename_i hkey
        rwa [hkey]
      · rw [levels_null]
        decide

theorem names_apart_of_other : ∀ key ∈ Shape.subject.keys, key ≠ .userId → key ≠ .userProperties →
    ∀ name ∈ [key.wireName, key.fieldName], name ≠ "user_id" ∧ name ≠ "user_properties" := by
  decide

/-- Such a subject is read from a map of its two fields. -/
theorem ofMap_ofProperties (h : Named properties) :
    ofMap .subject [(.text "user_id", .text user), (.text "user_properties", .map properties)]
      = .ok (ofProperties user properties) := by
  refine ofMap_eq_ok_iff.mpr ⟨unknownEntries_eq_nil fun e he => ?_, fun key hkey => ?_, ?_⟩
  · rcases List.mem_pair.mp he with rfl | rfl
    · exact ⟨.userId, by decide, rfl⟩
    · exact ⟨.userProperties, by decide, rfl⟩
  · by_cases huser : key = .userId
    · subst huser
      rfl
    by_cases hproperties : key = .userProperties
    · subst hproperties
      have hread : readField .subject [(.text "user_id", .text user),
            (.text "user_properties", .map properties)] .userProperties
          = below (.name "user_properties") ((FieldType.mapOf .anything).convert (.map properties)) :=
        rfl
      rw [hread, FieldType.convert_map_anything h]
      rfl
    · -- All other fields are missing, and null.
      have hapart := names_apart_of_other key hkey huser hproperties
      have hmissing : ∀ name ∈ [key.wireName, key.fieldName],
          Assoc.find? (Value.text name) [(Value.text "user_id", Value.text user),
            (.text "user_properties", .map properties)] = Assoc.find? (Value.text name) [] := by
        intro name hname
        obtain ⟨hid, hmap⟩ := hapart name hname
        simp [Assoc.find?, hid.symm, hmap.symm]
      have hevent : key ≠ .eventType := fun heq => by
        subst heq
        exact absurd hkey (by decide)
      rw [readField_congr (hmissing key.wireName (by simp)) (hmissing key.fieldName (by simp))]
      simp [readField, givenName?, Assoc.contains, Assoc.find?, Shape.default?, Shape.overflowKey,
        ofProperties, huser, hproperties, hevent]
  · intro key hkey
    have huser : key ≠ .userId := fun heq => hkey (heq ▸ by decide)
    have hproperties : key ≠ .userProperties := fun heq => hkey (heq ▸ by decide)
    simp [ofProperties, huser, hproperties]

theorem plain_single (s : String) {v : Value} (h : v.Plain) : (Value.map [(.text s, v)]).Plain := by
  refine .map _ ⟨?_, by simp⟩ ?_
  · exact List.forall_mem_singleton.mpr ⟨s, rfl⟩
  · exact List.forall_mem_singleton.mpr h

theorem plain_pair {s t : String} (hst : s ≠ t) {v w : Value} (hv : v.Plain) (hw : w.Plain) :
    (Value.map [(.text s, v), (.text t, w)]).Plain := by
  refine .map _ ⟨fun e he => ?_, by simp [hst]⟩ fun e he => ?_
  · rcases List.mem_pair.mp he with rfl | rfl
    · exact ⟨s, rfl⟩
    · exact ⟨t, rfl⟩
  · rcases List.mem_pair.mp he with rfl | rfl
    · exact hv
    · exact hw

end Record

end Rollout
