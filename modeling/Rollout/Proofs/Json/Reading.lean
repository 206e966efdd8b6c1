/-
What reading a text as JSON gives.

Whatever the text, a value that is read from it is made of what JSON has a form for.  Its integers
are short, and so are the integer parts of its floats; the names of its maps are texts.  So it can be
written as JSON again.  A text that is not read is malformed, or holds an integer that is too long.

* `Json.Decoded` — the values that JSON is read as;
* `Json.hereditary_decoded`, `Json.Decoded.writable` — their parts are such values, and they can be
  written;
* `Json.read_decoded`, `Json.read_failure` — what reading gives, and how it fails.
-/
import Rollout.Json.Reader
import Rollout.Proofs.Json.Writable
import Rollout.Proofs.Number.Range
import Rollout.Proofs.Value.Hereditary

namespace Rollout

open Rollout.Text

/-- An integer that can be written. -/
def ShortInt (n : Int) : Prop := digitCount n.natAbs ≤ Numeral.maxDigits

namespace Json

/-- A value that JSON is read as. -/
inductive Decoded : Value → Prop
  | null : Decoded .null
  | bool (b : Bool) : Decoded (.bool b)
  | int (n : Int) (short : ShortInt n) : Decoded (.int n)
  | float (x : Binary64) (short : ∀ n, x.truncate? = some n → ShortInt n) : Decoded (.float x)
  | text (s : String) : Decoded (.text s)
  | list (items : List Value) (h : ∀ v ∈ items, Decoded v) : Decoded (.list items)
  | map (entries : Attributes) (keys : ∀ e ∈ entries, ∃ s, e.1 = .text s)
      (values : ∀ e ∈ entries, Decoded e.2) : Decoded (.map entries)

theorem hereditary_decoded : Value.Hereditary Decoded where
  null := .null
  text := .text
  items h hv := by
    cases hv with
    | list items hitems =>
      cases h
      exact hitems
    | _ => cases h
  list := .list _
  values h := by
    cases h with
    | map _ _ values => exact values
  map hnamed h := .map _ hnamed.1 h

theorem Decoded.writable {v : Value} (h : Decoded v) : Writable v := by
  induction h with
  | null => exact .null
  | bool b => exact .bool b
  | int n short => exact .int n short
  | float x _ => exact .float x
  | text s => exact .text s
  | list items _ ih => exact .list items ih
  | map entries keys _ ih =>
    refine .map entries (fun e he => ?_) ih
    obtain ⟨s, hs⟩ := keys e he
    exact ⟨s, by rw [hs, keyName]⟩

theorem Decoded.values {entries : Attributes} (h : Decoded (.map entries)) :
    ∀ e ∈ entries, Decoded e.2 :=
  hereditary_decoded.values h

theorem Decoded.keys {entries : Attributes} (h : Decoded (.map entries)) :
    ∀ e ∈ entries, ∃ s, e.1 = .text s := by
  cases h with
  | map _ keys _ => exact keys

theorem decoded_empty : Decoded (.map []) := .map _ (List.forall_mem_nil _) (List.forall_mem_nil _)

theorem Decoded.of_find? {entries : Attributes} (h : Decoded (.map entries)) {key v : Value}
    (hv : Assoc.find? key entries = some v) : Decoded v := by
  obtain ⟨k, hk⟩ := Assoc.exists_mem_of_find? hv
  exact h.values _ hk

theorem Decoded.insert {entries : Attributes} (h : Decoded (.map entries)) {key v : Value}
    (hkey : ∃ s, key = .text s) (hv : Decoded v) : Decoded (.map (Assoc.insert key v entries)) :=
  .map _ (Assoc.forall_key_insert (P := fun k => ∃ s, k = Value.text s) h.keys hkey)
    (Assoc.forall_insert h.values hv)

/-! ### Numbers and words -/

/-- A whole number that is read in the loose form is short. -/
theorem shortInt_lenientInteger? {blank : Char → Bool} {digit : Char → Option Nat}
    (hdigit : ∀ c d, digit c = some d → d ≤ 9) {cs : List Char} {n : Int}
    (h : Numeral.lenientInteger? blank digit cs = some n) : ShortInt n := by
  obtain ⟨tidied, -, hint⟩ := Option.bind_eq_some_iff.mp h
  obtain ⟨⟨negative, ds⟩, hdigits, hbounded⟩ := Option.bind_eq_some_iff.mp hint
  rw [Numeral.bounded?] at hbounded
  split at hbounded
  · rename_i hlength
    cases hbounded
    exact Numeral.digitCount_integer?_le hdigit hdigits hlength
  · cases hbounded

theorem scanWhole?_le {cs rest : List Char} {ds : List Nat}
    (h : scanWhole? cs = some (ds, rest)) : ∀ d ∈ ds, d ≤ 9 := by
  unfold scanWhole? at h
  split at h
  · cases h
    exact List.forall_mem_singleton.mpr (Nat.zero_le _)
  · split at h
    · cases h
    · rename_i hspan
      cases h
      have hdigits := Numeral.spanDigits_le (fun c d (h : asciiDigit? c = some d) =>
        asciiDigit?_le h) cs
      rwa [hspan] at hdigits

/-- The float of a numeral has a short integer part. -/
theorem decoded_ofScaled (negative : Bool) (coefficient : Nat) (exponent : Int) :
    Decoded (.float (.ofScaled negative coefficient exponent)) := by
  refine .float _ fun n hn => ?_
  have hdigits : digitCount n.natAbs ≤ 309 :=
    Numeral.Scientific.digitCount_truncate?_le (n := ⟨negative, coefficient, exponent⟩) hn
  exact hdigits.trans (by decide)

theorem numberValue_decoded {negative : Bool} {whole : List Nat} {fraction : Option (List Nat)}
    {exponent : Option Int} {v : Value} (hwhole : ∀ d ∈ whole, d ≤ 9)
    (h : numberValue negative whole fraction exponent = .ok v) : Decoded v := by
  unfold numberValue at h
  split at h
  · split at h
    · rename_i hlength
      cases h
      exact .int _ (Numeral.digitCount_signed_le negative hwhole hlength)
    · cases h
  · cases h
    exact decoded_ofScaled _ _ _

theorem scanNumber_decoded {cs rest : List Char} {v : Value}
    (h : scanNumber cs = .ok (v, rest)) : Decoded v := by
  simp only [scanNumber] at h
  split at h
  · cases h
  · rename_i hwhole
    split at h
    · rename_i hvalue
      cases h
      exact numberValue_decoded (scanWhole?_le hwhole) hvalue
    · cases h

theorem words_decoded : ∀ word ∈ words, Decoded word.2 := by
  simp only [words, List.forall_mem_cons]
  -- No word stands for a finite float.
  exact ⟨.null, .bool _, .bool _, .float _ nofun, .float _ nofun, .float _ nofun,
    List.forall_mem_nil _⟩

theorem scanAtom_decoded {cs rest : List Char} {v : Value}
    (h : scanAtom cs = .ok (v, rest)) : Decoded v := by
  unfold scanAtom at h
  split at h
  · rename_i found hfound
    cases h
    obtain ⟨word, hword, hdrop⟩ := List.exists_of_findSome?_eq_some hfound
    obtain ⟨_, -, hsame⟩ := Option.map_eq_some_iff.mp hdrop
    obtain ⟨rfl, -⟩ := Prod.mk.inj hsame
    exact words_decoded word hword
  · exact scanNumber_decoded h

/-! ### Containers -/

/-- What is read within a bound on depth and members are such values. -/
structure ScansDecoded (fuel : Nat) : Prop where
  value : ∀ cs v rest, scanValue fuel cs = .ok (v, rest) → Decoded v
  items : ∀ cs items rest, scanItems fuel cs = .ok (items, rest) → ∀ v ∈ items, Decoded v
  members : ∀ cs members rest, scanMembers fuel cs = .ok (members, rest) →
    ∀ e ∈ members, (∃ s, e.1 = .text s) ∧ Decoded e.2

theorem scansDecoded_zero : ScansDecoded 0 where
  value cs v rest h := by
    rw [scanValue] at h
    cases h
  items cs items rest h := by
    rw [scanItems] at h
    cases h
  members cs members rest h := by
    rw [scanMembers] at h
    cases h

namespace ScansDecoded

variable {fuel : Nat} (ih : ScansDecoded fuel)

include ih

theorem scanValue_succ {cs rest : List Char} {v : Value}
    (h : scanValue (fuel + 1) cs = .ok (v, rest)) : Decoded v := by
  unfold scanValue at h
  split at h
  · cases h
  · split at h
    · split at h
      · cases h
        exact .text _
      · cases h
    · split at h
      · split at h
        · cases h
          exact .list _ (List.forall_mem_nil _)
        · split at h
          · rename_i hitems
            cases h
            exact .list _ (ih.items _ _ _ hitems)
          · cases h
      · split at h
        · split at h
          · cases h
            exact .map _ (List.forall_mem_nil _) (List.forall_mem_nil _)
          · split at h
            · rename_i hmembers
              cases h
              have hall := ih.members _ _ _ hmembers
              exact hereditary_decoded.ofEntries (fun e he => (hall e he).1)
                fun e he => (hall e he).2
            · cases h
        · exact scanAtom_decoded h

theorem scanItems_succ {cs rest : List Char} {items : List Value}
    (h : scanItems (fuel + 1) cs = .ok (items, rest)) : ∀ v ∈ items, Decoded v := by
  rw [scanItems] at h
  split at h
  · cases h
  · rename_i hvalue
    have hfirst := ih.value _ _ _ hvalue
    split at h
    · cases h
      exact List.forall_mem_singleton.mpr hfirst
    · split at h
      · rename_i hitems
        cases h
        exact List.forall_mem_cons.mpr ⟨hfirst, ih.items _ _ _ hitems⟩
      · cases h
    · cases h

theorem scanMembers_succ {cs rest : List Char} {members : Attributes}
    (h : scanMembers (fuel + 1) cs = .ok (members, rest)) :
    ∀ e ∈ members, (∃ s, e.1 = .text s) ∧ Decoded e.2 := by
  unfold scanMembers at h
  split at h
  · split at h
    · cases h
    · split at h
      · split at h
        · cases h
        · rename_i hvalue
          have hfirst := ih.value _ _ _ hvalue
          split at h
          · cases h
            exact List.forall_mem_singleton.mpr ⟨⟨_, rfl⟩, hfirst⟩
          · split at h
            · rename_i hmembers
              cases h
              exact List.forall_mem_cons.mpr ⟨⟨⟨_, rfl⟩, hfirst⟩, ih.members _ _ _ hmembers⟩
            · cases h
          · cases h
      · cases h
  · cases h

end ScansDecoded

theorem scansDecoded (fuel : Nat) : ScansDecoded fuel := by
  -- The parts of a container are read within a bound that is smaller by one.
  induction fuel with
  | zero => exact scansDecoded_zero
  | succ fuel ih =>
    exact ⟨fun _ _ _ => ih.scanValue_succ, fun _ _ _ => ih.scanItems_succ,
      fun _ _ _ => ih.scanMembers_succ⟩

/-! ### Whole texts -/

/-- What is read is such a value. -/
theorem read_decoded {s : String} {v : Value} (h : read s = .ok v) : Decoded v := by
  rw [read, readChars] at h
  split at h
  · rename_i hscan
    cases h
    unfold scanText at hscan
    split at hscan
    · cases hscan
    · split at hscan
      · cases hscan
      · rename_i hvalue
        split at hscan
        · cases hscan
          exact (scansDecoded _).value _ _ _ hvalue
        · cases hscan
  · cases h

/-- A text that is not read is malformed, or holds an integer that is too long. -/
theorem read_failure {s : String} {f : Failure} (h : read s = .error f) :
    (∃ e, f = .malformedJson e) ∨ ∃ digits, f = .numeralTooLong digits := by
  rw [read, readChars] at h
  split at h
  · cases h
  · rename_i stop _
    cases h
    cases stop with
    | fault what rest => exact .inl ⟨_, rfl⟩
    | tooLong digits => exact .inr ⟨digits, rfl⟩

end Json

end Rollout
