/-
Reading digits back.

Digits are kept as characters here, since that is how they are written.  Two readers of digits are
in use; they agree on the ten ASCII digits, which are the only ones that are ever written.

* `digit?_eq_some_iff` — the digits of any script;
* `decimalValue_natText` — the digits of a natural number denote it;
* `Digits.spanDigits_append` — a reader takes all digits and stops at the first other character;
* `ReadsAscii.digits` — the digits that are written stand for the same numbers to every reader.
-/
import Mathlib.Data.List.Forall2
import Mathlib.Data.List.Induction
import Mathlib.Tactic.Ring
import Rollout.Number.Numeral

namespace Rollout.Text

/-- The value of a digit character. -/
def digitValue (c : Char) : Nat := c.toNat - 48

/-- The number that digit characters denote. -/
def decimalValue (cs : List Char) : Nat := ofDigits (cs.map digitValue)

/-- A text of ASCII digits. -/
def AllDigits (cs : List Char) : Prop := ∀ c ∈ cs, c.isDigit = true

theorem isDigit_iff_toNat (c : Char) : c.isDigit = true ↔ 48 ≤ c.toNat ∧ c.toNat ≤ 57 := by
  have h48 : (48 ≤ c.val) ↔ 48 ≤ c.toNat := UInt32.le_iff_toNat_le
  have h57 : (c.val ≤ 57) ↔ c.toNat ≤ 57 := UInt32.le_iff_toNat_le
  simp only [Char.isDigit, Bool.and_eq_true, decide_eq_true_eq]
  exact and_congr h48 h57

theorem asciiDigit?_of_isDigit {c : Char} (h : c.isDigit = true) :
    asciiDigit? c = some (digitValue c) := by
  rw [asciiDigit?, if_pos ((isDigit_iff_toNat c).mp h), digitValue]

theorem asciiDigit?_of_not_isDigit {c : Char} (h : c.isDigit = false) : asciiDigit? c = none := by
  rw [asciiDigit?, if_neg]
  rw [← isDigit_iff_toNat]
  simp [h]

theorem asciiDigit?_le {c : Char} {d : Nat} (h : asciiDigit? c = some d) : d ≤ 9 := by
  unfold asciiDigit? at h
  split at h
  · cases h
    omega
  · cases h

theorem digit?_le {c : Char} {d : Nat} (h : digit? c = some d) : d ≤ 9 := by
  unfold digit? at h
  split at h
  · exact asciiDigit?_le h
  · obtain ⟨base, -, hbase⟩ := List.exists_of_findSome?_eq_some h
    split at hbase
    · cases hbase
      omega
    · cases hbase

theorem digit?_of_ascii {c : Char} (h : c.toNat < 128) : digit? c = asciiDigit? c := by
  rw [digit?, if_pos h]

theorem digit?_of_isDigit {c : Char} (h : c.isDigit = true) : digit? c = some (digitValue c) := by
  have hc := (isDigit_iff_toNat c).mp h
  rw [digit?_of_ascii (by omega), asciiDigit?_of_isDigit h]

/-- A character is a digit if it is one of the ten digits of a script. -/
theorem digit?_eq_some_iff {c : Char} {d : Nat} :
    digit? c = some d ↔ d ≤ 9 ∧ ∃ base ∈ 48 :: digitZeros, c.toNat = base + d := by
  have hbeyond : ∀ base ∈ digitZeros, 128 ≤ base := by decide
  rw [List.exists_mem_cons_iff]
  by_cases hascii : c.toNat < 128
  · have hzeros : ¬ ∃ base ∈ digitZeros, c.toNat = base + d := by
      rintro ⟨base, hmem, hc⟩
      have := hbeyond base hmem
      omega
    rw [digit?_of_ascii hascii, asciiDigit?]
    simp only [hzeros, or_false]
    split
    · rw [Option.some.injEq]
      omega
    · simp only [reduceCtorEq, false_iff]
      omega
  · rw [digit?, if_neg hascii, List.findSome?_eq_some_iff]
    constructor
    · rintro ⟨earlier, base, later, hsplit, hbase, -⟩
      split at hbase
      · rw [Option.some.injEq] at hbase
        exact ⟨by omega, .inr ⟨base, by simp [hsplit], by omega⟩⟩
      · cases hbase
    · rintro ⟨hd, hc | ⟨base, hmem, hc⟩⟩
      · omega
      -- The scripts do not overlap: each begins after the ten digits of the one before.
      · have hapart : digitZeros.Pairwise fun a b => a + 9 < b := by decide
        obtain ⟨earlier, later, hsplit⟩ := List.append_of_mem hmem
        rw [hsplit, List.pairwise_append] at hapart
        refine ⟨earlier, base, later, hsplit, ?_, fun other hother => ?_⟩
        · rw [if_pos (by omega), hc, Nat.add_sub_cancel_left]
        · have := hapart.2.2 other hother base List.mem_cons_self
          rw [if_neg (by omega)]

/-! ### The number that digits denote -/

theorem foldl_digits (n : Nat) (ds : List Nat) :
    ds.foldl (fun n d => 10 * n + d) n = n * 10 ^ ds.length + ofDigits ds := by
  induction ds generalizing n with
  | nil => simp [ofDigits]
  | cons d ds ih =>
    have h : ofDigits (d :: ds) = d * 10 ^ ds.length + ofDigits ds := by
      rw [← ih d, ofDigits, List.foldl_cons, Nat.mul_zero, Nat.zero_add]
    rw [List.foldl_cons, ih, h, List.length_cons, pow_succ]
    ring

theorem decimalValue_append (as bs : List Char) :
    decimalValue (as ++ bs) = decimalValue as * 10 ^ bs.length + decimalValue bs := by
  have h := foldl_digits (decimalValue as) (bs.map digitValue)
  rw [List.length_map] at h
  rw [decimalValue, List.map_append, ofDigits, List.foldl_append]
  exact h

@[simp] theorem decimalValue_nil : decimalValue [] = 0 := rfl

@[simp] theorem decimalValue_singleton_zero : decimalValue ['0'] = 0 := rfl

theorem decimalValue_replicate_zero (n : Nat) : decimalValue (List.replicate n '0') = 0 := by
  induction n with
  | zero => rfl
  | succ n ih =>
    rw [List.replicate_succ', decimalValue_append, ih]
    rfl

theorem decimalValue_digitChar {d : Nat} (h : d < 10) : decimalValue [d.digitChar] = d := by
  rw [decimalValue, List.map_singleton, ofDigits, List.foldl_cons, List.foldl_nil, digitValue,
    Nat.toNat_digitChar_sub_48_of_lt_ten h]
  omega

theorem natText_of_lt {n : Nat} (h : n < 10) : natText n = [n.digitChar] :=
  Nat.toDigits_of_lt_base h

theorem natText_of_ge {n : Nat} (h : 10 ≤ n) :
    natText n = natText (n / 10) ++ [(n % 10).digitChar] :=
  Nat.toDigits_of_base_le (by decide) h

/-- The digits of a number denote it. -/
@[simp] theorem decimalValue_natText (n : Nat) : decimalValue (natText n) = n := by
  induction n using Nat.strong_induction_on with
  | _ n ih =>
    by_cases h : n < 10
    · rw [natText_of_lt h, decimalValue_digitChar h]
    · rw [natText_of_ge (by omega), decimalValue_append, ih (n / 10) (by omega),
        decimalValue_digitChar (Nat.mod_lt n (by decide)), List.length_singleton]
      omega

theorem allDigits_natText (n : Nat) : AllDigits (natText n) :=
  fun _ hc => Nat.isDigit_of_mem_toDigits (by decide) (by decide) hc

theorem natText_ne_nil (n : Nat) : natText n ≠ [] := Nat.toDigits_ne_nil

/-- Only zero is written with a leading zero. -/
theorem head?_natText {n : Nat} (h : n ≠ 0) : (natText n).head? ≠ some '0' := by
  induction n using Nat.strong_induction_on with
  | _ n ih =>
    by_cases h10 : n < 10
    · rw [natText_of_lt h10]
      simpa using h
    · rw [natText_of_ge (by omega), List.head?_append, Option.or_of_isSome]
      · exact ih (n / 10) (by omega) (by omega)
      · exact List.isSome_head?.mpr (natText_ne_nil _)

theorem AllDigits.append {as bs : List Char} (ha : AllDigits as) (hb : AllDigits bs) :
    AllDigits (as ++ bs) := by
  intro c hc
  rcases List.mem_append.mp hc with hc | hc
  · exact ha c hc
  · exact hb c hc

theorem allDigits_replicate_zero (n : Nat) : AllDigits (List.replicate n '0') := by
  intro c hc
  rw [List.eq_of_mem_replicate hc]
  rfl

theorem AllDigits.take {cs : List Char} (h : AllDigits cs) (n : Nat) : AllDigits (cs.take n) :=
  fun c hc => h c (List.mem_of_mem_take hc)

theorem AllDigits.drop {cs : List Char} (h : AllDigits cs) (n : Nat) : AllDigits (cs.drop n) :=
  fun c hc => h c (List.mem_of_mem_drop hc)

/-! ### The size of a number and its digits -/

theorem lt_pow_digitCount (n : Nat) : n < 10 ^ digitCount n :=
  (Nat.length_toDigits_le_iff (by decide) Nat.length_toDigits_pos).mp le_rfl

theorem pow_digitCount_le {n : Nat} (h : n ≠ 0) : 10 ^ (digitCount n - 1) ≤ n := by
  by_cases h1 : digitCount n = 1
  · rw [h1]
    simpa using Nat.one_le_iff_ne_zero.mpr h
  · have hpos : 0 < digitCount n := Nat.length_toDigits_pos
    by_contra hlt
    have := (Nat.length_toDigits_le_iff (b := 10) (n := n) (k := digitCount n - 1) (by decide)
      (by omega)).mpr (by omega)
    change digitCount n ≤ digitCount n - 1 at this
    omega

theorem digitCount_le {n k : Nat} (hk : 0 < k) (h : n < 10 ^ k) : digitCount n ≤ k :=
  (Nat.length_toDigits_le_iff (by decide) hk).mpr h

theorem ofDigits_lt {ds : List Nat} (h : ∀ d ∈ ds, d ≤ 9) : ofDigits ds < 10 ^ ds.length := by
  induction ds using List.reverseRecOn with
  | nil => exact Nat.one_pos
  | append_singleton ds d ih =>
    have hds := ih fun x hx => h x (List.mem_append_left _ hx)
    have hd := h d (List.mem_append_right _ (List.mem_singleton_self d))
    rw [ofDigits, List.foldl_concat, ← ofDigits, List.length_append, List.length_singleton,
      Nat.pow_succ]
    omega

end Rollout.Text

namespace Rollout.Numeral

open Rollout.Text

/-- A reader of digits that knows the ASCII digits and no other ASCII character. -/
structure ReadsAscii (digit : Char → Option Nat) : Prop where
  of_isDigit : ∀ c, c.isDigit = true → digit c = some (digitValue c)
  of_other : ∀ c, c.isDigit = false → c.toNat < 128 → digit c = none

theorem readsAscii_asciiDigit : ReadsAscii asciiDigit? :=
  ⟨fun _ => asciiDigit?_of_isDigit, fun _ h _ => asciiDigit?_of_not_isDigit h⟩

theorem readsAscii_digit : ReadsAscii digit? :=
  ⟨fun _ => digit?_of_isDigit,
    fun _ h hc => (digit?_of_ascii hc).trans (asciiDigit?_of_not_isDigit h)⟩

/-- What follows a numeral: nothing, or something that begins with no digit. -/
def Stops (digit : Char → Option Nat) (rest : List Char) : Prop :=
  ∀ c ∈ rest.head?, digit c = none

variable {digit : Char → Option Nat}

@[simp] theorem stops_nil : Stops digit [] := by
  intro c hc
  cases hc

theorem ReadsAscii.stops_cons (h : ReadsAscii digit) {c : Char} (hc : c.isDigit = false)
    (hascii : c.toNat < 128) (rest : List Char) : Stops digit (c :: rest) := by
  intro d hd
  cases hd
  exact h.of_other c hc hascii

/-- What a reader of digits takes are digits. -/
theorem spanDigits_le (hdigit : ∀ c d, digit c = some d → d ≤ 9) (cs : List Char) :
    ∀ d ∈ (spanDigits digit cs).1, d ≤ 9 := by
  induction cs with
  | nil => exact List.forall_mem_nil _
  | cons c rest ih =>
    rw [spanDigits]
    cases hc : digit c with
    | none => exact List.forall_mem_nil _
    | some d => exact List.forall_mem_cons.mpr ⟨hdigit c d hc, ih⟩

theorem natAbs_signed (negative : Bool) (size : Nat) :
    (Binary64.signed negative size).natAbs = size := by
  rw [Binary64.signed]
  split
  · rw [Int.natAbs_neg, Int.natAbs_natCast]
  · exact Int.natAbs_natCast _

/-- The whole number of a few digits is short. -/
theorem digitCount_signed_le (negative : Bool) {ds : List Nat} (h : ∀ d ∈ ds, d ≤ 9)
    (hlength : ds.length ≤ maxDigits) :
    digitCount (Binary64.signed negative (ofDigits ds)).natAbs ≤ maxDigits := by
  rw [natAbs_signed]
  have hpow : 10 ^ ds.length ≤ 10 ^ maxDigits := Nat.pow_le_pow_right (by decide) hlength
  exact digitCount_le (by decide) ((ofDigits_lt h).trans_le hpow)

/-- A whole number that is read from a text is short. -/
theorem digitCount_integer?_le (hdigit : ∀ c d, digit c = some d → d ≤ 9) {cs : List Char}
    {negative : Bool} {ds : List Nat} (h : integer? digit cs = some (negative, ds))
    (hlength : ds.length ≤ maxDigits) :
    digitCount (Binary64.signed negative (ofDigits ds)).natAbs ≤ maxDigits := by
  simp only [integer?] at h
  split at h
  · rename_i hspan
    cases h
    have hdigits := spanDigits_le hdigit (splitSign cs).2
    rw [hspan] at hdigits
    exact digitCount_signed_le _ hdigits hlength
  · cases h

/-- A text of digits, with the numbers that they stand for. -/
def Digits (digit : Char → Option Nat) (cs : List Char) (ds : List Nat) : Prop :=
  List.Forall₂ (fun c d => digit c = some d) cs ds

/-- A reader takes all digits and stops at what follows. -/
theorem Digits.spanDigits_append {cs rest : List Char} {ds : List Nat} (h : Digits digit cs ds)
    (hrest : Stops digit rest) : spanDigits digit (cs ++ rest) = (ds, rest) := by
  induction h with
  | nil =>
    cases rest with
    | nil => rfl
    | cons c rest => simp [spanDigits, hrest c rfl]
  | cons hc _ ih => simp [spanDigits, hc, ih]

theorem Digits.spanDigits_self {cs : List Char} {ds : List Nat} (h : Digits digit cs ds) :
    spanDigits digit cs = (ds, []) := by
  have := h.spanDigits_append stops_nil
  rwa [List.append_nil] at this

/-- All readers agree on what the ASCII digits stand for. -/
theorem ReadsAscii.digits (h : ReadsAscii digit) {cs : List Char} (hcs : AllDigits cs) :
    Digits digit cs (cs.map digitValue) :=
  List.forall₂_map_right_iff.mpr
    (List.forall₂_same.mpr fun c hc => h.of_isDigit c (hcs c hc))

theorem spanDigits_append (h : ReadsAscii digit) {cs rest : List Char} (hcs : AllDigits cs)
    (hrest : Stops digit rest) : spanDigits digit (cs ++ rest) = (cs.map digitValue, rest) :=
  (h.digits hcs).spanDigits_append hrest

end Rollout.Numeral
