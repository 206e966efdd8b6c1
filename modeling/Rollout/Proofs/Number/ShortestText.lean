/-
The shortest text of a float reads back as the float.

The search looks at finer and finer decimal grids.  A grid whose step is below three quarters of
the last place has a point that rounds to the float, and seventeen digits make such a grid, so the
search always ends with a point of that kind.

* `gridPoint?_holds`, `gridPoint?_isSome` — what a grid is searched for, and when it is found;
* `shortest_holds` — the shortest digits lie in the interval of the float;
* `exists_parts_text` — the text of a finite float is a number that rounds to the float.
-/
import Rollout.Proofs.Number.Parts
import Rollout.Proofs.Number.Rounding

namespace Rollout.Binary64

open Rollout.Text Rollout.Numeral

/-! ### One grid -/

/-- The factors of a power as a quotient. -/
theorem powRatio_spec {base : Nat} (hbase : 0 < base) (k : Int) :
    0 < (powRatio base k).1 ∧ 0 < (powRatio base k).2 ∧
      ((powRatio base k).1 : ℚ) / (powRatio base k).2 = (base : ℚ) ^ k := by
  unfold powRatio
  split
  · rename_i hk
    lift k to ℕ using hk
    exact ⟨Nat.pow_pos hbase, Nat.one_pos, by simp⟩
  · rename_i hk
    obtain ⟨n, rfl⟩ : ∃ n : ℕ, k = -n := ⟨(-k).toNat, by omega⟩
    exact ⟨Nat.one_pos, Nat.pow_pos hbase, by simp⟩

/-- The unit of a float and the step of a grid, both in the same fraction. -/
def gridUnit (exponent k : Int) : Nat := (powRatio 2 (exponent - 2)).1 * (powRatio 10 k).2

/-- The step of a grid. -/
def gridStep (exponent k : Int) : Nat := (powRatio 10 k).1 * (powRatio 2 (exponent - 2)).2

theorem gridUnit_pos (exponent k : Int) : 0 < gridUnit exponent k :=
  Nat.mul_pos (powRatio_spec (by decide) _).1 (powRatio_spec (by decide) _).2.1

theorem gridStep_pos (exponent k : Int) : 0 < gridStep exponent k :=
  Nat.mul_pos (powRatio_spec (by decide) _).1 (powRatio_spec (by decide) _).2.1

theorem gridStep_div_gridUnit (exponent k : Int) :
    (gridStep exponent k : ℚ) / gridUnit exponent k = 10 ^ k / 2 ^ (exponent - 2) := by
  obtain ⟨-, -, hten⟩ := powRatio_spec (show 0 < 10 by decide) k
  obtain ⟨-, -, htwo⟩ := powRatio_spec (show 0 < 2 by decide) (exponent - 2)
  push_cast at hten htwo
  rw [gridStep, gridUnit, ← hten, ← htwo]
  push_cast
  rw [div_div_div_eq, mul_comm ((powRatio 2 (exponent - 2)).1 : ℚ)]

/-- A distance, in units, that does not leave the interval. -/
def Interval.inside (i : Interval) (unit distance bound : Nat) : Bool :=
  if i.closed then distance ≤ bound * unit else distance < bound * unit

theorem Interval.inside_le {i : Interval} {unit distance bound : Nat}
    (h : i.inside unit distance bound = true) : distance ≤ bound * unit := by
  unfold inside at h
  split at h
  · exact of_decide_eq_true h
  · exact (of_decide_eq_true h).le

theorem Interval.inside_lt {i : Interval} {unit distance bound : Nat}
    (h : i.inside unit distance bound = true) (hopen : i.closed = false) :
    distance < bound * unit := by
  rw [inside, if_neg (by simp [hopen])] at h
  exact of_decide_eq_true h

theorem Interval.le_of_not_inside {i : Interval} {unit distance bound : Nat}
    (h : i.inside unit distance bound ≠ true) : bound * unit ≤ distance := by
  unfold inside at h
  split at h
  · exact (not_le.mp fun hle => h (decide_eq_true hle)).le
  · exact not_lt.mp fun hlt => h (decide_eq_true hlt)

/-- What a grid search finds is a neighbour of the value inside the interval. -/
theorem gridPoint?_cases {i : Interval} {exponent k : Int} {d : Nat}
    (h : gridPoint? i exponent k = some d) :
    (d = i.value * gridUnit exponent k / gridStep exponent k ∧
      i.inside (gridUnit exponent k)
        (i.value * gridUnit exponent k % gridStep exponent k) i.below = true) ∨
    (d = i.value * gridUnit exponent k / gridStep exponent k + 1 ∧
      i.inside (gridUnit exponent k)
        (gridStep exponent k - i.value * gridUnit exponent k % gridStep exponent k) i.above
          = true) := by
  simp only [gridPoint?, ← gridUnit.eq_1, ← gridStep.eq_1, ← Interval.inside.eq_1] at h
  split at h
  · rename_i hboth
    rw [Bool.and_eq_true] at hboth
    cases h
    split
    · exact Or.inr ⟨rfl, hboth.2⟩
    · exact Or.inl ⟨rfl, hboth.1⟩
  · split at h
    · rename_i hlower
      cases h
      exact Or.inl ⟨rfl, hlower⟩
    · split at h
      · rename_i hupper
        cases h
        exact Or.inr ⟨rfl, hupper⟩
      · cases h

theorem Interval.holds_of_grid {i : Interval} {unit step d : Nat} (hunit : 0 < unit)
    (hlo : i.value * unit ≤ d * step + i.below * unit)
    (hhi : d * step ≤ i.value * unit + i.above * unit)
    (hopen : i.closed = false → i.value * unit < d * step + i.below * unit ∧
      d * step < i.value * unit + i.above * unit) :
    i.Holds (d * ((step : ℚ) / unit)) := by
  have hu : (0 : ℚ) < unit := Nat.cast_pos.mpr hunit
  rw [← mul_div_assoc]
  refine ⟨?_, ?_, fun hc => ⟨?_, ?_⟩⟩
  · rw [le_div_iff₀ hu, sub_mul, sub_le_iff_le_add]
    exact_mod_cast hlo
  · rw [div_le_iff₀ hu, add_mul]
    exact_mod_cast hhi
  · rw [lt_div_iff₀ hu, sub_mul, sub_lt_iff_lt_add]
    exact_mod_cast (hopen hc).1
  · rw [div_lt_iff₀ hu, add_mul]
    exact_mod_cast (hopen hc).2

/-- A point that a grid search finds rounds to the float. -/
theorem gridPoint?_holds {i : Interval} {exponent k : Int} {d : Nat} (hbelow : 0 < i.below)
    (habove : 0 < i.above) (h : gridPoint? i exponent k = some d) :
    i.Holds ((d : ℚ) * 10 ^ k / 2 ^ (exponent - 2)) := by
  have hunit := gridUnit_pos exponent k
  have hstep := gridStep_pos exponent k
  rw [mul_div_assoc, ← gridStep_div_gridUnit]
  have hdiv := Nat.div_add_mod (i.value * gridUnit exponent k) (gridStep exponent k)
  have hmod := Nat.mod_lt (i.value * gridUnit exponent k) hstep
  rw [Nat.mul_comm] at hdiv
  have hb : 0 < i.below * gridUnit exponent k := Nat.mul_pos hbelow hunit
  have ha : 0 < i.above * gridUnit exponent k := Nat.mul_pos habove hunit
  rcases gridPoint?_cases h with ⟨rfl, hin⟩ | ⟨rfl, hin⟩
  · have hle := Interval.inside_le hin
    refine Interval.holds_of_grid hunit (by omega) (by omega) fun hopen => ?_
    have hlt := Interval.inside_lt hin hopen
    exact ⟨by omega, by omega⟩
  · have hle := Interval.inside_le hin
    refine Interval.holds_of_grid hunit ?_ ?_ fun hopen => ?_
    · rw [Nat.add_mul]
      omega
    · rw [Nat.add_mul]
      omega
    · have hlt := Interval.inside_lt hin hopen
      rw [Nat.add_mul]
      exact ⟨by omega, by omega⟩

/-- A grid that is finer than the interval has a point in it. -/
theorem gridPoint?_isSome {i : Interval} {exponent k : Int}
    (h : gridStep exponent k < (i.below + i.above) * gridUnit exponent k) :
    (gridPoint? i exponent k).isSome = true := by
  have hstep := gridStep_pos exponent k
  have hmod := Nat.mod_lt (i.value * gridUnit exponent k) hstep
  simp only [gridPoint?, ← gridUnit.eq_1, ← gridStep.eq_1, ← Interval.inside.eq_1]
  split
  · rfl
  · split
    · rfl
    · split
      · rfl
      · rename_i hlower hupper
        have h1 := Interval.le_of_not_inside hlower
        have h2 := Interval.le_of_not_inside hupper
        rw [Nat.add_mul] at h
        omega

/-! ### The leading digit -/

/-- The powers of ten next to a power of two, by the quotient that the search starts from. -/
theorem tenPow_le_twoPow : ∀ n < 1024, 10 ^ (n * 30103 / 100000) ≤ 10 * 2 ^ n := by
  decide +kernel

theorem twoPow_le_tenPow : ∀ n < 1075, 2 ^ n ≤ 10 ^ ((n * 30103 + 99999) / 100000 + 1) := by
  decide +kernel

theorem tenPow_guess_le {log : Int} (hlo : -1075 < log) (hhi : log < 1024) :
    (10 : ℚ) ^ (Int.fdiv (log * 30103) 100000 - 1) ≤ 2 ^ log := by
  rw [Int.fdiv_eq_ediv_of_nonneg _ (by decide)]
  -- The quotient is rounded towards zero for large floats and away from it for small ones.
  by_cases hnonneg : 0 ≤ log
  · lift log to ℕ using hnonneg
    have h : ((10 ^ (log * 30103 / 100000) : ℕ) : ℚ) ≤ ((10 * 2 ^ log : ℕ) : ℚ) :=
      Nat.cast_le.mpr (tenPow_le_twoPow log (by omega))
    have hguess : ((log : Int) * 30103 / 100000) = ((log * 30103 / 100000 : ℕ) : Int) := by
      push_cast
      rfl
    rw [hguess, zpow_sub₀ (by norm_num), zpow_one, zpow_natCast, zpow_natCast,
      div_le_iff₀ (by norm_num)]
    push_cast at h
    linarith
  · obtain ⟨n, rfl⟩ : ∃ n : ℕ, log = -n := ⟨log.natAbs, by omega⟩
    have h : ((2 ^ n : ℕ) : ℚ) ≤ ((10 ^ ((n * 30103 + 99999) / 100000 + 1) : ℕ) : ℚ) :=
      Nat.cast_le.mpr (twoPow_le_tenPow n (by omega))
    have hguess : (-(n : Int) * 30103 / 100000 - 1)
        = -(((n * 30103 + 99999) / 100000 + 1 : ℕ) : Int) := by
      push_cast
      omega
    rw [hguess, zpow_neg, zpow_neg, zpow_natCast, zpow_natCast]
    push_cast at h
    exact inv_anti₀ (by positivity) h

theorem reaches_iff {mantissa : Nat} {exponent k : Int} :
    reaches mantissa exponent k = true ↔ (10 : ℚ) ^ k ≤ mantissa * 2 ^ exponent := by
  obtain ⟨-, hten, hten'⟩ := powRatio_spec (show 0 < 10 by decide) k
  obtain ⟨-, htwo, htwo'⟩ := powRatio_spec (show 0 < 2 by decide) exponent
  have h1 : (0 : ℚ) < (powRatio 10 k).2 := Nat.cast_pos.mpr hten
  have h2 : (0 : ℚ) < (powRatio 2 exponent).2 := Nat.cast_pos.mpr htwo
  push_cast at hten' htwo'
  simp only [reaches, decide_eq_true_eq]
  rw [← hten', ← htwo', ← mul_div_assoc, div_le_div_iff₀ h1 h2]
  exact_mod_cast Iff.rfl

/-- The leading digit is not placed above the number. -/
theorem floorLogTen_le {m : Nat} {e : Int} (hc : Canonical m e) (hm : 0 < m) :
    (10 : ℚ) ^ floorLogTen m e ≤ m * 2 ^ e := by
  simp only [floorLogTen]
  split
  · rename_i h
    exact reaches_iff.mp h
  · split
    · rename_i h
      exact reaches_iff.mp h
    · have hlog : m.log2 < 53 := (Nat.log2_lt hm.ne').mpr hc.1
      have hleast : -1074 ≤ e := hc.2.1
      have hgreatest : e ≤ 971 := hc.2.2.1
      have hpow : (2 : ℚ) ^ (m.log2 : Int) ≤ m := by
        rw [zpow_natCast]
        exact_mod_cast Nat.log2_self_le hm.ne'
      calc (10 : ℚ) ^ (Int.fdiv (((m.log2 : Int) + e) * 30103) 100000 - 1)
          ≤ 2 ^ ((m.log2 : Int) + e) := tenPow_guess_le (by omega) (by omega)
        _ = 2 ^ (m.log2 : Int) * 2 ^ e := zpow_add₀ (by norm_num) _ _
        _ ≤ m * 2 ^ e := mul_le_mul_of_nonneg_right hpow (by positivity)

/-! ### The search -/

theorem interval_below_pos (m : Nat) (e : Int) : 0 < (interval m e).below := by
  simp only [interval]
  split <;> decide

theorem interval_below_le (m : Nat) (e : Int) : (interval m e).below ≤ 2 := by
  simp only [interval]
  split <;> decide

/-- Seventeen digits are enough. -/
theorem gridPoint?_seventeen {m : Nat} {e : Int} (hc : Canonical m e) (hm : 0 < m) :
    (gridPoint? (interval m e) e (floorLogTen m e - 17)).isSome = true := by
  apply gridPoint?_isSome
  have hunit : (0 : ℚ) < gridUnit e (floorLogTen m e - 17) := Nat.cast_pos.mpr (gridUnit_pos _ _)
  have hpow : (0 : ℚ) < 2 ^ e := by positivity
  have hm53 : (m : ℚ) < 2 ^ 53 := by exact_mod_cast hc.1
  have hwidth : 3 ≤ (interval m e).below + (interval m e).above := by
    have := interval_below_pos m e
    simp only [interval] at this ⊢
    omega
  -- Seventeen digits are finer than 53 bits, as two to the 53rd is below ten to the 16th.
  have hratio : (gridStep e (floorLogTen m e - 17) : ℚ) / gridUnit e (floorLogTen m e - 17) < 3 := by
    rw [gridStep_div_gridUnit, zpow_sub₀ (by norm_num), zpow_sub₀ (by norm_num), div_div_div_eq,
      div_lt_iff₀ (by positivity)]
    have hlead := floorLogTen_le hc hm
    have hlt : (m : ℚ) * 2 ^ e < 2 ^ 53 * 2 ^ e := mul_lt_mul_of_pos_right hm53 hpow
    norm_num at hlt ⊢
    linarith
  rw [div_lt_iff₀ hunit] at hratio
  have hlt : gridStep e (floorLogTen m e - 17) < 3 * gridUnit e (floorLogTen m e - 17) := by
    exact_mod_cast hratio
  exact hlt.trans_le (Nat.mul_le_mul_right _ hwidth)

/-- A search that reaches a grid with a point ends with a point. -/
theorem shortestFrom_spec {i : Interval} {exponent top : Int} {fuel count : Nat}
    (h : (gridPoint? i exponent (top - ((count + fuel : Nat) : Int))).isSome = true) :
    gridPoint? i exponent (shortestFrom i exponent top fuel count).2
      = some (shortestFrom i exponent top fuel count).1 := by
  induction fuel generalizing count with
  | zero =>
    obtain ⟨d, hd⟩ := Option.isSome_iff_exists.mp h
    rw [Nat.add_zero] at hd
    simp [shortestFrom, hd]
  | succ fuel ih =>
    rw [shortestFrom]
    split
    · rename_i hd
      exact hd
    · apply ih
      rw [show count + 1 + fuel = count + (fuel + 1) by omega]
      exact h

/-- The shortest digits of a float lie in its interval. -/
theorem shortest_holds {m : Nat} {e : Int} (hc : Canonical m e) (hm : 0 < m) :
    (interval m e).Holds (((shortest m e).1 : ℚ) * 10 ^ (shortest m e).2 / 2 ^ (e - 2)) := by
  rw [shortest, if_neg hm.ne']
  apply gridPoint?_holds (interval_below_pos m e) (by simp [interval])
  apply shortestFrom_spec
  rw [Nat.zero_add]
  exact gridPoint?_seventeen hc hm

theorem shortest_ne_zero {m : Nat} {e : Int} (hc : Canonical m e) (hm : 0 < m) :
    (shortest m e).1 ≠ 0 := by
  intro hzero
  have hlo := (shortest_holds hc hm).1
  have hbelow : ((interval m e).below : ℚ) ≤ 2 := by exact_mod_cast interval_below_le m e
  have hm1 : (1 : ℚ) ≤ m := by exact_mod_cast hm
  have hvalue : ((interval m e).value : ℚ) = 4 * m := by simp [interval]
  rw [hzero, hvalue, Nat.cast_zero, zero_mul, zero_div] at hlo
  linarith

/-! ### The text -/

/-- The zeros at the end of the digits of a positive number, and what is before them. -/
theorem exists_dropTrailingZeros {n : Nat} (h : n ≠ 0) :
    ∃ zeros, natText n = dropTrailingZeros (natText n) ++ List.replicate zeros '0' ∧
      dropTrailingZeros (natText n) ≠ [] := by
  set rev := (natText n).reverse with hrev
  -- The zeros at the end are those at the head of the reversed digits.
  have hzeros : rev.takeWhile (· == '0')
      = List.replicate (rev.takeWhile (· == '0')).length '0' := by
    refine List.eq_replicate_of_mem fun c hc => ?_
    exact beq_iff_eq.mp (List.all_eq_true.mp List.all_takeWhile c hc)
  have hsplit : natText n = (rev.dropWhile (· == '0')).reverse
      ++ List.replicate (rev.takeWhile (· == '0')).length '0' := by
    calc natText n = rev.reverse := (List.reverse_reverse _).symm
      _ = (rev.takeWhile (· == '0') ++ rev.dropWhile (· == '0')).reverse := by
        rw [List.takeWhile_append_dropWhile]
      _ = (rev.dropWhile (· == '0')).reverse ++ (rev.takeWhile (· == '0')).reverse :=
        List.reverse_append
      _ = _ := by
        rw [hzeros, List.reverse_replicate, List.length_replicate]
  -- Zeros alone would stand for zero.
  have hkept : (rev.dropWhile (· == '0')).reverse ≠ [] := by
    intro hnil
    rw [hnil, List.nil_append] at hsplit
    have := congrArg decimalValue hsplit
    rw [decimalValue_natText, decimalValue_replicate_zero] at this
    exact h this
  have hdrop : dropTrailingZeros (natText n) = (rev.dropWhile (· == '0')).reverse := by
    rw [dropTrailingZeros, ← hrev]
    split
    · rename_i hnil
      exact absurd hnil hkept
    · rfl
  rw [hdrop]
  exact ⟨_, hsplit, hkept⟩

/-- Parts that are a text and stand for a number, and that no whole number is written as. -/
structure Spells (p : Parts) (cs : List Char) (q : ℚ) : Prop where
  wellFormed : p.WellFormed
  text : p.text = cs
  unpadded : p.whole = ['0'] ∨ p.whole.head? ≠ some '0'
  not_isWhole : ¬ p.IsWhole
  value : (p.coefficient : ℚ) * 10 ^ p.scale = q

/-- Digits that end before the point are filled up with zeros, and a zero follows the point. -/
theorem exists_spells_filled {digits : List Char} (hall : AllDigits digits) (hne : digits ≠ [])
    (hhead : digits.head? ≠ some '0') {point : Nat} (hpoint : digits.length ≤ point) :
    ∃ p, Spells p (digits ++ List.replicate (point - digits.length) '0' ++ ['.', '0'])
      (decimalValue digits * 10 ^ ((point : Int) - digits.length)) := by
  refine ⟨⟨digits ++ List.replicate (point - digits.length) '0', ['0'], none⟩,
    ⟨hall.append (allDigits_replicate_zero _), List.append_ne_nil_of_left_ne_nil hne _,
      allDigits_replicate_zero 1, fun x hx => by cases hx⟩, rfl, Or.inr ?_, ?_, ?_⟩
  · rw [List.head?_append_of_ne_nil _ hne]
    exact hhead
  · intro h
    cases h.1
  · have hcoefficient : decimalValue (digits ++ List.replicate (point - digits.length) '0' ++ ['0'])
        = decimalValue digits * 10 ^ (point - digits.length + 1) := by
      rw [decimalValue_append, decimalValue_append, decimalValue_replicate_zero,
        List.length_replicate, pow_succ]
      simp [mul_assoc]
    simp only [Parts.coefficient, Parts.scale, hcoefficient]
    push_cast
    rw [mul_assoc, ← zpow_natCast, ← zpow_add₀ (by norm_num)]
    congr 2
    simp
    omega

theorem exists_spells_positional {digits : List Char} (hall : AllDigits digits)
    (hne : digits ≠ []) (hhead : digits.head? ≠ some '0') (point : Int) :
    ∃ p, Spells p (positional digits point)
      (decimalValue digits * 10 ^ (point - digits.length)) := by
  have hlen : 0 < digits.length := List.length_pos_iff.mpr hne
  simp only [positional]
  by_cases hpoint : point ≤ 0
  · rw [if_pos hpoint]
    refine ⟨Parts.behindZeros (-point).toNat digits, Parts.behindZeros_wellFormed _ hall,
      Parts.behindZeros_text _ hne, Or.inl rfl, Parts.behindZeros_not_isWhole _ hne, ?_⟩
    rw [Parts.behindZeros_coefficient, Parts.behindZeros_scale]
    congr 2
    omega
  · rw [if_neg hpoint]
    lift point to ℕ using by omega
    rw [Int.toNat_natCast]
    by_cases hfilled : digits.length ≤ point
    · have hspells := exists_spells_filled hall hne hhead hfilled
      rw [List.take_of_length_le hfilled, List.drop_eq_nil_of_le hfilled]
      exact hspells
    · have hexact : point - (digits.take point).length = 0 := by
        rw [List.length_take]
        omega
      have hdrop : digits.drop point ≠ [] := by
        rw [ne_eq, List.drop_eq_nil_iff]
        exact hfilled
      refine ⟨Parts.pointAfter point digits, Parts.pointAfter_wellFormed hall hne (by omega), ?_,
        Or.inr ?_, ?_, ?_⟩
      · rw [Parts.pointAfter_text, Parts.pointed, if_neg hdrop, hexact, List.replicate_zero,
          List.append_nil, List.isEmpty_eq_false_iff.mpr hdrop]
        rfl
      · change (digits.take point).head? ≠ _
        rw [List.head?_take, if_neg (by omega)]
        exact hhead
      · rw [Parts.pointAfter_isWhole_iff]
        exact hfilled
      · rw [Parts.pointAfter_coefficient, Parts.pointAfter_scale]
        congr 2
        omega

/-- The digits of an exponent, of which there are two at least. -/
theorem exists_exponentDigits (n : Nat) :
    ∃ digits, (if (natText n).length < 2 then '0' :: natText n else natText n) = digits ∧
      AllDigits digits ∧ digits ≠ [] ∧ decimalValue digits = n := by
  split
  · refine ⟨_, rfl, (allDigits_replicate_zero 1).append (allDigits_natText n),
      List.cons_ne_nil _ _, ?_⟩
    have := decimalValue_append ['0'] (natText n)
    rwa [decimalValue_singleton_zero, decimalValue_natText, Nat.zero_mul, Nat.zero_add] at this
  · exact ⟨_, rfl, allDigits_natText n, natText_ne_nil n, decimalValue_natText n⟩

theorem exists_spells_exponential {digits : List Char} (hall : AllDigits digits)
    (hne : digits ≠ []) (hhead : digits.head? ≠ some '0') (exponent : Int) :
    ∃ p, Spells p (exponential digits exponent)
      (decimalValue digits * 10 ^ (exponent + 1 - digits.length)) := by
  have hlen : 0 < digits.length := List.length_pos_iff.mpr hne
  obtain ⟨padded, hpadded, hdigits, hnonempty, hvalue⟩ := exists_exponentDigits exponent.natAbs
  refine ⟨Parts.withExponent digits ⟨'e', decide (exponent < 0), padded⟩,
    Parts.withExponent_wellFormed hall hne ⟨Or.inl rfl, hdigits, hnonempty⟩, ?_, ?_, ?_, ?_⟩
  · simp only [exponential, hpadded]
    obtain ⟨d, ds, rfl⟩ := List.exists_cons_of_ne_nil hne
    by_cases hds : ds = []
    · simp [Parts.text, Parts.withExponent, Parts.pointed, Parts.tail, Exponent.text, hds]
    · simp [Parts.text, Parts.withExponent, Parts.pointed, Parts.tail, Exponent.text, hds]
  · right
    obtain ⟨d, ds, rfl⟩ := List.exists_cons_of_ne_nil hne
    exact hhead
  · intro h
    cases h.2
  · rw [Parts.withExponent_coefficient, Parts.withExponent_scale, Exponent.value, hvalue,
      signed_natAbs]
    congr 2
    omega

/-- The text of a positive float spells its shortest digits. -/
theorem exists_spells_magnitudeText {m : Nat} {e : Int} (hc : Canonical m e) (hm : 0 < m) :
    ∃ p, Spells p (magnitudeText m e) (((shortest m e).1 : ℚ) * 10 ^ (shortest m e).2) := by
  have hne := shortest_ne_zero hc hm
  obtain ⟨zeros, hsplit, hkept⟩ := exists_dropTrailingZeros hne
  simp only [magnitudeText]
  rw [if_neg hne]
  set number := (shortest m e).1 with hnumber
  set last := (shortest m e).2 with hlast
  set digits := dropTrailingZeros (natText number) with hdigits
  have hall : AllDigits digits := by
    intro c hmem
    apply allDigits_natText number c
    rw [hsplit]
    exact List.mem_append_left _ hmem
  have hhead : digits.head? ≠ some '0' := by
    have := head?_natText hne
    rwa [hsplit, List.head?_append_of_ne_nil _ hkept] at this
  have hvalue : (number : ℚ) = decimalValue digits * 10 ^ (zeros : Int) := by
    rw [← decimalValue_natText number, hsplit, decimalValue_append, decimalValue_replicate_zero,
      List.length_replicate, zpow_natCast]
    push_cast
    ring
  have hlength : (natText number).length = digits.length + zeros := by
    rw [hsplit, List.length_append, List.length_replicate]
  -- Every zero that was dropped has moved into the exponent.
  have hshift : (decimalValue digits : ℚ) * 10 ^ ((natText number).length + last - digits.length)
      = number * 10 ^ last := by
    rw [hvalue, mul_assoc, ← zpow_add₀ (by norm_num)]
    congr 2
    omega
  rw [← hshift]
  split
  · exact exists_spells_positional hall hkept hhead _
  · have h := exists_spells_exponential hall hkept hhead ((natText number).length + last - 1)
    rwa [sub_add_cancel] at h

/-- **Shortest texts read back.**  The text of a finite float is a number that rounds to it. -/
theorem exists_parts_text {m : Nat} {e : Int} (hc : Canonical m e) :
    ∃ p : Parts, p.WellFormed ∧ p.text = magnitudeText m e ∧
      (p.whole = ['0'] ∨ p.whole.head? ≠ some '0') ∧ ¬ p.IsWhole ∧
      ∀ negative, ofScaled negative p.coefficient p.scale = .finite negative m e := by
  by_cases hm : m = 0
  · subst hm
    have he : e = leastExponent := hc.2.2.2.resolve_right (by decide)
    refine ⟨⟨['0'], ['0'], none⟩, ⟨allDigits_replicate_zero 1, List.cons_ne_nil _ _,
      allDigits_replicate_zero 1, fun x hx => by cases hx⟩, rfl, Or.inl rfl, ?_, ?_⟩
    · intro h
      cases h.1
    · intro negative
      rw [he]
      rfl
  · have hpos : 0 < m := Nat.pos_of_ne_zero hm
    obtain ⟨p, hp⟩ := exists_spells_magnitudeText hc hpos
    refine ⟨p, hp.wellFormed, hp.text, hp.unpadded, hp.not_isWhole, fun negative => ?_⟩
    apply ofScaled_eq negative hc hpos
    rw [hp.value]
    exact shortest_holds hc hpos

end Rollout.Binary64
