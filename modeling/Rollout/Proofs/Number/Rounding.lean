/-
Rounding a quotient to the nearest float.

A float `mantissa * 2 ^ exponent` is the one that a number rounds to when the number lies between
the middles to its two neighbours, or on one of them if the mantissa is even.  Just below a power
of two the neighbours are twice as close.

* `Interval.Holds` — that interval, in quarters of the last place;
* `floorLog_eq` — the binade of a quotient;
* `ofRatio_eq` — a quotient in the interval of a float rounds to it;
* `ofScaled_eq` — the same for a decimal number.
-/
import Mathlib.Algebra.Order.Field.Power
import Mathlib.Tactic.FieldSimp
import Mathlib.Tactic.Linarith
import Mathlib.Tactic.Positivity
import Mathlib.Tactic.Ring
import Rollout.Number.Shortest
import Rollout.Proofs.Number.Digits

namespace Rollout.Binary64

/-- A finite float that is written with the only mantissa and exponent that the format has for
it. -/
def Canonical (mantissa : Nat) (exponent : Int) : Prop :=
  mantissa < 2 ^ 53 ∧ leastExponent ≤ exponent ∧ exponent ≤ greatestExponent ∧
    (exponent = leastExponent ∨ 2 ^ 52 ≤ mantissa)

/-- Whether a point, in quarters of the last place, rounds to the float of an interval. -/
def Interval.Holds (i : Interval) (x : ℚ) : Prop :=
  (i.value : ℚ) - i.below ≤ x ∧ x ≤ i.value + i.above ∧
    (i.closed = false → (i.value : ℚ) - i.below < x ∧ x < i.value + i.above)

/-- Whether a whole number is the nearest to a point, a half going to the even one. -/
def Nearest (m : Nat) (x : ℚ) : Prop :=
  (m : ℚ) - 1 / 2 ≤ x ∧ x ≤ m + 1 / 2 ∧
    (m % 2 = 1 → (m : ℚ) - 1 / 2 < x ∧ x < m + 1 / 2)

/-! ### Rounding to a whole number -/

theorem roundDiv_eq {num den m : Nat} (hlo : 2 * (m * den) ≤ 2 * num + den)
    (hhi : 2 * num ≤ 2 * (m * den) + den)
    (hodd : m % 2 = 1 → 2 * (m * den) < 2 * num + den ∧ 2 * num < 2 * (m * den) + den)
    (hden : 0 < den) : roundDiv num den = m := by
  have hnum := Nat.div_add_mod num den
  have hrest := Nat.mod_lt num hden
  rw [Nat.mul_comm] at hnum
  set whole := num / den with hwhole
  set rest := num % den with hr
  -- The quotient rounds to `whole` or to the number after it.
  have hle : whole ≤ m := by
    by_contra hlt
    have := Nat.mul_le_mul_right den (show m + 1 ≤ whole by omega)
    rw [Nat.add_mul] at this
    omega
  have hge : m ≤ whole + 1 := by
    by_contra hlt
    have := Nat.mul_le_mul_right den (show whole + 2 ≤ m by omega)
    rw [Nat.add_mul] at this
    omega
  simp only [roundDiv, ← hwhole, ← hr]
  obtain rfl | rfl : m = whole ∨ m = whole + 1 := by omega
  · rw [if_neg]
    omega
  · rw [Nat.add_mul] at hlo hhi hodd
    rw [if_pos]
    omega

/-- A whole number is nearest to a quotient if it is in whole numbers, without the division. -/
theorem nearest_div_iff {num den m : Nat} (hden : 0 < den) :
    Nearest m ((num : ℚ) / den) ↔
      2 * (m * den) ≤ 2 * num + den ∧ 2 * num ≤ 2 * (m * den) + den ∧
        (m % 2 = 1 → 2 * (m * den) < 2 * num + den ∧ 2 * num < 2 * (m * den) + den) := by
  have hd : (0 : ℚ) < den := Nat.cast_pos.mpr hden
  have hlo : (m : ℚ) - 1 / 2 ≤ num / den ↔ 2 * (m * den) ≤ 2 * num + den := by
    rw [le_div_iff₀ hd, ← Nat.cast_le (α := ℚ)]
    push_cast
    constructor <;> intro h <;> linarith
  have hhi : (num : ℚ) / den ≤ m + 1 / 2 ↔ 2 * num ≤ 2 * (m * den) + den := by
    rw [div_le_iff₀ hd, ← Nat.cast_le (α := ℚ)]
    push_cast
    constructor <;> intro h <;> linarith
  have hlo' : (m : ℚ) - 1 / 2 < num / den ↔ 2 * (m * den) < 2 * num + den := by
    rw [lt_div_iff₀ hd, ← Nat.cast_lt (α := ℚ)]
    push_cast
    constructor <;> intro h <;> linarith
  have hhi' : (num : ℚ) / den < m + 1 / 2 ↔ 2 * num < 2 * (m * den) + den := by
    rw [div_lt_iff₀ hd, ← Nat.cast_lt (α := ℚ)]
    push_cast
    constructor <;> intro h <;> linarith
  rw [Nearest, hlo, hhi, hlo', hhi']

theorem roundDiv_of_nearest {num den m : Nat} (hden : 0 < den)
    (h : Nearest m ((num : ℚ) / den)) : roundDiv num den = m := by
  obtain ⟨hlo, hhi, hodd⟩ := (nearest_div_iff hden).mp h
  exact roundDiv_eq hlo hhi hodd hden

theorem cast_mul_twoPow (n : Nat) {k : Int} (h : 0 ≤ k) :
    ((n * twoPow k.toNat : Nat) : ℚ) = n * 2 ^ k := by
  lift k to ℕ using h
  simp [twoPow]

/-- Rounding in units of a power of two is rounding another quotient. -/
theorem exists_roundDiv (num : Nat) {den : Nat} (k : Int) (hden : 0 < den) :
    ∃ a b, 0 < b ∧ roundAt num den k = roundDiv a b ∧ (a : ℚ) / b = (num : ℚ) / den / 2 ^ k := by
  unfold roundAt
  split
  · rename_i hk
    refine ⟨num, den * twoPow k.toNat, Nat.mul_pos hden (Nat.pow_pos (by decide)), rfl, ?_⟩
    rw [cast_mul_twoPow den hk, ← div_div]
  · rename_i hk
    refine ⟨num * twoPow (-k).toNat, den, hden, rfl, ?_⟩
    rw [cast_mul_twoPow num (by omega), zpow_neg, ← div_eq_mul_inv, div_right_comm]

theorem roundAt_of_nearest {num den m : Nat} {k : Int} (hden : 0 < den)
    (h : Nearest m ((num : ℚ) / den / 2 ^ k)) : roundAt num den k = m := by
  obtain ⟨a, b, hb, hround, hquotient⟩ := exists_roundDiv num k hden
  rw [hround]
  exact roundDiv_of_nearest hb (by rwa [hquotient])

/-! ### The binade of a quotient -/

theorem atLeastPow_iff {num den : Nat} {k : Int} (hden : 0 < den) :
    atLeastPow num den k = true ↔ (2 : ℚ) ^ k ≤ (num : ℚ) / den := by
  have hd : (0 : ℚ) < den := Nat.cast_pos.mpr hden
  rw [le_div_iff₀ hd]
  unfold atLeastPow
  split
  · rename_i hk
    rw [decide_eq_true_eq, ← Nat.cast_le (α := ℚ), cast_mul_twoPow den hk, mul_comm]
  · rename_i hk
    have hpos : (0 : ℚ) < 2 ^ (-k) := by positivity
    rw [decide_eq_true_eq, ← Nat.cast_le (α := ℚ), cast_mul_twoPow num (by omega),
      ← div_le_iff₀ hpos, zpow_neg, div_inv_eq_mul, mul_comm]

theorem log2_bounds {n : Nat} (h : 0 < n) :
    (2 : ℚ) ^ (n.log2 : Int) ≤ n ∧ (n : ℚ) < 2 ^ ((n.log2 : Int) + 1) := by
  constructor
  · rw [zpow_natCast]
    exact_mod_cast Nat.log2_self_le h.ne'
  · rw [← Nat.cast_succ, zpow_natCast]
    exact_mod_cast Nat.lt_log2_self

theorem floorLog_spec {num den : Nat} (hnum : 0 < num) (hden : 0 < den) :
    (2 : ℚ) ^ floorLog num den ≤ (num : ℚ) / den ∧
      (num : ℚ) / den < 2 ^ (floorLog num den + 1) := by
  have hd : (0 : ℚ) < den := Nat.cast_pos.mpr hden
  obtain ⟨hn1, hn2⟩ := log2_bounds hnum
  obtain ⟨hd1, hd2⟩ := log2_bounds hden
  -- The difference of the logarithms is right or one too large.
  have hupper : (num : ℚ) / den < 2 ^ ((num.log2 : Int) - den.log2 + 1) := by
    rw [div_lt_iff₀ hd]
    calc (num : ℚ) < 2 ^ ((num.log2 : Int) + 1) := hn2
      _ = 2 ^ ((num.log2 : Int) - den.log2 + 1) * 2 ^ (den.log2 : Int) := by
        rw [← zpow_add₀ (by norm_num)]
        congr 1
        ring
      _ ≤ 2 ^ ((num.log2 : Int) - den.log2 + 1) * den :=
        mul_le_mul_of_nonneg_left hd1 (by positivity)
  have hlower : (2 : ℚ) ^ ((num.log2 : Int) - den.log2 - 1) ≤ (num : ℚ) / den := by
    rw [le_div_iff₀ hd]
    calc (2 : ℚ) ^ ((num.log2 : Int) - den.log2 - 1) * den
        ≤ 2 ^ ((num.log2 : Int) - den.log2 - 1) * 2 ^ ((den.log2 : Int) + 1) :=
          mul_le_mul_of_nonneg_left hd2.le (by positivity)
      _ = 2 ^ (num.log2 : Int) := by
        rw [← zpow_add₀ (by norm_num)]
        congr 1
        ring
      _ ≤ num := hn1
  simp only [floorLog]
  split
  · rename_i h
    exact ⟨(atLeastPow_iff hden).mp h, hupper⟩
  · rename_i h
    rw [atLeastPow_iff hden, not_le] at h
    exact ⟨hlower, by rwa [sub_add_cancel]⟩

theorem floorLog_eq {num den : Nat} {k : Int} (hnum : 0 < num) (hden : 0 < den)
    (hlo : (2 : ℚ) ^ k ≤ (num : ℚ) / den) (hhi : (num : ℚ) / den < 2 ^ (k + 1)) :
    floorLog num den = k := by
  obtain ⟨h1, h2⟩ := floorLog_spec hnum hden
  have hle := (zpow_lt_zpow_iff_right₀ (by norm_num : (1 : ℚ) < 2)).mp (h1.trans_lt hhi)
  have hge := (zpow_lt_zpow_iff_right₀ (by norm_num : (1 : ℚ) < 2)).mp (hlo.trans_lt h2)
  omega

theorem floorLog_lt {num den : Nat} {k : Int} (hnum : 0 < num) (hden : 0 < den)
    (hhi : (num : ℚ) / den < 2 ^ k) : floorLog num den < k :=
  (zpow_lt_zpow_iff_right₀ (by norm_num : (1 : ℚ) < 2)).mp
    ((floorLog_spec hnum hden).1.trans_lt hhi)

/-! ### Rounding to a float -/

theorem Interval.Holds.nearest {m : Nat} {e : Int} {x : ℚ} (h : (interval m e).Holds x) :
    Nearest m (x / 4) := by
  obtain ⟨hlo, hhi, hopen⟩ := h
  have hbelow : ((interval m e).below : ℚ) ≤ 2 := by
    simp only [interval]
    split <;> norm_num
  have hvalue : ((interval m e).value : ℚ) = 4 * m := by simp [interval]
  have habove : ((interval m e).above : ℚ) = 2 := by simp [interval]
  rw [hvalue] at hlo hhi hopen
  rw [habove] at hhi hopen
  refine ⟨by linarith, by linarith, fun hodd => ?_⟩
  obtain ⟨hlo', hhi'⟩ := hopen (by simp [interval, hodd])
  exact ⟨by linarith, by linarith⟩

/-- Off the powers of two, nothing below the middle to the neighbour below rounds to a float. -/
theorem Interval.Holds.eq_twoPow {m : Nat} {e : Int} {x : ℚ} (h : (interval m e).Holds x)
    (hm : 2 ^ 52 ≤ m) (hx : x < 4 * 2 ^ 52) : m = 2 ^ 52 := by
  by_contra hne
  have hbelow : (interval m e).below = 2 := by
    simp only [interval]
    rw [if_neg]
    exact fun hc => hne hc.1
  have hvalue : ((interval m e).value : ℚ) = 4 * m := by simp [interval]
  have hlo := h.1
  rw [hbelow, hvalue] at hlo
  have hm' : (2 ^ 52 + 1 : ℚ) ≤ m := by
    have : 2 ^ 52 + 1 ≤ m := by omega
    exact_mod_cast this
  push_cast at hlo
  linarith

theorem pack_of_lt {negative : Bool} {m : Nat} {e : Int} (hm : m < 2 ^ 53)
    (he : e ≤ greatestExponent) : pack negative m e = .finite negative m e := by
  have hne : m ≠ twoPow 53 := Nat.ne_of_lt hm
  simp only [pack, if_neg hne]
  rw [if_neg (by omega)]

theorem pack_twoPow {negative : Bool} {e : Int} (he : e + 1 ≤ greatestExponent) :
    pack negative (2 ^ 53) e = .finite negative (2 ^ 52) (e + 1) := by
  have heq : (2 ^ 53 : Nat) = twoPow 53 := rfl
  simp only [pack, if_pos heq]
  rw [if_neg (by omega)]
  rfl

theorem div_quarter (q : ℚ) (e : Int) : q / 2 ^ (e - 2) / 4 = q / 2 ^ e := by
  rw [zpow_sub₀ (by norm_num), div_div]
  norm_num

/-- The interval of a power of two reaches only a quarter of a place below it. -/
theorem Interval.Holds.twoPow_le {e : Int} {q : ℚ} (he : leastExponent < e)
    (h : (interval (2 ^ 52) e).Holds (q / 2 ^ (e - 2))) : (2 ^ 52 : ℚ) - 1 / 4 ≤ q / 2 ^ e := by
  have hbelow : (interval (2 ^ 52) e).below = 1 := by
    simp only [interval]
    rw [if_pos ⟨rfl, he⟩]
  have hlo := h.1
  rw [hbelow] at hlo
  rw [← div_quarter]
  norm_num [interval] at hlo ⊢
  linarith

/-- In the units of the binade below, what is that close to a power of two rounds up to it. -/
theorem nearest_of_below {e : Int} {q : ℚ} (hlo : (2 ^ 52 : ℚ) - 1 / 4 ≤ q / 2 ^ e)
    (hhi : q / 2 ^ e < 2 ^ 52) : Nearest (2 ^ 53) (q / 2 ^ (e - 1)) := by
  have hhalf : q / 2 ^ (e - 1) = 2 * (q / 2 ^ e) := by
    rw [zpow_sub₀ (by norm_num), zpow_one]
    field_simp
  rw [hhalf]
  refine ⟨?_, ?_, fun hodd => absurd hodd (by norm_num)⟩
  · norm_num at hlo ⊢
    linarith
  · norm_num at hhi ⊢
    linarith

/-- A quotient in the interval of a float rounds to it. -/
theorem ofRatio_eq (negative : Bool) {num den m : Nat} {e : Int} (hden : 0 < den)
    (hc : Canonical m e) (hm : 0 < m)
    (h : (interval m e).Holds ((num : ℚ) / den / 2 ^ (e - 2))) :
    ofRatio negative num den = .finite negative m e := by
  obtain ⟨hm53, hleast, hgreatest, hnormal⟩ := hc
  have hnear : Nearest m ((num : ℚ) / den / 2 ^ e) := by
    rw [← div_quarter]
    exact h.nearest
  have hpow : (0 : ℚ) < 2 ^ e := by positivity
  have hm1 : (1 : ℚ) ≤ m := by exact_mod_cast hm
  have hm53' : (m : ℚ) + 1 ≤ 2 ^ 53 := by exact_mod_cast hm53
  have hq : (0 : ℚ) < (num : ℚ) / den := by
    have : (0 : ℚ) < (num : ℚ) / den / 2 ^ e := by linarith [hnear.1]
    rwa [lt_div_iff₀ hpow, zero_mul] at this
  have hnum : 0 < num := by
    have hd : (0 : ℚ) < den := Nat.cast_pos.mpr hden
    rw [lt_div_iff₀ hd, zero_mul] at hq
    exact_mod_cast hq
  have hupper : (num : ℚ) / den < 2 ^ (e + 53) := by
    rw [zpow_add₀ (by norm_num), mul_comm, ← div_lt_iff₀ hpow]
    have := hnear.2.1
    norm_num at hm53' ⊢
    linarith
  simp only [ofRatio, if_neg hnum.ne']
  -- The quotient is in the binade of the float, or below all binades, or in the binade below.
  by_cases hbinade : (2 : ℚ) ^ (e + 52) ≤ (num : ℚ) / den
  · have hlog : floorLog num den = e + 52 :=
      floorLog_eq hnum hden hbinade (by rwa [add_assoc])
    have hmax : max (floorLog num den - 52) leastExponent = e := by omega
    rw [hmax, roundAt_of_nearest hden hnear, pack_of_lt hm53 hgreatest]
  · rw [not_le] at hbinade
    have hlog : floorLog num den < e + 52 := floorLog_lt hnum hden hbinade
    by_cases hsub : e = leastExponent
    · have hmax : max (floorLog num den - 52) leastExponent = e := by omega
      rw [hmax, roundAt_of_nearest hden hnear, pack_of_lt hm53 hgreatest]
    · -- The float is the power of two above the quotient, and rounding carries over to it.
      have hhi : (num : ℚ) / den / 2 ^ e < 2 ^ 52 := by
        rw [div_lt_iff₀ hpow, mul_comm]
        rwa [zpow_add₀ (by norm_num)] at hbinade
      have hx : (num : ℚ) / den / 2 ^ (e - 2) < 4 * 2 ^ 52 := by
        rw [← div_quarter] at hhi
        linarith
      have hm52 : m = 2 ^ 52 := h.eq_twoPow (hnormal.resolve_left hsub) hx
      subst hm52
      have hlo := h.twoPow_le (by omega)
      have hlog' : floorLog num den = e + 51 := by
        refine floorLog_eq hnum hden ?_ (by rwa [add_assoc])
        rw [zpow_add₀ (by norm_num), mul_comm, ← le_div_iff₀ hpow]
        norm_num at hlo ⊢
        linarith
      have hmax : max (floorLog num den - 52) leastExponent = e - 1 := by omega
      rw [hmax, roundAt_of_nearest hden (nearest_of_below hlo hhi), pack_twoPow (by omega),
        sub_add_cancel]

/-! ### Rounding a decimal number -/

theorem cast_mul_tenPow (n : Nat) {k : Int} (h : 0 ≤ k) :
    ((n * tenPow k.toNat : Nat) : ℚ) = n * 10 ^ k := by
  lift k to ℕ using h
  simp [tenPow]

theorem largest_lt_tenPow : (2 : ℚ) ^ (1024 : Int) < 10 ^ (309 : Int) := by
  have h : 2 ^ 1024 < 10 ^ 309 := by decide +kernel
  exact_mod_cast h

theorem tenPow_lt_smallest : (10 : ℚ) ^ (-324 : Int) < 2 ^ (-1075 : Int) := by
  have h : 2 ^ 1075 < 10 ^ 324 := by decide +kernel
  have h' : (2 : ℚ) ^ (1075 : Int) < 10 ^ (324 : Int) := by exact_mod_cast h
  rw [zpow_neg, zpow_neg]
  exact inv_strictAnti₀ (by positivity) h'

/-- The leading digit of a decimal number gives its order of magnitude. -/
theorem scaled_bounds {coefficient : Nat} (exponent : Int) (h : coefficient ≠ 0) :
    (10 : ℚ) ^ ((Text.digitCount coefficient : Int) + exponent - 1) ≤ coefficient * 10 ^ exponent ∧
      (coefficient : ℚ) * 10 ^ exponent < 10 ^ ((Text.digitCount coefficient : Int) + exponent) := by
  have hcount : 1 ≤ Text.digitCount coefficient := Nat.length_toDigits_pos
  have hpow : (0 : ℚ) < 10 ^ exponent := by positivity
  constructor
  · have hle : ((10 ^ (Text.digitCount coefficient - 1) : Nat) : ℚ) ≤ coefficient := by
      exact_mod_cast Text.pow_digitCount_le h
    calc (10 : ℚ) ^ ((Text.digitCount coefficient : Int) + exponent - 1)
        = ((10 ^ (Text.digitCount coefficient - 1) : Nat) : ℚ) * 10 ^ exponent := by
          rw [Nat.cast_pow, ← zpow_natCast, Nat.cast_ofNat, ← zpow_add₀ (by norm_num)]
          congr 1
          omega
      _ ≤ coefficient * 10 ^ exponent := mul_le_mul_of_nonneg_right hle hpow.le
  · have hlt : (coefficient : ℚ) < ((10 ^ Text.digitCount coefficient : Nat) : ℚ) := by
      exact_mod_cast Text.lt_pow_digitCount coefficient
    calc (coefficient : ℚ) * 10 ^ exponent
        < ((10 ^ Text.digitCount coefficient : Nat) : ℚ) * 10 ^ exponent :=
          mul_lt_mul_of_pos_right hlt hpow
      _ = 10 ^ ((Text.digitCount coefficient : Int) + exponent) := by
        rw [Nat.cast_pow, ← zpow_natCast, Nat.cast_ofNat, ← zpow_add₀ (by norm_num)]

/-- Outside the two shortcuts, a decimal number is rounded as a quotient. -/
theorem exists_ofRatio (negative : Bool) {coefficient : Nat} (exponent : Int)
    (hne : coefficient ≠ 0) (hhi : (Text.digitCount coefficient : Int) + exponent ≤ 310)
    (hlo : -330 ≤ (Text.digitCount coefficient : Int) + exponent) :
    ∃ num den : Nat, 0 < den ∧ (num : ℚ) / den = coefficient * 10 ^ exponent ∧
      ofScaled negative coefficient exponent = ofRatio negative num den := by
  simp only [ofScaled]
  rw [if_neg hne, if_neg (by omega), if_neg (by omega)]
  split
  · rename_i hexp
    refine ⟨coefficient * tenPow exponent.toNat, 1, Nat.one_pos, ?_, rfl⟩
    rw [cast_mul_tenPow _ hexp, Nat.cast_one, div_one]
  · rename_i hexp
    have hden : ((tenPow (-exponent).toNat : Nat) : ℚ) = 10 ^ (-exponent) := by
      simpa using cast_mul_tenPow 1 (show 0 ≤ -exponent by omega)
    refine ⟨coefficient, tenPow (-exponent).toNat, Nat.pow_pos (by decide), ?_, rfl⟩
    rw [hden, zpow_neg, div_inv_eq_mul]

/-- What rounds to a positive float is between half the smallest and the end of the largest. -/
theorem Interval.Holds.bounds {m : Nat} {e : Int} {q : ℚ} (hc : Canonical m e) (hm : 0 < m)
    (h : (interval m e).Holds (q / 2 ^ (e - 2))) :
    (2 : ℚ) ^ (-1075 : Int) ≤ q ∧ q < 2 ^ (1024 : Int) := by
  have hpow : (0 : ℚ) < 2 ^ e := by positivity
  have hnear : Nearest m (q / 2 ^ e) := by
    rw [← div_quarter]
    exact h.nearest
  have hm1 : (1 : ℚ) ≤ m := by exact_mod_cast hm
  have hm53 : (m : ℚ) + 1 ≤ 2 ^ 53 := by exact_mod_cast hc.1
  have hleast : -1074 ≤ e := hc.2.1
  have hgreatest : e ≤ 971 := hc.2.2.1
  constructor
  · calc (2 : ℚ) ^ (-1075 : Int) ≤ 2 ^ (e - 1) :=
          zpow_le_zpow_right₀ (by norm_num) (by omega)
      _ = 1 / 2 * 2 ^ e := by
        rw [zpow_sub₀ (by norm_num), zpow_one]
        ring
      _ ≤ q := by
        rw [← le_div_iff₀ hpow]
        linarith [hnear.1]
  · calc q < 2 ^ 53 * 2 ^ e := by
          rw [← div_lt_iff₀ hpow]
          linarith [hnear.2.1]
      _ = 2 ^ (e + 53) := by
        rw [zpow_add₀ (by norm_num), mul_comm]
        norm_num
      _ ≤ 2 ^ (1024 : Int) := zpow_le_zpow_right₀ (by norm_num) (by omega)

/-- **Correct rounding.**  A decimal number in the interval of a float rounds to it. -/
theorem ofScaled_eq (negative : Bool) {coefficient m : Nat} {exponent e : Int}
    (hc : Canonical m e) (hm : 0 < m)
    (h : (interval m e).Holds ((coefficient : ℚ) * 10 ^ exponent / 2 ^ (e - 2))) :
    ofScaled negative coefficient exponent = .finite negative m e := by
  obtain ⟨hlower, hupper⟩ := h.bounds hc hm
  have hne : coefficient ≠ 0 := by
    rintro rfl
    have : (0 : ℚ) < 2 ^ (-1075 : Int) := by positivity
    rw [Nat.cast_zero, zero_mul] at hlower
    linarith
  obtain ⟨hfirst, hlast⟩ := scaled_bounds exponent hne
  -- So neither of the two shortcuts for huge and tiny numbers is taken.
  have htop : (Text.digitCount coefficient : Int) + exponent - 1 < 309 :=
    (zpow_lt_zpow_iff_right₀ (by norm_num : (1 : ℚ) < 10)).mp
      (hfirst.trans_lt (hupper.trans largest_lt_tenPow))
  have hbottom : -324 < (Text.digitCount coefficient : Int) + exponent :=
    (zpow_lt_zpow_iff_right₀ (by norm_num : (1 : ℚ) < 10)).mp
      (tenPow_lt_smallest.trans (hlower.trans_lt hlast))
  obtain ⟨num, den, hden, hq, hratio⟩ := exists_ofRatio negative exponent hne (by omega) (by omega)
  rw [hratio]
  exact ofRatio_eq negative hden hc hm (by rwa [hq])

end Rollout.Binary64
