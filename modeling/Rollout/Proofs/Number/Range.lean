/-
The range of floats.

A number rounds to an infinity exactly if it is at least half a place above the largest float.
On that very middle the tie goes up, because the mantissa of the largest float is odd.  Below it
every number rounds to a finite float and lies in the interval of that float.  The two shortcuts
for huge and for tiny decimal numbers keep to the same limit.

* `limit` — the least number that rounds to an infinity;
* `RoundsTo` — the finite float that a number rounds to;
* `roundsTo_ofRatio`, `ofRatio_of_limit_le` — quotients below the limit and from it on;
* `roundsTo_ofInt`, `Scientific.roundsTo_toBinary64` — integers and decimal numbers in range.
-/
import Mathlib.Algebra.Order.AbsoluteValue.Basic
import Rollout.Proofs.Number.Rounding

namespace Rollout.Binary64

/-- The least number that rounds to an infinity, half a place above the largest float. -/
def limit : ℚ := 2 ^ 1024 - 2 ^ 970

/-- A number rounds to a finite float if it lies in the interval of the float and has its sign, of
which zero has none. -/
inductive RoundsTo (q : ℚ) : Binary64 → Prop
  | finite {negative : Bool} {m : Nat} {e : Int} (hsign : q ≠ 0 → negative = decide (q < 0))
      (hc : Canonical m e) (hq : (interval m e).Holds (|q| / 2 ^ (e - 2))) :
      RoundsTo q (.finite negative m e)

theorem RoundsTo.isFinite {q : ℚ} {x : Binary64} (h : RoundsTo q x) : x.isFinite = true := by
  cases h
  rfl

/-- The integer part of a float has few digits. -/
theorem RoundsTo.digitCount_truncate?_le {q : ℚ} {x : Binary64} (h : RoundsTo q x) {k : Int}
    (hk : x.truncate? = some k) : Text.digitCount k.natAbs ≤ 309 := by
  have hpow : ∀ k ≤ 1024, 2 ^ k < 10 ^ 309 := fun k hk =>
    (Nat.pow_le_pow_right (by decide) hk).trans_lt (by decide +kernel)
  refine Text.digitCount_le (by decide) ?_
  cases h with
  | @finite negative m e _ hc _ =>
    obtain ⟨hm, -, he, -⟩ := hc
    rw [truncate?, Option.some.injEq] at hk
    rw [← hk, Numeral.natAbs_signed]
    split
    · have hexp : 53 + e.toNat ≤ 1024 := by
        rw [greatestExponent] at he
        omega
      refine lt_trans ?_ (hpow _ hexp)
      rw [Nat.pow_add]
      exact (Nat.mul_lt_mul_right (Nat.two_pow_pos _)).mpr hm
    · exact (Nat.div_le_self _ _).trans_lt (hm.trans (hpow 53 (by decide)))

/-! ### Rounding finds a nearest number -/

theorem nearest_roundDiv (num : Nat) {den : Nat} (hden : 0 < den) :
    Nearest (roundDiv num den) ((num : ℚ) / den) := by
  rw [nearest_div_iff hden]
  have hnum := Nat.div_add_mod num den
  have hrest := Nat.mod_lt num hden
  rw [Nat.mul_comm] at hnum
  simp only [roundDiv]
  set whole := num / den
  set rest := num % den
  split
  · rename_i hup
    rw [Nat.add_mul]
    omega
  · rename_i hdown
    omega

theorem nearest_roundAt (num : Nat) {den : Nat} (k : Int) (hden : 0 < den) :
    Nearest (roundAt num den k) ((num : ℚ) / den / 2 ^ k) := by
  obtain ⟨a, b, hb, hround, hquotient⟩ := exists_roundDiv num k hden
  rw [hround, ← hquotient]
  exact nearest_roundDiv a hb

/-- A mantissa rounded in a binade is full at most. -/
theorem Nearest.le_twoPow {m : Nat} {x : ℚ} (h : Nearest m x) (hx : x < 2 ^ 53) : m ≤ 2 ^ 53 := by
  have hlo := h.1
  have hm : (m : ℚ) < 2 ^ 53 + 1 := by linarith
  have hm' : m < 2 ^ 53 + 1 := by exact_mod_cast hm
  omega

/-- Rounding fills a mantissa up from half a place below on: the tie is to be even. -/
theorem Nearest.eq_twoPow_iff {m : Nat} {x : ℚ} (h : Nearest m x) (hx : x < 2 ^ 53) :
    m = 2 ^ 53 ↔ 2 ^ 53 - 1 / 2 ≤ x := by
  obtain ⟨hlo, hhi, hodd⟩ := h
  constructor
  · intro hm
    rw [hm] at hlo
    exact_mod_cast hlo
  · intro hle
    have hupper := Nearest.le_twoPow ⟨hlo, hhi, hodd⟩ hx
    have hm : ((2 ^ 53 - 1 : Nat) : ℚ) ≤ m := by
      push_cast
      linarith
    have hm' : 2 ^ 53 - 1 ≤ m := by exact_mod_cast hm
    by_contra hne
    obtain rfl : m = 2 ^ 53 - 1 := by omega
    have := (hodd (by norm_num)).2
    norm_num at this hle
    linarith

/-- A nearest mantissa has a number in its interval, if the binade of a power of two is its own. -/
theorem Nearest.holds {m : Nat} {e : Int} {q : ℚ} (h : Nearest m (q / 2 ^ e))
    (hbinade : m = 2 ^ 52 → leastExponent < e → 2 ^ 52 ≤ q / 2 ^ e) :
    (interval m e).Holds (q / 2 ^ (e - 2)) := by
  obtain ⟨hlo, hhi, hodd⟩ := h
  rw [← div_quarter] at hlo hhi hodd hbinade
  generalize q / 2 ^ (e - 2) = x at hlo hhi hodd hbinade ⊢
  have hvalue : ((interval m e).value : ℚ) = 4 * m := by simp [interval]
  have habove : ((interval m e).above : ℚ) = 2 := by simp [interval]
  have hclosed : (interval m e).closed = false → m % 2 = 1 := by
    intro hopen
    simpa [interval] using hopen
  have hbelow : (interval m e).below = 2 ∨ (interval m e).below = 1 ∧ (4 * m : ℚ) ≤ x := by
    by_cases hedge : m = 2 ^ 52 ∧ leastExponent < e
    · right
      refine ⟨if_pos hedge, ?_⟩
      have hge := hbinade hedge.1 hedge.2
      rw [hedge.1]
      push_cast
      linarith
    · exact .inl (if_neg hedge)
  rw [Interval.Holds, hvalue, habove]
  rcases hbelow with htwo | ⟨hone, hge⟩
  · rw [htwo]
    push_cast
    refine ⟨by linarith, by linarith, fun hopen => ?_⟩
    obtain ⟨hlo', hhi'⟩ := hodd (hclosed hopen)
    exact ⟨by linarith, by linarith⟩
  · rw [hone]
    push_cast
    refine ⟨by linarith, by linarith, fun hopen => ?_⟩
    obtain ⟨hlo', hhi'⟩ := hodd (hclosed hopen)
    exact ⟨by linarith, by linarith⟩

/-- A full mantissa carries over to a power of two, whose interval is wide enough below it. -/
theorem holds_twoPow {e : Int} {q : ℚ} (hlo : 2 ^ 53 - 1 / 2 ≤ q / 2 ^ e)
    (hhi : q / 2 ^ e < 2 ^ 53) : (interval (2 ^ 52) (e + 1)).Holds (q / 2 ^ (e + 1 - 2)) := by
  have hunit : q / 2 ^ (e + 1 - 2) = 2 * (q / 2 ^ e) := by
    rw [show e + 1 - 2 = e - 1 by ring, zpow_sub₀ (by norm_num), zpow_one]
    field_simp
  have hbelow : (1 : ℚ) ≤ (interval (2 ^ 52) (e + 1)).below := by
    simp only [interval]
    split <;> norm_num
  rw [hunit]
  generalize q / 2 ^ e = x at hlo hhi
  refine ⟨?_, ?_, fun hopen => ?_⟩
  · norm_num [interval] at hlo hbelow ⊢
    linarith
  · norm_num [interval] at hhi ⊢
    linarith
  · cases hopen

/-! ### Packing -/

theorem roundsTo_pack {negative : Bool} {m : Nat} {e : Int} {q : ℚ}
    (hsign : q ≠ 0 → negative = decide (q < 0)) (hnear : Nearest m (|q| / 2 ^ e))
    (hleast : leastExponent ≤ e) (hgreatest : e ≤ greatestExponent)
    (hfull : e = greatestExponent → m ≠ 2 ^ 53) (hhi : |q| / 2 ^ e < 2 ^ 53)
    (hlo : leastExponent < e → 2 ^ 52 ≤ |q| / 2 ^ e) : RoundsTo q (pack negative m e) := by
  have hle := hnear.le_twoPow hhi
  by_cases hm : m = 2 ^ 53
  · have he : e + 1 ≤ greatestExponent := by
      have hne : e ≠ greatestExponent := fun heq => hfull heq hm
      omega
    rw [hm, pack_twoPow he]
    have hcarry := (hnear.eq_twoPow_iff hhi).mp hm
    refine .finite hsign ⟨by norm_num, by omega, he, .inr le_rfl⟩ (holds_twoPow hcarry hhi)
  · rw [pack_of_lt (lt_of_le_of_ne hle hm) hgreatest]
    refine .finite hsign ⟨lt_of_le_of_ne hle hm, hleast, hgreatest, ?_⟩
      (hnear.holds fun _ he => hlo he)
    by_cases he : e = leastExponent
    · exact .inl he
    · right
      have hq := hlo (lt_of_le_of_ne hleast (Ne.symm he))
      have hm' : (2 ^ 52 : ℚ) < m + 1 := by linarith [hnear.2.1]
      have hm'' : 2 ^ 52 < m + 1 := by exact_mod_cast hm'
      omega

theorem pack_eq_infinity (negative : Bool) {m : Nat} {e : Int}
    (h : greatestExponent < e ∨ e = greatestExponent ∧ m = 2 ^ 53) :
    pack negative m e = .infinity negative := by
  have htwo : twoPow 53 = 2 ^ 53 := rfl
  simp only [pack, htwo]
  by_cases hfull : m = 2 ^ 53
  · rw [if_pos hfull]
    rw [if_pos (by show greatestExponent < e + 1; omega)]
  · rw [if_neg hfull]
    rw [if_pos (by show greatestExponent < e; omega)]

/-! ### Quotients -/

theorem zpow_add_places (e : Int) (n : Nat) : (2 : ℚ) ^ (e + n) = 2 ^ n * 2 ^ e := by
  rw [zpow_add₀ (by norm_num), zpow_natCast, mul_comm]

theorem div_lt_places (q : ℚ) (e : Int) (n : Nat) : q / 2 ^ e < 2 ^ n ↔ q < 2 ^ (e + n) := by
  rw [zpow_add_places, div_lt_iff₀ (by positivity)]

theorem le_div_places (q : ℚ) (e : Int) (n : Nat) : 2 ^ n ≤ q / 2 ^ e ↔ 2 ^ (e + n) ≤ q := by
  rw [zpow_add_places, le_div_iff₀ (by positivity)]

/-- The limit in units of the last place of the largest floats. -/
theorem limit_eq : limit = (2 ^ 53 - 1 / 2) * 2 ^ greatestExponent := by
  have hgreatest : (2 : ℚ) ^ greatestExponent = 2 ^ 971 := zpow_natCast 2 971
  have htop : (2 : ℚ) ^ 1024 = 2 ^ 53 * 2 ^ 971 := pow_add 2 53 971
  have hhalf : (2 : ℚ) ^ 971 = 2 ^ 970 * 2 := pow_succ 2 970
  rw [hgreatest, limit, htop, hhalf]
  generalize (2 : ℚ) ^ 970 = half
  ring

theorem limit_lt : limit < 2 ^ (greatestExponent + 53) := by
  have hpow : (0 : ℚ) < 2 ^ greatestExponent := by positivity
  rw [limit_eq]
  refine lt_of_lt_of_eq (mul_lt_mul_of_pos_right ?_ hpow) (zpow_add_places _ 53).symm
  norm_num

theorem le_limit : (2 : ℚ) ^ (greatestExponent + 52) ≤ limit := by
  have hpow : (0 : ℚ) < 2 ^ greatestExponent := by positivity
  rw [limit_eq]
  refine (zpow_add_places _ 52).trans_le (mul_le_mul_of_nonneg_right ?_ hpow.le)
  norm_num

/-- No float is near a number of more than 309 digits. -/
theorem limit_le_tenPow {n : Nat} (h : 309 ≤ n) : limit ≤ 10 ^ n := by
  calc limit ≤ 10 ^ (309 : Int) := (limit_lt.trans largest_lt_tenPow).le
    _ = 10 ^ 309 := zpow_natCast 10 309
    _ ≤ 10 ^ n := pow_le_pow_right₀ (by norm_num) h

/-- A quotient is rounded in its binade, or in the lowest one if it is below them all. -/
theorem exists_pack (negative : Bool) {num den : Nat} (hnum : 0 < num) (hden : 0 < den) :
    ∃ e, ofRatio negative num den = pack negative (roundAt num den e) e ∧ leastExponent ≤ e ∧
      (num : ℚ) / den / 2 ^ e < 2 ^ 53 ∧
      (leastExponent < e → 2 ^ 52 ≤ (num : ℚ) / den / 2 ^ e) := by
  obtain ⟨hlo, hhi⟩ := floorLog_spec hnum hden
  refine ⟨max (floorLog num den - 52) leastExponent, ?_, le_max_right _ _, ?_, ?_⟩
  · rw [ofRatio, if_neg hnum.ne']
  · refine (div_lt_places _ _ 53).mpr (hhi.trans_le (zpow_le_zpow_right₀ (by norm_num) ?_))
    push_cast
    omega
  · intro hlt
    refine (le_div_places _ _ 52).mpr (hlo.trans' (zpow_le_zpow_right₀ (by norm_num) ?_))
    push_cast
    omega

/-- In the last binade, the mantissa of a quotient is full from the limit on. -/
theorem roundAt_eq_twoPow_iff {num den : Nat} (hden : 0 < den)
    (hhi : (num : ℚ) / den / 2 ^ greatestExponent < 2 ^ 53) :
    roundAt num den greatestExponent = 2 ^ 53 ↔ limit ≤ (num : ℚ) / den := by
  have hpow : (0 : ℚ) < 2 ^ greatestExponent := by positivity
  rw [(nearest_roundAt num greatestExponent hden).eq_twoPow_iff hhi, le_div_iff₀ hpow, limit_eq]

/-- Up to half of the smallest float, a number rounds to zero: the tie is to be even. -/
theorem roundsTo_zero {negative : Bool} {q : ℚ} (hsign : q ≠ 0 → negative = decide (q < 0))
    (hq : |q| ≤ 2 ^ (leastExponent - 1)) : RoundsTo q (zero negative) := by
  have hpow : (0 : ℚ) < 2 ^ leastExponent := by positivity
  have hlo : 0 ≤ |q| / 2 ^ leastExponent := by positivity
  have hhi : |q| / 2 ^ leastExponent ≤ 1 / 2 := by
    rw [div_le_iff₀ hpow]
    refine hq.trans_eq ?_
    rw [zpow_sub₀ (by norm_num), zpow_one]
    ring
  have hnear : Nearest 0 (|q| / 2 ^ leastExponent) := by
    refine ⟨?_, ?_, fun hodd => absurd hodd (by decide)⟩
    · rw [Nat.cast_zero]
      linarith
    · rw [Nat.cast_zero]
      linarith
  exact .finite hsign ⟨by norm_num, le_rfl, by decide, .inl rfl⟩
    (hnear.holds fun hzero => absurd hzero (by norm_num))

theorem roundsTo_ofRatio {negative : Bool} {num den : Nat} {q : ℚ}
    (hsign : q ≠ 0 → negative = decide (q < 0)) (hden : 0 < den) (hq : |q| = (num : ℚ) / den)
    (h : |q| < limit) : RoundsTo q (ofRatio negative num den) := by
  by_cases hnum : num = 0
  · rw [ofRatio, if_pos hnum]
    apply roundsTo_zero hsign
    rw [hq, hnum, Nat.cast_zero, zero_div]
    positivity
  obtain ⟨e, hpack, hleast, hhi, hlo⟩ := exists_pack negative (Nat.pos_of_ne_zero hnum) hden
  have hnear := nearest_roundAt num e hden
  have he : e ≤ greatestExponent := by
    by_contra hgt
    have hbetween : leastExponent < greatestExponent := by decide
    have hlarge := (le_div_places _ _ 52).mp (hlo (by omega))
    have hpow : (2 : ℚ) ^ (greatestExponent + 53) ≤ 2 ^ (e + (52 : Nat)) :=
      zpow_le_zpow_right₀ (by norm_num) (by push_cast; omega)
    rw [hq] at h
    exact absurd (hpow.trans hlarge) (not_le.mpr (h.trans limit_lt))
  rw [hpack]
  rw [← hq] at hnear hhi hlo
  refine roundsTo_pack hsign hnear hleast he ?_ hhi hlo
  rintro rfl hfull
  rw [hq] at hhi h
  exact absurd ((roundAt_eq_twoPow_iff hden hhi).mp hfull) (not_le.mpr h)

theorem ofRatio_of_limit_le (negative : Bool) {num den : Nat} (hden : 0 < den)
    (h : limit ≤ (num : ℚ) / den) : ofRatio negative num den = .infinity negative := by
  have hnum : num ≠ 0 := by
    rintro rfl
    have hpos : (0 : ℚ) < 2 ^ (greatestExponent + 52) := by positivity
    have hzero := hpos.trans_le (le_limit.trans h)
    simp at hzero
  obtain ⟨e, hpack, -, hhi, -⟩ := exists_pack negative (Nat.pos_of_ne_zero hnum) hden
  have he : greatestExponent ≤ e := by
    have hlt := (le_limit.trans h).trans_lt ((div_lt_places _ _ 53).mp hhi)
    have := (zpow_lt_zpow_iff_right₀ (by norm_num : (1 : ℚ) < 2)).mp hlt
    push_cast at this
    omega
  rw [hpack]
  apply pack_eq_infinity
  obtain hlt | rfl := he.lt_or_eq
  · exact .inl hlt
  · exact .inr ⟨rfl, (roundAt_eq_twoPow_iff hden hhi).mpr h⟩

theorem abs_eq_natAbs_div (n : Int) : |(n : ℚ)| = (n.natAbs : ℚ) / (1 : Nat) := by
  rw [Nat.cast_one, div_one, Nat.cast_natAbs, Int.cast_abs]

theorem roundsTo_ofInt {n : Int} (h : |(n : ℚ)| < limit) : RoundsTo n (ofInt n) := by
  have hsign : decide (n < 0) = decide ((n : ℚ) < 0) :=
    decide_eq_decide.mpr Int.cast_lt_zero.symm
  exact roundsTo_ofRatio (fun _ => hsign) Nat.one_pos (abs_eq_natAbs_div n) h

theorem isFinite_ofInt_iff (n : Int) : (ofInt n).isFinite = true ↔ |(n : ℚ)| < limit := by
  constructor
  · intro h
    by_contra hle
    rw [not_lt, abs_eq_natAbs_div] at hle
    rw [ofInt, ofRatio_of_limit_le _ Nat.one_pos hle] at h
    cases h
  · intro h
    exact (roundsTo_ofInt h).isFinite

/-! ### Decimal numbers -/

theorem roundsTo_ofScaled {negative : Bool} {coefficient : Nat} {exponent : Int} {q : ℚ}
    (hsign : q ≠ 0 → negative = decide (q < 0)) (hq : |q| = coefficient * 10 ^ exponent)
    (h : |q| < limit) : RoundsTo q (ofScaled negative coefficient exponent) := by
  by_cases hne : coefficient = 0
  · rw [ofScaled, if_pos hne]
    apply roundsTo_zero hsign
    rw [hq, hne, Nat.cast_zero, zero_mul]
    positivity
  obtain ⟨hfirst, hlast⟩ := scaled_bounds exponent hne
  rw [← hq] at hfirst hlast
  have htop : (Text.digitCount coefficient : Int) + exponent ≤ 309 := by
    have hlt := (hfirst.trans_lt (h.trans limit_lt)).trans largest_lt_tenPow
    have := (zpow_lt_zpow_iff_right₀ (by norm_num : (1 : ℚ) < 10)).mp hlt
    omega
  by_cases hbottom : (Text.digitCount coefficient : Int) + exponent < -330
  · simp only [ofScaled]
    rw [if_neg hne, if_neg (by omega), if_pos hbottom]
    apply roundsTo_zero hsign
    calc |q| ≤ 10 ^ ((Text.digitCount coefficient : Int) + exponent) := hlast.le
      _ ≤ 10 ^ (-324 : Int) := zpow_le_zpow_right₀ (by norm_num) (by omega)
      _ ≤ 2 ^ (leastExponent - 1) := tenPow_lt_smallest.le
  · obtain ⟨num, den, hden, hratio, hscaled⟩ :=
      exists_ofRatio negative exponent hne (by omega) (not_lt.mp hbottom)
    rw [hscaled]
    exact roundsTo_ofRatio hsign hden (hq.trans hratio.symm) h

theorem one_le_limit : 1 ≤ limit :=
  (one_le_zpow₀ (by norm_num) (by decide)).trans le_limit

theorem ofScaled_of_limit_le (negative : Bool) {coefficient : Nat} {exponent : Int}
    (h : limit ≤ (coefficient : ℚ) * 10 ^ exponent) :
    ofScaled negative coefficient exponent = .infinity negative := by
  have hpos : (1 : ℚ) ≤ coefficient * 10 ^ exponent := one_le_limit.trans h
  have hne : coefficient ≠ 0 := by
    rintro rfl
    rw [Nat.cast_zero, zero_mul] at hpos
    linarith
  by_cases htop : 310 < (Text.digitCount coefficient : Int) + exponent
  · simp only [ofScaled]
    rw [if_neg hne, if_pos htop]
  · have hbottom : 0 < (Text.digitCount coefficient : Int) + exponent := by
      have hlt := hpos.trans_lt (scaled_bounds exponent hne).2
      rw [← zpow_zero (10 : ℚ)] at hlt
      exact (zpow_lt_zpow_iff_right₀ (by norm_num)).mp hlt
    obtain ⟨num, den, hden, hq, hratio⟩ :=
      exists_ofRatio negative exponent hne (not_lt.mp htop) (by omega)
    rw [hratio]
    exact ofRatio_of_limit_le negative hden (by rwa [hq])

theorem abs_signed (negative : Bool) (size : Nat) : |(signed negative size : ℚ)| = size := by
  cases negative with
  | false => simp [signed]
  | true => simp [signed]

end Rollout.Binary64

namespace Rollout.Numeral.Scientific

open Rollout.Binary64

/-- The exact number that a decimal numeral denotes. -/
def value (n : Scientific) : ℚ := (signed n.negative n.coefficient : ℚ) * 10 ^ n.exponent

theorem abs_value (n : Scientific) : |n.value| = n.coefficient * 10 ^ n.exponent := by
  have hpow : (0 : ℚ) < 10 ^ n.exponent := by positivity
  rw [value, abs_mul, abs_signed, abs_of_pos hpow]

/-- Of any number but zero, the sign says whether it is negative. -/
theorem decide_value_neg {n : Scientific} (h : n.value ≠ 0) :
    decide (n.value < 0) = n.negative := by
  obtain ⟨negative, coefficient, exponent⟩ := n
  have hsize : (0 : ℚ) ≤ coefficient * 10 ^ exponent := by positivity
  cases negative with
  | false =>
    have hvalue : value ⟨false, coefficient, exponent⟩ = coefficient * 10 ^ exponent := by
      simp [value, signed]
    rw [hvalue, decide_eq_false (not_lt.mpr hsize)]
  | true =>
    have hvalue : value ⟨true, coefficient, exponent⟩ = -(coefficient * 10 ^ exponent) := by
      simp [value, signed]
    rw [decide_eq_true (lt_of_le_of_ne ?_ h)]
    rw [hvalue]
    exact neg_nonpos.mpr hsize

theorem roundsTo_toBinary64 {n : Scientific} (h : |n.value| < limit) :
    RoundsTo n.value n.toBinary64 :=
  roundsTo_ofScaled (fun hne => (decide_value_neg hne).symm) n.abs_value h

theorem value_ne_zero {n : Scientific} (h : limit ≤ |n.value|) : n.value ≠ 0 := by
  intro hzero
  rw [hzero, abs_zero] at h
  linarith [one_le_limit]

/-- A numeral from the limit on is an infinity of its sign. -/
theorem toBinary64_of_limit_le {n : Scientific} (h : limit ≤ |n.value|) :
    n.toBinary64 = .infinity (decide (n.value < 0)) := by
  rw [decide_value_neg (value_ne_zero h)]
  rw [abs_value] at h
  rw [toBinary64, ofScaled_of_limit_le n.negative h]

/-- The integer part of the float of a numeral has few digits. -/
theorem digitCount_truncate?_le {n : Scientific} {k : Int} (h : n.toBinary64.truncate? = some k) :
    Text.digitCount k.natAbs ≤ 309 := by
  rcases lt_or_ge |n.value| limit with hlt | hge
  · exact (roundsTo_toBinary64 hlt).digitCount_truncate?_le h
  · rw [toBinary64_of_limit_le hge] at h
    cases h

end Rollout.Numeral.Scientific
