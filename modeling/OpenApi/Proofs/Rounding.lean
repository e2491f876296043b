import Mathlib.Algebra.Order.Field.Power
import Mathlib.Algebra.Order.Field.Rat
import Mathlib.Tactic.FieldSimp
import Mathlib.Tactic.Linarith
import Mathlib.Tactic.Ring
import OpenApi.Number.Double

/-
Rounding to doubles.

A positive double has an interval of numbers around it that are all read as that double
(`ofQuotient_of_near`).  Between two doubles of one binade the intervals meet half way, where the
even mantissa has the end; below a power of two the units are half as wide, and so is that part of
the interval.
-/
namespace OpenApi.Double

/-! ### Powers and units -/

theorem pow_toNat_div (base : ℚ) (e : Int) :
    base ^ e.toNat / base ^ (-e).toNat = base ^ e := by
  cases e with
  | ofNat n =>
    have hneg : (-(Int.ofNat n)).toNat = 0 := by simp
    rw [hneg, pow_zero, div_one]
    exact (zpow_natCast base n).symm
  | negSucc n =>
    have hpos : (Int.negSucc n).toNat = 0 := rfl
    have hneg : (-(Int.negSucc n)).toNat = n + 1 := rfl
    rw [hpos, hneg, pow_zero, zpow_negSucc, one_div]

theorem two_zpow_pos (e : Int) : (0 : ℚ) < 2 ^ e := zpow_pos two_pos e

theorem two_zpow_add_one (e : Int) : (2 : ℚ) ^ (e + 1) = 2 * 2 ^ e := by
  rw [zpow_add_one₀ two_ne_zero, mul_comm]

theorem two_zpow_lt_iff {a b : Int} : (2 : ℚ) ^ a < 2 ^ b ↔ a < b := zpow_lt_zpow_iff_right₀ one_lt_two

/-- Two to a small power, in front of an unknown one. -/
theorem two_zpow_add (n : Nat) (e : Int) : (2 : ℚ) ^ (e + n) = 2 ^ n * 2 ^ e := by
  rw [zpow_add₀ two_ne_zero, zpow_natCast, mul_comm]

theorem inUnits_den_pos {den : Nat} (num : Nat) (hden : 0 < den) (e : Int) :
    0 < (inUnits num den e).2 := Nat.mul_pos hden (Nat.pow_pos Nat.two_pos)

theorem inUnits_eq (num den : Nat) (e : Int) :
    ((inUnits num den e).1 : ℚ) / (inUnits num den e).2 = num / den / 2 ^ e := by
  simp only [inUnits, Nat.pow_eq, Nat.cast_mul, Nat.cast_pow, Nat.cast_ofNat]
  rw [← pow_toNat_div 2 e]
  field_simp

/-- The unit of a number: it is less than 54 bits wide in it, and not less than 53. -/
theorem unitExponent_cases {num den : Nat} (hnum : 0 < num) (hden : 0 < den) :
    ∃ unit : Int, 2 ^ 52 * 2 ^ unit ≤ (num / den : ℚ) ∧ (num / den : ℚ) < 2 ^ 53 * 2 ^ unit ∧
      unitExponent num den = max unit (-1074) := by
  have hden' : (0 : ℚ) < den := Nat.cast_pos.mpr hden
  have hnum' : (0 : ℚ) < num := Nat.cast_pos.mpr hnum
  obtain ⟨a, ha⟩ : ∃ a, a = Nat.log2 num := ⟨_, rfl⟩
  obtain ⟨b, hb⟩ : ∃ b, b = Nat.log2 den := ⟨_, rfl⟩
  have hnumLow : (2 ^ a : ℚ) ≤ num := by
    rw [ha]; exact_mod_cast Nat.log2_self_le hnum.ne'
  have hnumHigh : (num : ℚ) < 2 * 2 ^ a := by
    rw [ha, ← pow_succ']; exact_mod_cast Nat.lt_log2_self
  have hdenLow : (2 ^ b : ℚ) ≤ den := by
    rw [hb]; exact_mod_cast Nat.log2_self_le hden.ne'
  have hdenHigh : (den : ℚ) < 2 * 2 ^ b := by
    rw [hb, ← pow_succ']; exact_mod_cast Nat.lt_log2_self
  obtain ⟨guess, hguess⟩ : ∃ guess : Int, guess = (a : Int) - b - 53 := ⟨_, rfl⟩
  have hunit : (2 : ℚ) ^ b * (2 ^ 53 * 2 ^ guess) = 2 ^ a := by
    rw [hguess, ← zpow_natCast, ← zpow_natCast 2 53, ← zpow_natCast, ← zpow_add₀ two_ne_zero,
      ← zpow_add₀ two_ne_zero]
    congr 1
    push_cast
    ring
  have hpos := two_zpow_pos guess
  -- In the guessed unit the number is between 2 ^ 52 and 2 ^ 54.
  have hlow : 2 ^ 52 * 2 ^ guess ≤ (num / den : ℚ) := by
    rw [le_div_iff₀ hden']
    nlinarith
  have hhigh : (num / den : ℚ) < 2 ^ 54 * 2 ^ guess := by
    rw [div_lt_iff₀ hden']
    nlinarith
  have hquotient := inUnits_eq num den guess
  have hd : (0 : ℚ) < (inUnits num den guess).2 := Nat.cast_pos.mpr (inUnits_den_pos num hden guess)
  have hsmall : (inUnits num den guess).1 / (inUnits num den guess).2 < 2 * leastFull ↔
      (num / den : ℚ) < 2 ^ 53 * 2 ^ guess := by
    rw [Nat.div_lt_iff_lt_mul (inUnits_den_pos num hden guess), ← Nat.cast_lt (α := ℚ),
      Nat.cast_mul, ← div_lt_iff₀ hd, hquotient, div_lt_iff₀ hpos]
    have hfull : ((2 * leastFull : Nat) : ℚ) = 2 ^ 53 := by norm_num [leastFull]
    rw [hfull]
  have hexponent : unitExponent num den =
      max (if (inUnits num den guess).1 / (inUnits num den guess).2 < 2 * leastFull then guess
        else guess + 1) (-1074) := by
    rw [unitExponent, ← ha, ← hb, ← hguess]
  by_cases h : (num / den : ℚ) < 2 ^ 53 * 2 ^ guess
  · exact ⟨guess, hlow, h, by rw [hexponent, if_pos (hsmall.mpr h)]⟩
  · refine ⟨guess + 1, ?_, ?_, by rw [hexponent, if_neg (mt hsmall.mp h)]⟩
    · rw [two_zpow_add_one]
      linarith
    · rw [two_zpow_add_one]
      linarith

/-! ### The nearest number -/

/-- What is at most half a step away is the nearest, if it is even where it is just half a step. -/
theorem nearest_eq {num den n : Nat} (hlow : 2 * n * den ≤ 2 * num + den)
    (hhigh : 2 * num ≤ (2 * n + 1) * den) (hden : 0 < den)
    (evenLow : 2 * n * den = 2 * num + den → n % 2 = 0)
    (evenHigh : 2 * num = (2 * n + 1) * den → n % 2 = 0) : nearest num den = n := by
  obtain ⟨floor, hfloor⟩ : ∃ floor, floor = num / den := ⟨_, rfl⟩
  obtain ⟨rest, hrest⟩ : ∃ rest, rest = num % den := ⟨_, rfl⟩
  have hnum : num = den * floor + rest := by
    rw [hfloor, hrest]; exact (Nat.div_add_mod num den).symm
  have hless : rest < den := by rw [hrest]; exact Nat.mod_lt num hden
  have hle : floor ≤ n := by
    by_contra h
    have hmul : (n + 1) * den ≤ floor * den := Nat.mul_le_mul_right den (Nat.lt_of_not_le h)
    nlinarith
  have hge : n ≤ floor + 1 := by
    by_contra h
    have hmul : (floor + 2) * den ≤ n * den := Nat.mul_le_mul_right den (Nat.lt_of_not_le h)
    nlinarith
  unfold nearest
  rw [← hfloor, ← hrest]
  dsimp only
  rcases Nat.lt_or_ge floor n with h | h
  · obtain rfl : n = floor + 1 := by omega
    have htwice : den ≤ 2 * rest := by nlinarith
    rw [if_neg (Nat.not_lt.mpr htwice)]
    split
    · rfl
    · have hodd : (floor + 1) % 2 = 0 := evenLow (by nlinarith)
      rw [if_neg (by omega)]
  · obtain rfl : n = floor := by omega
    have htwice : 2 * rest ≤ den := by nlinarith
    split
    · rfl
    · rw [if_neg (Nat.not_lt.mpr htwice), if_pos (evenHigh (by nlinarith))]

/-- The same for a quotient. -/
theorem nearest_eq_of_div {num den n : Nat} (hden : 0 < den) (hlow : (n : ℚ) - 1 / 2 ≤ num / den)
    (hhigh : (num / den : ℚ) ≤ n + 1 / 2) (evenLow : (num / den : ℚ) = n - 1 / 2 → n % 2 = 0)
    (evenHigh : (num / den : ℚ) = n + 1 / 2 → n % 2 = 0) : nearest num den = n := by
  have hden' : (0 : ℚ) < den := Nat.cast_pos.mpr hden
  rw [le_div_iff₀ hden'] at hlow
  rw [div_le_iff₀ hden'] at hhigh
  rw [div_eq_iff hden'.ne'] at evenLow evenHigh
  apply nearest_eq _ _ hden
  · intro h
    have hcast : (2 * n * den : ℚ) = 2 * num + den := by exact_mod_cast h
    exact evenLow (by linarith)
  · intro h
    have hcast : (2 * num : ℚ) = (2 * n + 1) * den := by exact_mod_cast h
    exact evenHigh (by linarith)
  · have hcast : (2 * n * den : ℚ) ≤ 2 * num + den := by linarith
    exact_mod_cast hcast
  · have hcast : (2 * num : ℚ) ≤ (2 * n + 1) * den := by linarith
    exact_mod_cast hcast

/-! ### Intervals -/

/-- How far the interval of a double goes down, in its unit. -/
def below (mantissa : Nat) (exponent : Int) : ℚ :=
  if mantissa = leastFull ∧ exponent ≠ -1074 then 1 / 4 else 1 / 2

/-- Whether a number lies in the interval of a positive double; the ends belong to it if the
mantissa is even. -/
structure Near (mantissa : Nat) (exponent : Int) (q : ℚ) : Prop where
  low : (mantissa - below mantissa exponent) * 2 ^ exponent ≤ q
  high : q ≤ (mantissa + 1 / 2) * 2 ^ exponent
  even_of_low : q = (mantissa - below mantissa exponent) * 2 ^ exponent → mantissa % 2 = 0
  even_of_high : q = (mantissa + 1 / 2) * 2 ^ exponent → mantissa % 2 = 0

theorem below_cases (mantissa : Nat) (exponent : Int) :
    (mantissa = leastFull ∧ -1074 ≠ exponent ∧ below mantissa exponent = 1 / 4) ∨
      ((mantissa ≠ leastFull ∨ exponent = -1074) ∧ below mantissa exponent = 1 / 2) := by
  unfold below
  by_cases h : mantissa = leastFull ∧ exponent ≠ -1074
  · exact .inl ⟨h.1, h.2.symm, if_pos h⟩
  · refine .inr ⟨?_, if_neg h⟩
    by_cases hfull : mantissa = leastFull
    · exact .inr (by_contra fun he => h ⟨hfull, he⟩)
    · exact .inl hfull

theorem below_le (mantissa : Nat) (exponent : Int) : below mantissa exponent ≤ 1 / 2 := by
  rcases below_cases mantissa exponent with ⟨_, _, h⟩ | ⟨_, h⟩ <;> rw [h]
  norm_num

theorem below_pos (mantissa : Nat) (exponent : Int) : 0 < below mantissa exponent := by
  rcases below_cases mantissa exponent with ⟨_, _, h⟩ | ⟨_, h⟩ <;> rw [h] <;> norm_num

variable {mantissa : Nat} {exponent : Int} {q : ℚ}

theorem Canonical.lt (h : Canonical mantissa exponent) : (mantissa : ℚ) + 1 ≤ 2 ^ 53 := by
  have hcast : ((mantissa + 1 : Nat) : ℚ) ≤ ((2 * leastFull : Nat) : ℚ) :=
    Nat.cast_le.mpr (Nat.succ_le_of_lt h.1)
  have hfull : ((2 * leastFull : Nat) : ℚ) = 2 ^ 53 := by norm_num [leastFull]
  rw [hfull] at hcast
  exact_mod_cast hcast

theorem cast_leastFull : ((leastFull : Nat) : ℚ) = 2 ^ 52 := by norm_num [leastFull]

theorem Near.pos (near : Near mantissa exponent q) (positive : 0 < mantissa) : 0 < q := by
  have hone : (1 : ℚ) ≤ mantissa := by exact_mod_cast positive
  have hbelow := below_le mantissa exponent
  have hpos := two_zpow_pos exponent
  nlinarith [near.low]

theorem Near.le (near : Near mantissa exponent q) : (mantissa - 1 / 2) * 2 ^ exponent ≤ q := by
  have hbelow := below_le mantissa exponent
  have hpos := two_zpow_pos exponent
  nlinarith [near.low]

theorem Near.even_of_eq (near : Near mantissa exponent q)
    (h : q = (mantissa - 1 / 2) * 2 ^ exponent) : mantissa % 2 = 0 := by
  rcases below_cases mantissa exponent with ⟨hfull, _⟩ | ⟨_, hbelow⟩
  · rw [hfull]
    rfl
  · exact near.even_of_low (by rw [h, hbelow])

/-- The unit of a number near a double is that of the double, or half of it below a power of
two. -/
theorem Near.unitExponent {num den : Nat} (near : Near mantissa exponent (num / den))
    (canonical : Canonical mantissa exponent) (hnum : 0 < num) (hden : 0 < den) :
    unitExponent num den = exponent ∨
      (unitExponent num den + 1 = exponent ∧ mantissa = leastFull ∧ exponent ≠ -1074 ∧
        (num / den : ℚ) < 2 ^ 53 * 2 ^ unitExponent num den) := by
  obtain ⟨unit, hlow, hhigh, hunit⟩ := unitExponent_cases hnum hden
  have hpos := two_zpow_pos exponent
  have hmantissa := canonical.lt
  have hle : unit ≤ exponent := by
    have hpower : (2 : ℚ) ^ unit < 2 ^ (exponent + 1) := by
      rw [two_zpow_add_one]
      nlinarith [near.high]
    exact Int.lt_add_one_iff.mp (two_zpow_lt_iff.mp hpower)
  obtain ⟨_, hleast, _, hfull⟩ := canonical
  rcases eq_or_ne exponent (-1074) with rfl | hne
  · exact .inl (by rw [hunit]; omega)
  · replace hfull := hfull.resolve_right hne
    have hfull' : (2 ^ 52 : ℚ) ≤ mantissa := by
      rw [← cast_leastFull]
      exact_mod_cast hfull
    have hge : exponent - 1 ≤ unit := by
      have hpower : (2 : ℚ) ^ exponent < 2 ^ (unit + 2) := by
        have hbelow := below_le mantissa exponent
        rw [show unit + 2 = unit + (2 : Nat) from rfl, two_zpow_add]
        nlinarith [near.low]
      have := two_zpow_lt_iff.mp hpower
      omega
    rcases eq_or_ne unit exponent with rfl | hless
    · exact .inl (by rw [hunit]; omega)
    · obtain rfl : exponent = unit + 1 := by omega
      have hunit' : Double.unitExponent num den = unit := by rw [hunit]; omega
      refine .inr ⟨by rw [hunit'], ?_, hne, by rw [hunit']; exact hhigh⟩
      rcases below_cases mantissa (unit + 1) with ⟨h, _⟩ | ⟨h, hbelow⟩
      · exact h
      · -- Above a power of two the whole interval lies above it.
        have hmore : (2 ^ 52 : ℚ) + 1 ≤ mantissa := by
          rw [← cast_leastFull]
          exact_mod_cast Nat.lt_of_le_of_ne hfull (Ne.symm (h.resolve_right hne))
        have hlow := near.low
        rw [hbelow, two_zpow_add_one] at hlow
        have hunitPos := two_zpow_pos unit
        nlinarith

/-- What lies in the interval of a double is read as that double. -/
theorem ofQuotient_of_near {num den : Nat} (negative : Bool) (hden : 0 < den)
    (positive : 0 < mantissa) (canonical : Canonical mantissa exponent)
    (near : Near mantissa exponent (num / den)) :
    ofQuotient negative num den = .finite negative mantissa exponent canonical := by
  have hnum : 0 < num := by
    rcases Nat.eq_zero_or_pos num with rfl | h
    · have hpos := near.pos positive
      simp at hpos
    · exact h
  have hquotient := inUnits_eq num den (Double.unitExponent num den)
  have hd := inUnits_den_pos num hden (Double.unitExponent num den)
  have hpos := two_zpow_pos (Double.unitExponent num den)
  unfold ofQuotient
  rw [if_neg hnum.ne']
  dsimp only
  rcases near.unitExponent canonical hnum hden with hunit | ⟨hunit, hfull, hne, hless⟩
  · have hnearest : nearest (inUnits num den exponent).1 (inUnits num den exponent).2 =
        mantissa := by
      rw [hunit] at hquotient hd hpos
      apply nearest_eq_of_div hd
      all_goals rw [hquotient]
      · rw [le_div_iff₀ hpos]
        exact near.le
      · rw [div_le_iff₀ hpos]
        exact near.high
      · rw [div_eq_iff hpos.ne']
        exact near.even_of_eq
      · rw [div_eq_iff hpos.ne']
        exact near.even_of_high
    rw [hunit, hnearest]
    simp only [if_neg (Nat.ne_of_lt canonical.1), dif_pos canonical]
  · -- The number rounds up to the power of two.
    have hnearest : nearest (inUnits num den (Double.unitExponent num den)).1
        (inUnits num den (Double.unitExponent num den)).2 = 2 * leastFull := by
      have hcast : ((2 * leastFull : Nat) : ℚ) = 2 ^ 53 := by norm_num [leastFull]
      apply nearest_eq_of_div hd
      · rw [hquotient, hcast, le_div_iff₀ hpos]
        have hlow := near.low
        rw [below, if_pos ⟨hfull, hne⟩, hfull, cast_leastFull, ← hunit, two_zpow_add_one] at hlow
        linarith
      · rw [hquotient, hcast, div_le_iff₀ hpos]
        linarith
      · exact fun _ => rfl
      · exact fun _ => rfl
    rw [hnearest]
    simp only [if_true, hunit, ← hfull, dif_pos canonical]

end OpenApi.Double
