import Mathlib.Data.List.Induction
import Mathlib.Data.Nat.Cast.Order.Field
import OpenApi.Number.Numeral
import OpenApi.Proofs.Rounding

/-
The text of a double names the double.

Seventeen digits always suffice: their grid is finer than the interval of the numbers that are read
as the double, so one of the two neighbours of the double on it lies in the interval
(`near_shortest`).  However the digits are laid out, they keep their value, and reading them gives
the double back (`ofDecimal_of_near`).
-/
namespace OpenApi

/-! ### Digits -/

namespace Numeral

theorem digit?_of_isDigit {c : Char} (h : c.isDigit = true) :
    digit? 10 c = some (c.toNat - '0'.toNat) := by
  have hrange : '0' ≤ c ∧ c ≤ '9' := by
    simpa [Char.isDigit, Char.le_def, UInt32.le_iff_toNat_le] using h
  have hsmall : c.toNat - '0'.toNat < 10 := by
    have hle : c.toNat ≤ 57 := hrange.2
    show c.toNat - 48 < 10
    omega
  simp only [digit?]
  rw [if_pos hrange]
  simpa using hsmall

theorem value_append (front back : List Char) :
    value (front ++ back) = value front * 10 ^ back.length + value back := by
  induction back using List.reverseRecOn with
  | nil => simp [value_nil]
  | append_singleton back c ih =>
    have hstep (cs : List Char) : value (cs ++ [c]) = value cs * 10 + (digit? 10 c).getD 0 :=
      valueIn_append_singleton 10 cs c
    rw [← List.append_assoc, hstep, hstep, ih, List.length_append, List.length_singleton, pow_succ]
    ring

theorem value_replicate_zero (n : Nat) : value (List.replicate n '0') = 0 := by
  induction n with
  | zero => rfl
  | succ n ih =>
    rw [List.replicate_succ', value_append, ih]
    rfl

theorem digit?_lt {base : Nat} {c : Char} {d : Nat} (h : digit? base c = some d) : d < base := by
  simp only [digit?, Option.filter_eq_some_iff, decide_eq_true_eq] at h
  exact h.2

theorem value_lt (cs : List Char) : value cs < 10 ^ cs.length := by
  induction cs using List.reverseRecOn with
  | nil => exact Nat.one_pos
  | append_singleton cs c ih =>
    have hsmall : (digit? 10 c).getD 0 < 10 := by
      cases h : digit? 10 c with
      | none => exact Nat.succ_pos 9
      | some d => exact digit?_lt h
    rw [value, valueIn_append_singleton, List.length_append, List.length_singleton, pow_succ]
    rw [value] at ih
    omega

theorem isDigit_of_mem_toDigits {n : Nat} : ∀ c ∈ Nat.toDigits 10 n, c.isDigit = true :=
  fun _ hc => Nat.isDigit_of_mem_toDigits (by decide) (by decide) hc

theorem value_toDigits (n : Nat) : value (Nat.toDigits 10 n) = n := by
  have hread := Nat.ofDigitChars_ten_toDigits (n := n)
  rw [Nat.ofDigitChars_eq_foldl] at hread
  refine Eq.trans (List.foldl_ext _ _ _ fun m c hc => ?_) hread
  rw [digit?_of_isDigit (isDigit_of_mem_toDigits c hc), Nat.mul_comm]
  rfl

end Numeral

namespace Double

theorem lt_pow_width (n : Nat) : n < 10 ^ width n := by
  have hpos : 0 < width n := List.length_pos_iff.mpr Nat.toDigits_ne_nil
  exact (Nat.length_toDigits_le_iff (by decide) hpos).mp (Nat.le_refl _)

theorem pow_width_le {n : Nat} (h : 0 < n) : 10 ^ (width n - 1) ≤ n := by
  rcases Nat.eq_zero_or_pos (width n - 1) with hzero | hpos
  · rwa [hzero]
  · by_contra hlt
    have hle := (Nat.length_toDigits_le_iff (by decide) hpos).mpr (Nat.lt_of_not_le hlt)
    have hwidth : width n = (Nat.toDigits 10 n).length := rfl
    omega

theorem ten_pow_pos (n : Nat) : 0 < Nat.pow 10 n := Nat.pow_pos (by decide)

theorem ten_zpow_pos (e : Int) : (0 : ℚ) < 10 ^ e := zpow_pos (by norm_num) e

theorem ten_zpow_lt_iff {a b : Int} : (10 : ℚ) ^ a < 10 ^ b ↔ a < b :=
  zpow_lt_zpow_iff_right₀ (by norm_num)

/-- A number that is not below one, by the width of its whole part. -/
theorem width_div_spec {num den : Nat} (hden : 0 < den) (hle : den ≤ num) :
    (10 : ℚ) ^ (width (num / den) - 1 : Int) ≤ num / den ∧
      (num / den : ℚ) < 10 ^ (width (num / den) : Int) := by
  have hden' : (0 : ℚ) < den := Nat.cast_pos.mpr hden
  have hwhole : 0 < num / den := Nat.div_pos hle hden
  have hwidth : 1 ≤ width (num / den) := List.length_pos_iff.mpr Nat.toDigits_ne_nil
  have hpower : (width (num / den) - 1 : Int) = ((width (num / den) - 1 : Nat) : Int) := by omega
  rw [hpower, zpow_natCast, zpow_natCast]
  constructor
  · have hlow : ((10 ^ (width (num / den) - 1) : Nat) : ℚ) ≤ ((num / den : Nat) : ℚ) :=
      Nat.cast_le.mpr (pow_width_le hwhole)
    rw [Nat.cast_pow, Nat.cast_ofNat] at hlow
    exact hlow.trans Nat.cast_div_le
  · have hhigh : num < 10 ^ width (num / den) * den := by
      rw [← Nat.div_lt_iff_lt_mul hden]
      exact lt_pow_width _
    rw [div_lt_iff₀ hden']
    exact_mod_cast hhigh

/-- The decimal point of a number stands behind the first digit. -/
theorem pointPlace_spec {num den : Nat} (hnum : 0 < num) (hden : 0 < den) :
    (10 : ℚ) ^ (pointPlace num den - 1) ≤ num / den ∧ (num / den : ℚ) < 10 ^ pointPlace num den := by
  have hden' : (0 : ℚ) < den := Nat.cast_pos.mpr hden
  have hnum' : (0 : ℚ) < num := Nat.cast_pos.mpr hnum
  unfold pointPlace
  split
  · rename_i hle
    exact width_div_spec hden hle
  · rename_i hlt
    -- Below one, the inverse of the number tells how many zeros there are.
    obtain ⟨hlow, hhigh⟩ := width_div_spec hnum (Nat.le_of_not_le hlt)
    obtain ⟨w, hw⟩ : ∃ w, w = width (den / num) := ⟨_, rfl⟩
    have hpos : 1 ≤ w := hw ▸ List.length_pos_iff.mpr Nat.toDigits_ne_nil
    rw [← hw] at hlow hhigh ⊢
    have hinverse : (num / den : ℚ) = (den / num : ℚ)⁻¹ := (inv_div _ _).symm
    have hat : (num / den : ℚ) ≤ 10 ^ (1 - w : Int) := by
      rw [hinverse, show (1 - w : Int) = -(w - 1) by ring, zpow_neg]
      exact inv_anti₀ (ten_zpow_pos _) hlow
    have habove : (10 : ℚ) ^ (-w : Int) < num / den := by
      rw [hinverse, zpow_neg]
      exact inv_strictAnti₀ (div_pos hden' hnum') hhigh
    have hshift : num * Nat.pow 10 (-(1 - w : Int)).toNat ≥ den ↔
        (10 : ℚ) ^ (1 - w : Int) ≤ num / den := by
      rw [show (1 - w : Int) = -(w - 1 : Nat) by omega, neg_neg, Int.toNat_natCast, zpow_neg,
        zpow_natCast, le_div_iff₀ hden', inv_mul_le_iff₀ (by positivity), ge_iff_le, mul_comm num]
      rw [← Nat.cast_le (α := ℚ)]
      norm_num
    dsimp only
    split
    · rename_i hge
      rw [hshift] at hge
      rw [add_sub_cancel_right]
      exact ⟨hge, hat.trans_lt (ten_zpow_lt_iff.mpr (by omega))⟩
    · rename_i hless
      rw [hshift, not_le] at hless
      refine ⟨?_, hless⟩
      rw [show (1 - w - 1 : Int) = -w by omega]
      exact habove.le

/-! ### The grid -/

namespace Interval

variable {i : Interval} {power : Int} {digits : Nat}

theorem holds_of_onGrid? (h : i.onGrid? power = some digits) :
    i.holds (digits * Nat.pow 10 power.toNat) (Nat.pow 10 (-power).toNat) = true := by
  unfold onGrid? at h
  dsimp only at h
  split at h
  · rename_i hbelow habove
    rw [Bool.and_eq_true] at hbelow
    cases h
    split
    · exact hbelow.1
    · exact habove
  · rename_i hbelow _
    rw [Bool.and_eq_true] at hbelow
    cases h
    exact hbelow.1
  · rename_i habove
    cases h
    exact habove
  · cases h

/-- A grid has no point for the interval only if the interval holds neither neighbour of its
value. -/
theorem not_holds_of_onGrid? {below : Nat}
    (hbelow : below = i.value * Nat.pow 10 (-power).toNat / (i.den * Nat.pow 10 power.toNat))
    (positive : below ≠ 0) (h : i.onGrid? power = none) :
    i.holds (below * Nat.pow 10 power.toNat) (Nat.pow 10 (-power).toNat) = false ∧
      i.holds ((below + 1) * Nat.pow 10 power.toNat) (Nat.pow 10 (-power).toNat) = false := by
  unfold onGrid? at h
  dsimp only at h
  rw [← hbelow] at h
  split at h
  · cases h
  · cases h
  · cases h
  · rename_i hfits habove
    refine ⟨?_, habove⟩
    simpa [positive] using hfits

theorem search_spec {place : Int} {left count : Nat}
    (h : i.onGrid? (place - (count + left : Nat)) ≠ none) :
    ∃ digits power, i.search place (left + 1) count = (digits, power) ∧
      i.onGrid? power = some digits := by
  induction left generalizing count with
  | zero =>
    obtain ⟨digits, hdigits⟩ := Option.ne_none_iff_exists'.mp h
    exact ⟨digits, _, by rw [search, show count = count + 0 from rfl, hdigits], hdigits⟩
  | succ left ih =>
    rw [search]
    cases hgrid : i.onGrid? (place - count) with
    | some digits => exact ⟨digits, _, rfl, hgrid⟩
    | none => exact ih (by rwa [Nat.add_right_comm, Nat.add_assoc])

end Interval

theorem le_iff_div_le {a b c d : Nat} (hb : 0 < b) (hd : 0 < d) :
    a * d ≤ c * b ↔ (a / b : ℚ) ≤ c / d := by
  rw [div_le_div_iff₀ (Nat.cast_pos.mpr hb) (Nat.cast_pos.mpr hd)]
  exact_mod_cast Iff.rfl

theorem lt_iff_div_lt {a b c d : Nat} (hb : 0 < b) (hd : 0 < d) :
    a * d < c * b ↔ (a / b : ℚ) < c / d := by
  rw [div_lt_div_iff₀ (Nat.cast_pos.mpr hb) (Nat.cast_pos.mpr hd)]
  exact_mod_cast Iff.rfl

section
variable {mantissa : Nat} {exponent : Int} {num den : Nat}

theorem interval_den_pos (mantissa : Nat) (exponent : Int) : 0 < (interval mantissa exponent).den :=
  Nat.two_pow_pos _

/-- A multiple of the unit of the interval, which is a quarter of that of the double. -/
theorem quarters_eq (n : Nat) (exponent : Int) :
    ((n * Nat.pow 2 (exponent - 2).toNat : Nat) : ℚ) / (Nat.pow 2 (2 - exponent).toNat : Nat) =
      n / 4 * 2 ^ exponent := by
  have hpower := pow_toNat_div 2 (exponent - 2)
  rw [neg_sub, zpow_sub₀ two_ne_zero] at hpower
  simp only [Nat.pow_eq, Nat.cast_mul, Nat.cast_pow, Nat.cast_ofNat]
  rw [mul_div_assoc, hpower]
  norm_num
  ring

theorem interval_value (mantissa : Nat) (exponent : Int) :
    ((interval mantissa exponent).value : ℚ) / (interval mantissa exponent).den =
      mantissa * 2 ^ exponent := by
  refine (quarters_eq (4 * mantissa) exponent).trans ?_
  push_cast
  ring

theorem interval_high (mantissa : Nat) (exponent : Int) :
    ((interval mantissa exponent).high : ℚ) / (interval mantissa exponent).den =
      (mantissa + 1 / 2) * 2 ^ exponent := by
  refine (quarters_eq (4 * mantissa + 2) exponent).trans ?_
  push_cast
  ring

theorem interval_low (positive : 0 < mantissa) :
    ((interval mantissa exponent).low : ℚ) / (interval mantissa exponent).den =
      (mantissa - below mantissa exponent) * 2 ^ exponent := by
  refine (quarters_eq _ exponent).trans ?_
  congr 1
  unfold below
  split
  · rw [Nat.cast_sub (by omega)]
    push_cast
    ring
  · rw [Nat.cast_sub (by omega)]
    push_cast
    ring

/-- The interval holds the numbers that are near enough to the double. -/
theorem holds_iff_near (positive : 0 < mantissa) (hden : 0 < den) :
    (interval mantissa exponent).holds num den = true ↔ Near mantissa exponent (num / den) := by
  have hpos := interval_den_pos mantissa exponent
  unfold Interval.holds
  dsimp only
  split
  · rename_i heven
    rw [Bool.and_eq_true, decide_eq_true_eq, decide_eq_true_eq, le_iff_div_le hpos hden,
      le_iff_div_le hden hpos, interval_low positive, interval_high]
    have heven : mantissa % 2 = 0 := of_decide_eq_true heven
    exact ⟨fun h => ⟨h.1, h.2, fun _ => heven, fun _ => heven⟩, fun h => ⟨h.low, h.high⟩⟩
  · rename_i hodd
    rw [Bool.and_eq_true, decide_eq_true_eq, decide_eq_true_eq, lt_iff_div_lt hpos hden,
      lt_iff_div_lt hden hpos, interval_low positive, interval_high]
    have hodd : ¬ mantissa % 2 = 0 := fun h => hodd (decide_eq_true h)
    constructor
    · exact fun h => ⟨h.1.le, h.2.le, fun heq => absurd heq h.1.ne', fun heq => absurd heq h.2.ne⟩
    · intro h
      exact ⟨lt_of_le_of_ne h.low fun heq => hodd (h.even_of_low heq.symm),
        lt_of_le_of_ne h.high fun heq => hodd (h.even_of_high heq)⟩

theorem near_of_lt {q : ℚ} (hlow : (mantissa - below mantissa exponent) * 2 ^ exponent < q)
    (hhigh : q < (mantissa + 1 / 2) * 2 ^ exponent) : Near mantissa exponent q :=
  ⟨hlow.le, hhigh.le, fun h => absurd h hlow.ne', fun h => absurd h hhigh.ne⟩

/-- Tens and their inverses, as the grids use them. -/
theorem tens_eq (n : Nat) (power : Int) :
    ((n * Nat.pow 10 power.toNat : Nat) : ℚ) / (Nat.pow 10 (-power).toNat : Nat) =
      n * 10 ^ power := by
  simp only [Nat.pow_eq, Nat.cast_mul, Nat.cast_pow, Nat.cast_ofNat]
  rw [mul_div_assoc, pow_toNat_div]

/-- The neighbours of a value on a grid. -/
theorem neighbours {value den below : Nat} {power : Int} (hden : 0 < den)
    (hbelow : below = value * Nat.pow 10 (-power).toNat / (den * Nat.pow 10 power.toNat)) :
    below * 10 ^ power ≤ (value / den : ℚ) ∧ (value / den : ℚ) < (below + 1) * 10 ^ power := by
  have hup := ten_pow_pos (-power).toNat
  have hdown := Nat.mul_pos hden (ten_pow_pos power.toNat)
  have hnext := tens_eq (below + 1) power
  rw [Nat.cast_add, Nat.cast_one] at hnext
  rw [← tens_eq, ← hnext, ← le_iff_div_le hup hden, ← lt_iff_div_lt hden hup, hbelow]
  constructor
  · calc _ = value * Nat.pow 10 (-power).toNat / (den * Nat.pow 10 power.toNat) *
          (den * Nat.pow 10 power.toNat) := by ring
      _ ≤ _ := Nat.div_mul_le_self _ _
  · calc _ < den * Nat.pow 10 power.toNat *
          (value * Nat.pow 10 (-power).toNat / (den * Nat.pow 10 power.toNat) + 1) :=
            Nat.lt_mul_div_succ _ hdown
      _ = _ := by ring

/-- Seventeen digits suffice for a double. -/
theorem onGrid?_ne_none (positive : 0 < mantissa) (canonical : Canonical mantissa exponent) :
    (interval mantissa exponent).onGrid? (pointPlace (interval mantissa exponent).value
      (interval mantissa exponent).den - 17) ≠ none := by
  intro hnone
  have hden := interval_den_pos mantissa exponent
  have hvalue : 0 < (interval mantissa exponent).value :=
    Nat.mul_pos (Nat.mul_pos (by decide) positive) (Nat.two_pow_pos _)
  obtain ⟨hplace, _⟩ := pointPlace_spec hvalue hden
  obtain ⟨power, hpower⟩ : ∃ power, power = pointPlace (interval mantissa exponent).value
    (interval mantissa exponent).den - 17 := ⟨_, rfl⟩
  obtain ⟨steps, hsteps⟩ : ∃ steps, steps = (interval mantissa exponent).value *
    Nat.pow 10 (-power).toNat / ((interval mantissa exponent).den * Nat.pow 10 power.toNat) :=
    ⟨_, rfl⟩
  obtain ⟨hle, hlt⟩ := neighbours hden hsteps
  rw [interval_value] at hplace hle hlt
  have hgrid := ten_zpow_pos power
  have hunit := two_zpow_pos exponent
  have hfine : 10 ^ 16 * 10 ^ power ≤ (mantissa * 2 ^ exponent : ℚ) := by
    refine le_trans (le_of_eq ?_) hplace
    rw [← zpow_natCast, ← zpow_add₀ (by norm_num)]
    congr 1
    omega
  have hnonzero : steps ≠ 0 := by
    rintro rfl
    rw [Nat.cast_zero, zero_add, one_mul] at hlt
    linarith
  rw [← hpower] at hnone
  obtain ⟨hlow, hhigh⟩ := Interval.not_holds_of_onGrid? hsteps hnonzero hnone
  have hmiss {n : Nat} (h : (interval mantissa exponent).holds (n * Nat.pow 10 power.toNat)
      (Nat.pow 10 (-power).toNat) = false) : ¬ Near mantissa exponent (n * 10 ^ power) := by
    rw [← tens_eq, ← holds_iff_near positive (ten_pow_pos _), h]
    exact Bool.false_ne_true
  have hlow : (steps * 10 ^ power : ℚ) ≤ (mantissa - below mantissa exponent) * 2 ^ exponent :=
    le_of_not_gt fun h => hmiss hlow (near_of_lt h (by nlinarith))
  have hhigh : ((mantissa + 1 / 2) * 2 ^ exponent : ℚ) ≤ (steps + 1) * 10 ^ power := by
    refine le_of_not_gt fun h => hmiss hhigh ?_
    rw [Nat.cast_add, Nat.cast_one]
    exact near_of_lt (by nlinarith [below_pos mantissa exponent]) h
  -- The grid would be as wide as the interval, and that is wider than sixteen digits of it.
  have hwide : (10 ^ 16 * (1 / 2 + below mantissa exponent) : ℚ) ≤ mantissa := by
    have hspan : (1 / 2 + below mantissa exponent) * 2 ^ exponent ≤ 10 ^ power := by linarith
    refine le_of_mul_le_mul_right ?_ hunit
    linarith
  rcases below_cases mantissa exponent with ⟨hfull, _, hquarter⟩ | ⟨_, hhalf⟩
  · rw [hfull, cast_leastFull] at hwide
    rw [hfull] at hquarter
    rw [hquarter] at hwide
    norm_num at hwide
  · rw [hhalf] at hwide
    linarith [canonical.lt]


/-- The digits that are written for a double name a number in its interval. -/
theorem near_shortest (positive : 0 < mantissa) (canonical : Canonical mantissa exponent) :
    Near mantissa exponent
      ((shortest mantissa exponent).1 * 10 ^ (shortest mantissa exponent).2) := by
  obtain ⟨digits, power, hsearch, hgrid⟩ := @Interval.search_spec _ _ 16 1
    (onGrid?_ne_none positive canonical)
  have hholds := Interval.holds_of_onGrid? hgrid
  rw [holds_iff_near positive (ten_pow_pos _), tens_eq] at hholds
  rw [shortest, hsearch]
  exact hholds

/-! ### Reading decimals -/

/-- The size of a decimal, by the number of its digits and its power. -/
theorem size_spec {digits : Nat} (hdigits : 0 < digits) (power : Int) :
    (10 : ℚ) ^ (width digits + power - 1) ≤ digits * 10 ^ power ∧
      (digits * 10 ^ power : ℚ) < 10 ^ (width digits + power) := by
  have hpos := ten_zpow_pos power
  have hwidth : 0 < width digits := List.length_pos_iff.mpr Nat.toDigits_ne_nil
  have hlow : ((10 ^ (width digits - 1) : Nat) : ℚ) ≤ digits := Nat.cast_le.mpr (pow_width_le hdigits)
  have hhigh : (digits : ℚ) < ((10 ^ width digits : Nat) : ℚ) := Nat.cast_lt.mpr (lt_pow_width digits)
  rw [Nat.cast_pow, Nat.cast_ofNat, ← zpow_natCast] at hlow hhigh
  have hsplit : (width digits + power - 1 : Int) = ((width digits - 1 : Nat) : Int) + power := by
    omega
  rw [hsplit, zpow_add₀ (by norm_num), zpow_add₀ (by norm_num)]
  exact ⟨mul_le_mul_of_nonneg_right hlow hpos.le, mul_lt_mul_of_pos_right hhigh hpos⟩

/-- The powers of two about which doubles end are smaller than a power of ten. -/
theorem two_pow_lt_ten_pow : (2 : ℚ) ^ 1075 < 10 ^ 400 :=
  calc (2 : ℚ) ^ 1075 = (2 ^ 43) ^ 25 := by rw [← pow_mul]
    _ < (10 ^ 16) ^ 25 := pow_lt_pow_left₀ (by norm_num) (by norm_num) (by decide)
    _ = 10 ^ 400 := by rw [← pow_mul]

theorem Near.lt_ten_pow {q : ℚ} (near : Near mantissa exponent q)
    (canonical : Canonical mantissa exponent) : q < 10 ^ (400 : Int) := by
  have hpower : (2 : ℚ) ^ exponent ≤ 2 ^ (971 : Int) :=
    zpow_le_zpow_right₀ one_le_two canonical.2.2.1
  have hmantissa := canonical.lt
  have hpos := two_zpow_pos exponent
  calc q ≤ (mantissa + 1 / 2) * 2 ^ exponent := near.high
    _ ≤ 2 ^ 53 * 2 ^ (971 : Int) := by
        refine mul_le_mul (by linarith) hpower hpos.le (by positivity)
    _ = 2 ^ 1024 := by rw [← zpow_natCast, ← zpow_natCast, ← zpow_add₀ two_ne_zero]; rfl
    _ < 2 ^ 1075 := pow_lt_pow_right₀ one_lt_two (by decide)
    _ < 10 ^ (400 : Int) := by exact_mod_cast two_pow_lt_ten_pow

theorem Near.ten_pow_lt {q : ℚ} (near : Near mantissa exponent q) (positive : 0 < mantissa)
    (canonical : Canonical mantissa exponent) : (10 : ℚ) ^ (-400 : Int) < q := by
  have hpower : (2 : ℚ) ^ (-1074 : Int) ≤ 2 ^ exponent :=
    zpow_le_zpow_right₀ one_le_two canonical.2.1
  have hmantissa : (1 : ℚ) ≤ mantissa := by exact_mod_cast positive
  have hpos := two_zpow_pos exponent
  have hinverse : (10 : ℚ) ^ (-400 : Int) < 2 ^ (-1075 : Int) := by
    rw [zpow_neg, zpow_neg]
    exact inv_strictAnti₀ (two_zpow_pos _) (by exact_mod_cast two_pow_lt_ten_pow)
  calc (10 : ℚ) ^ (-400 : Int) < 2 ^ (-1075 : Int) := hinverse
    _ = 1 / 2 * 2 ^ (-1074 : Int) := by
        rw [show (-1074 : Int) = -1075 + 1 by rfl, two_zpow_add_one]
        ring
    _ ≤ (mantissa - 1 / 2) * 2 ^ exponent :=
        mul_le_mul (by linarith) hpower (two_zpow_pos _).le (by linarith)
    _ ≤ q := near.le

/-- A decimal in the interval of a double is read as that double. -/
theorem ofDecimal_of_near {digits : Nat} {power : Int} (negative : Bool) (positive : 0 < mantissa)
    (canonical : Canonical mantissa exponent) (near : Near mantissa exponent (digits * 10 ^ power)) :
    ofDecimal negative digits power = .finite negative mantissa exponent canonical := by
  have hdigits : 0 < digits := by
    rcases Nat.eq_zero_or_pos digits with rfl | h
    · have hpos := near.pos positive
      simp at hpos
    · exact h
  obtain ⟨hlow, hhigh⟩ := size_spec hdigits power
  have hbig := ten_zpow_lt_iff.mp (hlow.trans_lt (near.lt_ten_pow canonical))
  have hsmall := ten_zpow_lt_iff.mp ((near.ten_pow_lt positive canonical).trans hhigh)
  unfold ofDecimal
  rw [if_neg hdigits.ne']
  dsimp only
  rw [if_neg (by omega), if_neg (by omega)]
  rw [← tens_eq] at near
  exact ofQuotient_of_near negative (ten_pow_pos _) positive canonical near

end
end Double
end OpenApi
