/-
# SourceGauge.Proofs.Decimal.Nearest -- a share is rounded to the nearest binary

`Binary.ofRatio` scales a quotient by a power of two, rounds it to a natural, and keeps
that natural as its mantissa.  The power is chosen from the numbers of bits of the two
parts, one too small at most (`quotient_bounds`), so that the scaled quotient has
fifty-three bits or the exponent is the least one (`exponentOf_spec`).  A binary with a
greater exponent stands on the same grid, one with a smaller exponent lies below all
quotients of fifty-three bits; so no binary is nearer (`ofRatio_nearest`).
-/
import Mathlib.Algebra.Order.Field.Power
import Mathlib.Data.Rat.Cast.Order
import Mathlib.Tactic.Linarith
import Mathlib.Tactic.Positivity
import Mathlib.Tactic.Ring
import Mathlib.Tactic.FieldSimp
import SourceGauge.Decimal.Binary

namespace SourceGauge.Decimal

set_option autoImplicit false

/-- A power of two is the quotient of two natural ones. -/
theorem power_div_power (q : Int) : (power 2 q : ℚ) / power 2 (-q) = 2 ^ q := by
  rcases Int.le_total 0 q with up | down
  · obtain ⟨n, rfl⟩ := Int.eq_ofNat_of_zero_le up
    simp [power]
  · obtain ⟨n, rfl⟩ := Int.eq_ofNat_of_zero_le (Int.neg_nonneg.mpr down) |>.imp
      fun n same => (Int.neg_eq_comm.mp same).symm
    simp [power]

theorem power_pos (q : Int) : (0 : ℚ) < power 2 q := by
  have positive : 0 < power 2 q := Nat.pow_pos (by decide)
  exact_mod_cast positive

namespace Binary

theorem power_precision : power 2 precision = 2 ^ precision := rfl

def toRat (x : Binary) : ℚ := (if x.negative then -1 else 1) * (x.mantissa * 2 ^ x.exponent)

/-- The mantissa and the exponent are those of the format. -/
def Fits (x : Binary) : Prop := x.mantissa < 2 ^ precision ∧ leastExponent ≤ x.exponent

/-- A value of a greater exponent is a whole number of steps of a lesser one. -/
theorem exists_toRat_eq_of_le {x : Binary} {q : Int} (le : q ≤ x.exponent) :
    ∃ k : ℤ, x.toRat = k * 2 ^ q := by
  obtain ⟨n, more⟩ := Int.le.dest le
  refine ⟨(if x.negative then -1 else 1) * (x.mantissa * 2 ^ n), ?_⟩
  rw [toRat, ← more, zpow_add₀ (by norm_num)]
  push_cast
  rw [zpow_natCast]
  ring

/-- A value of a lesser exponent is not above the fifty-two bits of a greater one. -/
theorem Fits.toRat_le {x : Binary} (fits : x.Fits) {q : Int} (less : x.exponent < q) :
    x.toRat ≤ 2 ^ 52 * 2 ^ q := by
  have mantissa : (x.mantissa : ℚ) ≤ 2 ^ precision := by exact_mod_cast fits.1.le
  have size : (x.mantissa : ℚ) * 2 ^ x.exponent ≤ 2 ^ 52 * 2 ^ q :=
    calc (x.mantissa : ℚ) * 2 ^ x.exponent ≤ 2 ^ precision * 2 ^ (q - 1) := by
          gcongr
          · norm_num
          · omega
      _ = 2 ^ 52 * 2 ^ q := by
          rw [zpow_sub₀ (by norm_num)]
          norm_num [precision]
          ring
  rw [toRat]
  split
  · have : (0 : ℚ) ≤ (x.mantissa : ℚ) * 2 ^ x.exponent := by positivity
    linarith
  · simpa using size

/-! ## Rounding to a natural -/

/-- A rounded quotient is half a step away at most. -/
theorem abs_roundQuotient_sub_le (num : Nat) {den : Nat} (positive : 0 < den) :
    |(roundQuotient num den : ℚ) - num / den| ≤ 1 / 2 := by
  have den_pos : (0 : ℚ) < den := by exact_mod_cast positive
  have whole : (num : ℚ) = den * (num / den : Nat) + (num % den : Nat) := by
    exact_mod_cast (Nat.div_add_mod num den).symm
  have quotient : (num : ℚ) / den = (num / den : Nat) + ((num % den : Nat) : ℚ) / den := by
    rw [whole, add_div, mul_div_cancel_left₀ _ den_pos.ne']
  have nonneg : (0 : ℚ) ≤ ((num % den : Nat) : ℚ) / den := by positivity
  have below : ((num % den : Nat) : ℚ) / den < 1 :=
    (div_lt_one den_pos).mpr (by exact_mod_cast Nat.mod_lt num positive)
  rw [quotient, abs_le]
  simp only [roundQuotient]
  split
  · next less =>
    have half : ((num % den : Nat) : ℚ) / den ≤ 1 / 2 := by
      rw [div_le_iff₀ den_pos]
      have : (2 * (num % den : Nat) : ℚ) < den := by exact_mod_cast less
      linarith
    constructor <;> linarith
  · next notLess =>
    have half : (1 : ℚ) / 2 ≤ ((num % den : Nat) : ℚ) / den := by
      rw [le_div_iff₀ den_pos]
      have : (den : ℚ) ≤ (2 * (num % den : Nat) : ℚ) := by exact_mod_cast Nat.le_of_not_lt notLess
      linarith
    split
    · push_cast
      constructor <;> linarith
    · next notGreater =>
      have even : ((num % den : Nat) : ℚ) / den ≤ 1 / 2 := by
        rw [div_le_iff₀ den_pos]
        have : (2 * (num % den : Nat) : ℚ) ≤ den := by
          exact_mod_cast Nat.le_of_not_lt notGreater
        linarith
      split
      · constructor <;> linarith
      · push_cast
        constructor <;> linarith

/-- What is half a step away at most is nearest of all whole numbers. -/
theorem abs_sub_le_of_half {x : ℚ} {m : ℤ} (half : |(m : ℚ) - x| ≤ 1 / 2) (k : ℤ) :
    |(m : ℚ) - x| ≤ |(k : ℚ) - x| := by
  rcases eq_or_ne k m with rfl | different
  · exact le_rfl
  · have step : (1 : ℚ) ≤ |(k : ℚ) - m| := by
      exact_mod_cast Int.one_le_abs (sub_ne_zero.mpr different)
    have triangle : |(k : ℚ) - m| ≤ |(k : ℚ) - x| + |x - m| := abs_sub_le _ _ _
    rw [abs_sub_comm x] at triangle
    linarith

/-! ## The exponent -/

theorem scaled_pos (num : Nat) {den : Nat} (positive : 0 < den) (q : Int) :
    0 < (scaled num den q).2 :=
  Nat.mul_pos positive (Nat.pow_pos (by decide))

theorem scaled_quotient (num den : Nat) (q : Int) :
    ((scaled num den q).1 : ℚ) / (scaled num den q).2 = num / den / 2 ^ q := by
  have up := (power_pos q).ne'
  have down := (power_pos (-q)).ne'
  simp only [scaled, Nat.cast_mul, ← power_div_power]
  field_simp

/-- The numbers of bits of two naturals tell their quotient up to a factor of four. -/
theorem quotient_bounds {num den : Nat} (num_ne : num ≠ 0) (den_ne : den ≠ 0) :
    (2 : ℚ) ^ ((num.log2 : Int) - den.log2 - 1) ≤ num / den ∧
      (num : ℚ) / den < 2 ^ ((num.log2 : Int) - den.log2 + 1) := by
  have numLow : (2 : ℚ) ^ (num.log2 : Int) ≤ num := by exact_mod_cast Nat.log2_self_le num_ne
  have numHigh : (num : ℚ) < 2 ^ ((num.log2 : Int) + 1) := by
    exact_mod_cast (Nat.lt_log2_self : num < 2 ^ (num.log2 + 1))
  have denLow : (2 : ℚ) ^ (den.log2 : Int) ≤ den := by exact_mod_cast Nat.log2_self_le den_ne
  have denHigh : (den : ℚ) < 2 ^ ((den.log2 : Int) + 1) := by
    exact_mod_cast (Nat.lt_log2_self : den < 2 ^ (den.log2 + 1))
  have den_pos : (0 : ℚ) < den := by exact_mod_cast Nat.pos_of_ne_zero den_ne
  constructor
  · calc (2 : ℚ) ^ ((num.log2 : Int) - den.log2 - 1)
        = 2 ^ (num.log2 : Int) / 2 ^ ((den.log2 : Int) + 1) := by
          rw [sub_sub, zpow_sub₀ (by norm_num)]
      _ ≤ num / den := by gcongr
  · calc (num : ℚ) / den < 2 ^ ((num.log2 : Int) + 1) / 2 ^ (den.log2 : Int) := by gcongr
      _ = 2 ^ ((num.log2 : Int) - den.log2 + 1) := by
          rw [← zpow_sub₀ (by norm_num), sub_add_eq_add_sub]

/-- Whether a quotient, rounded down, is below a bound can be asked of the quotient itself. -/
theorem scaled_div_lt_iff (num : Nat) {den : Nat} (positive : 0 < den) (q : Int) (bound : Nat) :
    (scaled num den q).1 / (scaled num den q).2 < bound ↔ (num : ℚ) / den / 2 ^ q < bound := by
  have den_pos : (0 : ℚ) < (scaled num den q).2 := by exact_mod_cast scaled_pos num positive q
  rw [← scaled_quotient, div_lt_iff₀ den_pos, Nat.div_lt_iff_lt_mul (scaled_pos num positive q)]
  exact_mod_cast Iff.rfl

/-- Scaled by the exponent that is chosen, a quotient is below fifty-three bits, and not below
fifty-two unless the exponent is the least. -/
theorem exponentOf_spec {num den : Nat} (num_ne : num ≠ 0) (den_ne : den ≠ 0) :
    leastExponent ≤ exponentOf num den ∧
      (num : ℚ) / den / 2 ^ exponentOf num den < 2 ^ precision ∧
      (exponentOf num den = leastExponent ∨
        2 ^ 52 ≤ (num : ℚ) / den / 2 ^ exponentOf num den) := by
  obtain ⟨low, high⟩ := quotient_bounds num_ne den_ne
  have small := scaled_div_lt_iff num (Nat.pos_of_ne_zero den_ne)
  -- the exponent that fits, before it is bounded from below
  obtain ⟨exact, chosen, exactLow, exactHigh⟩ :
      ∃ exact : Int, exponentOf num den = max exact leastExponent ∧
        2 ^ 52 ≤ (num : ℚ) / den / 2 ^ exact ∧ (num : ℚ) / den / 2 ^ exact < 2 ^ precision := by
    have chosen : exponentOf num den = max
        (if (scaled num den (num.log2 - den.log2 - precision)).1 /
              (scaled num den (num.log2 - den.log2 - precision)).2 < power 2 precision then
            (num.log2 : Int) - den.log2 - precision
          else (num.log2 : Int) - den.log2 - precision + 1) leastExponent := rfl
    generalize guess : (num.log2 : Int) - den.log2 - precision = g at chosen
    have bits : (num.log2 : Int) - den.log2 = g + 53 := by
      simp only [← guess, precision]
      omega
    have bound : ((power 2 precision : Nat) : ℚ) = 2 ^ precision := by
      rw [power_precision]
      norm_cast
    specialize small g (power 2 precision)
    rw [bound] at small
    rw [bits] at low high
    generalize (num : ℚ) / den = v at low high small ⊢
    by_cases fits : (scaled num den g).1 / (scaled num den g).2 < power 2 precision
    · refine ⟨g, by rw [chosen, if_pos fits], ?_, small.mp fits⟩
      rw [le_div_iff₀ (by positivity)]
      calc (2 : ℚ) ^ 52 * 2 ^ g = 2 ^ (g + 53 - 1) := by
            rw [show g + 53 - 1 = 52 + g by omega, zpow_add₀ (by norm_num)]
            norm_num
        _ ≤ v := low
    · refine ⟨g + 1, by rw [chosen, if_neg fits], ?_, ?_⟩
      · have large : (2 : ℚ) ^ precision ≤ v / 2 ^ g := not_lt.mp fun less => fits (small.mpr less)
        rw [le_div_iff₀ (by positivity)] at large ⊢
        calc (2 : ℚ) ^ 52 * 2 ^ (g + 1) = 2 ^ precision * 2 ^ g := by
              rw [zpow_add₀ (by norm_num)]
              norm_num [precision]
              ring
          _ ≤ v := large
      · rw [div_lt_iff₀ (by positivity)]
        calc v < 2 ^ (g + 53 + 1) := high
          _ = 2 ^ precision * 2 ^ (g + 1) := by
              rw [show g + 53 + 1 = 53 + (g + 1) by omega, zpow_add₀ (by norm_num)]
              norm_num [precision]
  rw [chosen]
  refine ⟨le_max_right _ _, lt_of_le_of_lt ?_ exactHigh, ?_⟩
  · gcongr
    · norm_num
    · exact le_max_left _ _
  · rcases max_choice exact leastExponent with same | same
    · rw [same]
      exact Or.inr exactLow
    · exact Or.inl same

/-! ## The nearest binary -/

/-- The value of a rounded quotient is a whole number of steps of its exponent, half a step away
at most. -/
theorem exists_toRat_ofRatio_eq {num den : Nat} (num_ne : num ≠ 0) (den_ne : den ≠ 0) :
    (ofRatio num den).Fits ∧
      ∃ m : Nat, toRat (ofRatio num den) = m * 2 ^ exponentOf num den ∧
        |(m : ℚ) - num / den / 2 ^ exponentOf num den| ≤ 1 / 2 := by
  obtain ⟨least, high, _⟩ := exponentOf_spec num_ne den_ne
  have near := abs_roundQuotient_sub_le (scaled num den (exponentOf num den)).1
    (scaled_pos num (Nat.pos_of_ne_zero den_ne) (exponentOf num den))
  rw [scaled_quotient] at near
  have some : ¬(num = 0 ∨ den = 0) := by simp [num_ne, den_ne]
  simp only [ofRatio, some, if_false]
  generalize roundQuotient (scaled num den (exponentOf num den)).1
    (scaled num den (exponentOf num den)).2 = m at near ⊢
  generalize exponentOf num den = q at least high near ⊢
  split
  · next fits => exact ⟨⟨fits, least⟩, m, by simp [toRat], near⟩
  · next full =>
    -- the quotient is below fifty-three bits, so it was rounded up to the next power of two
    have most : m = 2 ^ precision := by
      refine Nat.le_antisymm (Nat.le_of_lt_succ ?_) (power_precision ▸ Nat.le_of_not_lt full)
      have := (abs_le.mp near).2
      have : (m : ℚ) < (2 ^ precision + 1 : Nat) := by
        push_cast
        linarith
      exact_mod_cast this
    refine ⟨⟨?_, by simp only; omega⟩, m, ?_, near⟩
    · simp [most, precision]
    · simp only [toRat, most, precision, Bool.false_eq_true, if_false]
      rw [zpow_add₀ (by norm_num)]
      norm_num
      ring

/-- **No binary is nearer to a quotient than the one it is rounded to.** -/
theorem ofRatio_nearest {num den : Nat} (den_ne : den ≠ 0) {y : Binary} (fits : y.Fits) :
    |toRat (ofRatio num den) - num / den| ≤ |toRat y - num / den| := by
  by_cases num_ne : num = 0
  · simp [num_ne, ofRatio, toRat, zero]
  obtain ⟨_, m, value, near⟩ := exists_toRat_ofRatio_eq num_ne den_ne
  obtain ⟨least, _, low⟩ := exponentOf_spec num_ne den_ne
  rw [value]
  generalize exponentOf num den = q at near least low ⊢
  generalize (num : ℚ) / den = v at near low ⊢
  have step_pos : (0 : ℚ) < 2 ^ q := by positivity
  -- distances are compared in steps
  have steps (a : ℚ) : |a * 2 ^ q - v| = |a - v / 2 ^ q| * 2 ^ q := by
    rw [← abs_of_pos step_pos, ← abs_mul, abs_of_pos step_pos, sub_mul,
      div_mul_cancel₀ _ step_pos.ne']
  have grid (k : ℤ) : |(m : ℚ) * 2 ^ q - v| ≤ |(k : ℚ) * 2 ^ q - v| := by
    rw [steps, steps]
    exact mul_le_mul_of_nonneg_right (abs_sub_le_of_half (m := m) (by exact_mod_cast near) k)
      step_pos.le
  by_cases onGrid : q ≤ y.exponent
  · obtain ⟨k, same⟩ := exists_toRat_eq_of_le onGrid
    rw [same]
    exact grid k
  · have finer : y.exponent < q := not_le.mp onGrid
    have below := fits.toRat_le finer
    have above : (2 : ℚ) ^ 52 * 2 ^ q ≤ v := by
      rcases low with least | large
      · exact absurd fits.2 (by omega)
      · exact (le_div_iff₀ step_pos).mp large
    calc |(m : ℚ) * 2 ^ q - v| ≤ |((2 ^ 52 : ℤ) : ℚ) * 2 ^ q - v| := grid _
      _ = v - 2 ^ 52 * 2 ^ q := by
          rw [show ((2 ^ 52 : ℤ) : ℚ) = 2 ^ 52 by norm_num, abs_of_nonpos (by linarith), neg_sub]
      _ ≤ v - y.toRat := by linarith
      _ ≤ |y.toRat - v| := by
          rw [abs_sub_comm]
          exact le_abs_self _

end Binary

end SourceGauge.Decimal
