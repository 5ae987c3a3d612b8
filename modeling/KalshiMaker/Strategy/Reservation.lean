import KalshiMaker.Lib.LogOdds
import KalshiMaker.Strategy.Quoting
import Mathlib.Analysis.SpecialFunctions.Pow.Real

/-! Real arithmetic, and in it the reservation value: the fair value with its log odds shifted by the
inventory. -/
namespace Kalshi

open LogOdds

/-- The program's `double`s without rounding. As for doubles, a number is finite below `2 ^ 1024` and
infinity is not finite. -/
noncomputable instance Floating.real : Floating ℝ where
  decLt := inferInstance
  decLe := inferInstance
  isFinite x := decide (|x| < 2 ^ 1024)
  infinity := 2 ^ 1024
  lowest := -(2 ^ 1024 - 2 ^ 971)
  floor x := ⌊x⌋
  ceil x := ⌈x⌉
  round x := if 0 ≤ x then ⌊x + 1 / 2⌋ else -⌊-x + 1 / 2⌋
  trunc x := if 0 ≤ x then ⌊x⌋ else ⌈x⌉
  exp := Real.exp
  log := Real.log
  exp2 x := 2 ^ x
  stod s := (exactStod s).map fun value => (value : ℝ)

namespace Floating

theorem max_real (a b : ℝ) : Floating.max a b = Max.max a b := by
  unfold Floating.max
  split
  next less => exact (max_eq_right (le_of_lt less)).symm
  next more => exact (max_eq_left (not_lt.mp more)).symm

theorem min_real (a b : ℝ) : Floating.min a b = Min.min a b := by
  unfold Floating.min
  split
  next more => exact (min_eq_right (le_of_lt more)).symm
  next less => exact (min_eq_left (not_lt.mp less)).symm

theorem round_real_nonneg {x : ℝ} (positive : 0 ≤ x) : 0 ≤ Floating.round x := by
  change 0 ≤ (if 0 ≤ x then ⌊x + 1 / 2⌋ else -⌊-x + 1 / 2⌋)
  rw [if_pos positive]
  apply Int.floor_nonneg.mpr
  positivity

end Floating

theorem opposingOdds_pos {fv : ℝ} (positive : 0 < fv) (below : fv < 100) : 0 < 100 / fv - 1 := by
  rw [sub_pos, lt_div_iff₀ positive]
  linarith

/-- With a finite liquidity parameter the inventory shifts the log odds against YES. -/
theorem lmsrSkewedFairValue_finite {fv b : ℝ} (positive : 0 < fv) (finite : |b| < 2 ^ 1024) (n : ℝ) :
    lmsrSkewedFairValue fv n b = 100 * chance (100 / fv - 1) (n / b) := by
  have unfolded : lmsrSkewedFairValue fv n b =
      if ¬ decide (|b| < 2 ^ 1024) = true ∨ decide (n = 0) = true then fv
      else ((100 : Int) : ℝ) / (((1 : Int) : ℝ) + (((100 : Int) : ℝ) / fv - ((1 : Int) : ℝ)) * Real.exp (n / b)) := rfl
  rw [unfolded, chance]
  push_cast
  by_cases flat : n = 0
  · -- without inventory the fair value is left alone, which is what the formula gives
    rw [if_pos (.inr (decide_eq_true flat)), flat, zero_div, Real.exp_zero]
    field_simp
    ring
  · rw [if_neg (by simp [finite, flat])]
    ring

theorem lmsrSkewedFairValue_infinite {fv b : ℝ} (infinite : ¬ |b| < 2 ^ 1024) (n : ℝ) :
    lmsrSkewedFairValue fv n b = fv := by
  have finite : ¬ Floating.isFinite b = true := by
    change ¬ decide (|b| < 2 ^ 1024) = true
    rw [decide_eq_true_eq]
    exact infinite
  exact if_pos (.inl finite)

/-- One quote size at most moves the reservation value down by less than a cent. -/
theorem reservation_after {fv b q size : ℝ} (positive : 0 < fv) (below : fv < 100) (deep : 25 * size ≤ b)
    (filled : 0 < q) (within : q ≤ size) (n : ℝ) :
    lmsrSkewedFairValue fv n b < lmsrSkewedFairValue fv (n + q) b + 1 := by
  have odds := opposingOdds_pos positive below
  have liquid : 0 < b := by linarith
  by_cases finite : |b| < 2 ^ 1024
  · rw [lmsrSkewedFairValue_finite positive finite, lmsrSkewedFairValue_finite positive finite]
    have shift : n / b < (n + q) / b := by
      apply div_lt_div_of_pos_right _ liquid
      linarith
    have slower := chance_sub_lt odds shift
    have cent : (n + q) / b - n / b ≤ 1 / 25 := by
      rw [← sub_div, div_le_iff₀ liquid]
      linarith
    linarith
  · rw [lmsrSkewedFairValue_infinite finite, lmsrSkewedFairValue_infinite finite]
    linarith

/-- Seen from the other side, with the inventory negated, the reservation value is the complement. -/
theorem lmsrSkewedFairValue_mirror {fv : ℝ} (positive : 0 < fv) (below : fv < 100) (n b : ℝ) :
    lmsrSkewedFairValue (100 - fv) (-n) b = 100 - lmsrSkewedFairValue fv n b := by
  by_cases finite : |b| < 2 ^ 1024
  · have other : 0 < 100 - fv := by linarith
    have odds : 100 / (100 - fv) - 1 = (100 / fv - 1)⁻¹ := by
      have nonzero : 100 - fv ≠ 0 := other.ne'
      field_simp
      ring
    rw [lmsrSkewedFairValue_finite other finite, lmsrSkewedFairValue_finite positive finite, odds, neg_div,
      chance_inv_neg (opposingOdds_pos positive below)]
    ring
  · rw [lmsrSkewedFairValue_infinite finite, lmsrSkewedFairValue_infinite finite]

end Kalshi
