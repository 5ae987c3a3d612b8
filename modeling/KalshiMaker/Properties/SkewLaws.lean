import KalshiMaker.Strategy.Reservation

/-! The inventory skew in real arithmetic: its range, its order, how skews compose, and its calibration. -/
namespace Kalshi

open LogOdds

section

variable {fv b : ℝ}

/-- The skewed value is again a price between 0 and 100. -/
theorem lmsrSkewedFairValue_inside (positive : 0 < fv) (below : fv < 100) (finite : |b| < 2 ^ 1024) (n : ℝ) :
    0 < lmsrSkewedFairValue fv n b ∧ lmsrSkewedFairValue fv n b < 100 := by
  have odds := opposingOdds_pos positive below
  rw [lmsrSkewedFairValue_finite positive finite]
  have low := chance_pos odds (n / b)
  have high := chance_lt_one odds (n / b)
  constructor <;> linarith

theorem lmsrSkewedFairValue_lt (positive : 0 < fv) (below : fv < 100) (liquid : 0 < b) (finite : |b| < 2 ^ 1024)
    {n m : ℝ} (longer : n < m) : lmsrSkewedFairValue fv m b < lmsrSkewedFairValue fv n b := by
  rw [lmsrSkewedFairValue_finite positive finite, lmsrSkewedFairValue_finite positive finite]
  have shift : n / b < m / b := div_lt_div_of_pos_right longer liquid
  have less := chance_strictAnti (opposingOdds_pos positive below) shift
  linarith

/-- Skewing twice is skewing once by the sum. -/
theorem lmsrSkewedFairValue_add (positive : 0 < fv) (below : fv < 100) (finite : |b| < 2 ^ 1024) (n m : ℝ) :
    lmsrSkewedFairValue (lmsrSkewedFairValue fv n b) m b = lmsrSkewedFairValue fv (n + m) b := by
  have inside := (lmsrSkewedFairValue_inside positive below finite n).1
  have odds := opposingOdds_pos positive below
  have first := lmsrSkewedFairValue_finite positive finite n
  have reopened : 100 / lmsrSkewedFairValue fv n b - 1 = 1 / chance (100 / fv - 1) (n / b) - 1 := by
    have present := (chance_pos odds (n / b)).ne'
    rw [first]
    field_simp
  calc lmsrSkewedFairValue (lmsrSkewedFairValue fv n b) m b
      = 100 * chance (100 / lmsrSkewedFairValue fv n b - 1) (m / b) := lmsrSkewedFairValue_finite inside finite m
    _ = 100 * chance (100 / fv - 1) (n / b + m / b) := by rw [reopened, chance_chance]
    _ = 100 * chance (100 / fv - 1) ((n + m) / b) := by rw [add_div]
    _ = lmsrSkewedFairValue fv (n + m) b := (lmsrSkewedFairValue_finite positive finite (n + m)).symm

end

/-! ### The calibration -/

section

variable {maxPosition edge : Int}

theorem lmsrBFromRisk_inside (present : 0 < maxPosition) (above : 50 < edge) (below : edge < 100) :
    (lmsrBFromRisk maxPosition edge : ℝ) = maxPosition / Real.log (edge / (100 - edge)) := by
  have high : (50 : ℝ) < edge := by exact_mod_cast above
  have low : (edge : ℝ) < 100 := by exact_mod_cast below
  have unfolded : (lmsrBFromRisk maxPosition edge : ℝ) =
      if maxPosition ≤ 0 ∨ (edge : ℝ) ≤ ((50 : Int) : ℝ) ∨ ((100 : Int) : ℝ) ≤ edge then Floating.infinity
      else maxPosition / Real.log (edge / (((100 : Int) : ℝ) - edge)) := rfl
  rw [unfolded]
  push_cast
  rw [if_neg (by rintro (none | narrow | wide) <;> first | omega | linarith)]

/-- The odds at the band's edge, against and for. -/
theorem edgeOdds_log (above : 50 < edge) (below : edge < 100) :
    2 / 51 ≤ Real.log ((edge : ℝ) / (100 - edge)) := by
  have high : (51 : ℝ) ≤ edge := by exact_mod_cast above
  have low : (edge : ℝ) ≤ 99 := by exact_mod_cast (show edge ≤ 99 by omega)
  have rest : 0 < 100 - (edge : ℝ) := by linarith
  have whole : (0 : ℝ) < edge := by linarith
  have bound := Real.one_sub_inv_le_log_of_pos (div_pos whole rest)
  have least : 2 / 51 ≤ 1 - ((edge : ℝ) / (100 - edge))⁻¹ := by
    rw [inv_div, le_sub_comm, div_le_iff₀ whole]
    linarith
  exact least.trans bound

/-- A calibration against an `int` is finite. -/
theorem lmsrBFromRisk_finite (present : 0 < maxPosition) (small : maxPosition < 2 ^ 31) (above : 50 < edge)
    (below : edge < 100) : 0 < (lmsrBFromRisk maxPosition edge : ℝ) ∧
      |(lmsrBFromRisk maxPosition edge : ℝ)| < 2 ^ 1024 := by
  have slope := edgeOdds_log above below
  have contracts : (0 : ℝ) < maxPosition := by exact_mod_cast present
  have bounded : (maxPosition : ℝ) < 2 ^ 31 := by exact_mod_cast small
  have steep : 0 < Real.log ((edge : ℝ) / (100 - edge)) := by linarith
  rw [lmsrBFromRisk_inside present above below]
  have positive := div_pos contracts steep
  refine ⟨positive, ?_⟩
  rw [abs_of_pos positive, div_lt_iff₀ steep]
  calc (maxPosition : ℝ) < 2 ^ 31 := bounded
    _ ≤ 2 ^ 37 * (2 / 51) := by norm_num
    _ ≤ 2 ^ 1024 * (2 / 51) := by
      apply mul_le_mul_of_nonneg_right _ (by norm_num)
      exact pow_le_pow_right₀ one_le_two (by decide)
    _ ≤ 2 ^ 1024 * Real.log ((edge : ℝ) / (100 - edge)) := by gcongr

theorem lmsrSkewedFairValue_edge (present : 0 < maxPosition) (small : maxPosition < 2 ^ 31) (above : 50 < edge)
    (below : edge < 100) : lmsrSkewedFairValue (50 : ℝ) maxPosition (lmsrBFromRisk maxPosition edge) = 100 - edge := by
  have high : (50 : ℝ) < edge := by exact_mod_cast above
  have low : (edge : ℝ) < 100 := by exact_mod_cast below
  have rest : (100 : ℝ) - edge ≠ 0 := by linarith
  have ratio : 0 < (edge : ℝ) / (100 - edge) := div_pos (by linarith) (by linarith)
  have contracts : (maxPosition : ℝ) ≠ 0 := by exact_mod_cast present.ne'
  have steep : Real.log ((edge : ℝ) / (100 - edge)) ≠ 0 := by linarith [edgeOdds_log above below]
  have finite := (lmsrBFromRisk_finite present small above below).2
  have shift : (maxPosition : ℝ) / lmsrBFromRisk maxPosition edge = Real.log (edge / (100 - edge)) := by
    rw [lmsrBFromRisk_inside present above below]
    field_simp
  have even : (100 : ℝ) / 50 - 1 = 1 := by norm_num
  rw [lmsrSkewedFairValue_finite (by norm_num) finite, shift, even, chance_one_log ratio]
  field_simp
  ring

end

/-- The skew keeps the price range, falls with the inventory, composes and mirrors; the calibration takes an even
price to the band's edges at the position limit. -/
theorem lmsr_skew_laws :
    (∀ fv b : ℝ, 0 < fv → fv < 100 → 0 < b → Floating.isFinite b = true →
      (∀ n, 0 < lmsrSkewedFairValue fv n b ∧ lmsrSkewedFairValue fv n b < 100) ∧
      StrictAnti (fun n => lmsrSkewedFairValue fv n b) ∧
      (∀ n m, lmsrSkewedFairValue (lmsrSkewedFairValue fv n b) m b = lmsrSkewedFairValue fv (n + m) b) ∧
      ∀ n, lmsrSkewedFairValue (100 - fv) (-n) b = 100 - lmsrSkewedFairValue fv n b) ∧
    ∀ maxPosition edge : Int, 0 < maxPosition → maxPosition < 2 ^ 31 → 50 < edge → edge < 100 →
      lmsrSkewedFairValue (50 : ℝ) maxPosition (lmsrBFromRisk maxPosition edge) = 100 - edge ∧
      lmsrSkewedFairValue (50 : ℝ) (-maxPosition) (lmsrBFromRisk maxPosition edge) = edge := by
  constructor
  · intro fv b positive below liquid finite
    have finite : |b| < 2 ^ 1024 := of_decide_eq_true finite
    refine ⟨lmsrSkewedFairValue_inside positive below finite, ?_, lmsrSkewedFairValue_add positive below finite, ?_⟩
    · intro n m longer
      exact lmsrSkewedFairValue_lt positive below liquid finite longer
    · exact fun n => lmsrSkewedFairValue_mirror positive below n b
  · intro maxPosition edge present small above below
    have long := lmsrSkewedFairValue_edge present small above below
    refine ⟨long, ?_⟩
    have mirrored := lmsrSkewedFairValue_mirror (show (0 : ℝ) < 50 by norm_num) (by norm_num) maxPosition
      (lmsrBFromRisk maxPosition edge)
    rw [long, show (100 : ℝ) - 50 = 50 by norm_num] at mirrored
    rw [mirrored]
    ring

/-- Ten contracts at the limit of ten and a band edge of 90, in two halves from 50 and back. -/
theorem lmsr_skew_laws_ten :
    lmsrSkewedFairValue (50 : ℝ) ((10 : Int) : ℝ) (lmsrBFromRisk 10 90) = 10 ∧
      lmsrSkewedFairValue (lmsrSkewedFairValue (60 : ℝ) 5 1) (-5) 1 = 60 := by
  obtain ⟨skewed, calibrated⟩ := lmsr_skew_laws
  constructor
  · refine (calibrated 10 90 (by decide) (by decide) (by decide) (by decide)).1.trans ?_
    norm_num
  · have finite : Floating.isFinite (1 : ℝ) = true := by
      have wide : (1 : ℝ) < 2 ^ 1024 := one_lt_pow₀ one_lt_two (by decide)
      exact decide_eq_true (by rwa [abs_one])
    obtain ⟨_, _, composed, _⟩ := skewed 60 1 (by norm_num) (by norm_num) one_pos finite
    rw [composed 5 (-5)]
    exact if_pos (.inr (decide_eq_true (by norm_num)))

end Kalshi
