import Mathlib.Analysis.SpecialFunctions.Sigmoid
import Mathlib.Analysis.Calculus.Deriv.MeanValue
import Mathlib.Order.Monotone.Union

/-! A chance whose odds shift exponentially: it moves by less than a quarter of the shift. -/
namespace LogOdds

open Real Set

/-- The chance of an event that has `odds` against it, shifted by `x` in log odds. -/
noncomputable def chance (odds x : ℝ) : ℝ := 1 / (1 + odds * exp x)

variable {odds x y : ℝ}

theorem chance_eq_sigmoid (positive : 0 < odds) (x : ℝ) : chance odds x = sigmoid (-(log odds + x)) := by
  rw [chance, sigmoid_def, neg_neg, exp_add, exp_log positive, one_div]

/-- The sigmoid has slope a quarter at 0 and less elsewhere. -/
theorem quarter_sub_sigmoid_strictMono : StrictMono fun x : ℝ => x / 4 - sigmoid x := by
  have slope : ∀ x : ℝ, HasDerivAt (fun x => x / 4 - sigmoid x) (1 / 4 - sigmoid x * (1 - sigmoid x)) x := by
    intro x
    exact ((hasDerivAt_id x).div_const 4).sub (hasDerivAt_sigmoid x)
  have continuous : Continuous fun x : ℝ => x / 4 - sigmoid x :=
    (continuous_id.div_const 4).sub continuous_sigmoid
  -- the slope is the square of the distance from one half, so it vanishes at 0 alone
  have rising : ∀ x : ℝ, x ≠ 0 → 0 < deriv (fun x => x / 4 - sigmoid x) x := by
    intro x away
    have half : sigmoid x ≠ 1 / 2 := by
      rw [one_div, ← sigmoid_zero]
      exact fun same => away (sigmoid_injective same)
    rw [(slope x).deriv]
    have square : 0 < (1 / 2 - sigmoid x) ^ 2 := by
      have apart : 1 / 2 - sigmoid x ≠ 0 := sub_ne_zero.mpr half.symm
      positivity
    linarith [square, show (1 / 2 - sigmoid x) ^ 2 = 1 / 4 - sigmoid x * (1 - sigmoid x) by ring]
  -- at 0 itself the derivative is no help: the two half lines are taken apart and joined there
  have left : StrictMonoOn (fun x : ℝ => x / 4 - sigmoid x) (Iic 0) := by
    apply strictMonoOn_of_deriv_pos (convex_Iic 0) continuous.continuousOn
    intro x inside
    rw [interior_Iic] at inside
    exact rising x inside.ne
  have right : StrictMonoOn (fun x : ℝ => x / 4 - sigmoid x) (Ici 0) := by
    apply strictMonoOn_of_deriv_pos (convex_Ici 0) continuous.continuousOn
    intro x inside
    rw [interior_Ici] at inside
    exact rising x inside.ne'
  exact StrictMonoOn.Iic_union_Ici left right

theorem chance_pos (positive : 0 < odds) (x : ℝ) : 0 < chance odds x := by
  rw [chance_eq_sigmoid positive]
  exact sigmoid_pos _

theorem chance_lt_one (positive : 0 < odds) (x : ℝ) : chance odds x < 1 := by
  rw [chance_eq_sigmoid positive]
  exact sigmoid_lt_one _

theorem chance_strictAnti (positive : 0 < odds) : StrictAnti (chance odds) := by
  intro x y longer
  rw [chance_eq_sigmoid positive, chance_eq_sigmoid positive]
  apply sigmoid_strictMono
  linarith

theorem chance_sub_lt (positive : 0 < odds) (longer : x < y) :
    chance odds x - chance odds y < (y - x) / 4 := by
  have steeper := quarter_sub_sigmoid_strictMono (show -(log odds + y) < -(log odds + x) by linarith)
  dsimp only at steeper
  rw [← chance_eq_sigmoid positive, ← chance_eq_sigmoid positive] at steeper
  linarith

/-- The complementary chance has the inverse odds, shifted the other way. -/
theorem chance_inv_neg (positive : 0 < odds) (x : ℝ) : chance odds⁻¹ (-x) = 1 - chance odds x := by
  rw [chance_eq_sigmoid (inv_pos.mpr positive), chance_eq_sigmoid positive, log_inv, ← sigmoid_neg]
  congr 1
  ring

/-- The odds against, read back off a chance, are those it came from, shifted. -/
theorem odds_chance (odds x : ℝ) : 1 / chance odds x - 1 = odds * exp x := by
  unfold chance
  rw [one_div_one_div]
  ring

/-- Shifts add up. -/
theorem chance_chance (odds x y : ℝ) : chance (1 / chance odds x - 1) y = chance odds (x + y) := by
  rw [odds_chance]
  unfold chance
  rw [exp_add, mul_assoc]

/-- From even odds, a shift by the log of a ratio makes that ratio the odds against. -/
theorem chance_one_log {ratio : ℝ} (positive : 0 < ratio) : chance 1 (log ratio) = 1 / (1 + ratio) := by
  unfold chance
  rw [exp_log positive, one_mul]

end LogOdds
