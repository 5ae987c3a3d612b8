import Mathlib.Algebra.BigOperators.Group.List.Basic
import Mathlib.Algebra.Order.BigOperators.Group.List
import Mathlib.Analysis.Convex.Basic
import Mathlib.Tactic.Linarith

/-! Weighted means stay between the values they are taken over. -/
namespace Mean

open Set

variable {K : Type} [Field K] {ι : Type}

def total (weight : ι → K) (items : List ι) : K := (items.map weight).sum

def weighted (weight value : ι → K) (items : List ι) : K := (items.map fun item => weight item * value item).sum

@[simp] theorem total_nil (weight : ι → K) : total weight [] = 0 := rfl

@[simp] theorem total_cons (weight : ι → K) (item : ι) (items : List ι) :
    total weight (item :: items) = weight item + total weight items := List.sum_cons

@[simp] theorem weighted_nil (weight value : ι → K) : weighted weight value [] = 0 := rfl

@[simp] theorem weighted_cons (weight value : ι → K) (item : ι) (items : List ι) :
    weighted weight value (item :: items) = weight item * value item + weighted weight value items := List.sum_cons

variable [LinearOrder K] [IsStrictOrderedRing K] {low high : K}

/-- The mean of two values. -/
theorem pair_mem_Icc {x y u v : K} (left : x ∈ Icc low high) (right : y ∈ Icc low high) (first : 0 ≤ u)
    (second : 0 ≤ v) (present : 0 < u + v) : (x * u + y * v) / (u + v) ∈ Icc low high := by
  have mixed := convex_iff_div.mp (convex_Icc low high) left right first second present
  simp only [smul_eq_mul] at mixed
  have same : (x * u + y * v) / (u + v) = u / (u + v) * x + v / (u + v) * y := by ring
  rw [same]
  exact mixed

/-- A step of an exponential average. -/
theorem blend_mem_Icc {x y alpha : K} (left : x ∈ Icc low high) (right : y ∈ Icc low high)
    (positive : 0 ≤ alpha) (proper : alpha ≤ 1) : alpha * x + (1 - alpha) * y ∈ Icc low high := by
  have mixed := convex_Icc low high left right positive (sub_nonneg.mpr proper) (add_sub_cancel alpha 1)
  simpa only [smul_eq_mul] using mixed

variable {weight value : ι → K} {items : List ι}

theorem total_nonneg (positive : ∀ item ∈ items, 0 < weight item) : 0 ≤ total weight items := by
  apply List.sum_nonneg
  intro x member
  obtain ⟨item, among, rfl⟩ := List.mem_map.mp member
  exact (positive item among).le

theorem total_pos (positive : ∀ item ∈ items, 0 < weight item) (present : items ≠ []) : 0 < total weight items := by
  cases items with
  | nil => exact absurd rfl present
  | cons item items =>
    rw [total_cons]
    exact add_pos_of_pos_of_nonneg (positive item List.mem_cons_self)
      (total_nonneg fun other member => positive other (List.mem_cons_of_mem _ member))

theorem weighted_between (positive : ∀ item ∈ items, 0 < weight item)
    (within : ∀ item ∈ items, value item ∈ Icc low high) :
    low * total weight items ≤ weighted weight value items ∧
      weighted weight value items ≤ high * total weight items := by
  induction items with
  | nil => simp
  | cons item items ih =>
    obtain ⟨lower, upper⟩ := ih (fun other member => positive other (List.mem_cons_of_mem _ member))
      (fun other member => within other (List.mem_cons_of_mem _ member))
    have weighs := positive item List.mem_cons_self
    obtain ⟨above, below⟩ := within item List.mem_cons_self
    have least := mul_le_mul_of_nonneg_right above weighs.le
    have most := mul_le_mul_of_nonneg_right below weighs.le
    simp only [total_cons, weighted_cons]
    constructor <;> linarith

/-- The mean of a list. -/
theorem mean_mem_Icc (positive : ∀ item ∈ items, 0 < weight item) (present : items ≠ [])
    (within : ∀ item ∈ items, value item ∈ Icc low high) :
    weighted weight value items / total weight items ∈ Icc low high := by
  have weighs := total_pos positive present
  obtain ⟨lower, upper⟩ := weighted_between positive within
  constructor
  · exact (le_div_iff₀ weighs).mpr lower
  · exact (div_le_iff₀ weighs).mpr upper

end Mean
