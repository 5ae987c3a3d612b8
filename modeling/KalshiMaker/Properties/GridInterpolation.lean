import KalshiMaker.Engine.TheoGrid
import KalshiMaker.Lib.Interpolation
import KalshiMaker.Strategy.Reservation
import Mathlib.Data.List.GetD

/-! The lookup in the table of fair values is its piecewise bilinear interpolation. -/
namespace Kalshi

namespace TheoGridConfig

open Interpolation

noncomputable section

/-- The breakpoints along an axis, from 0 on. -/
def axis (breakpoints : List ℝ) (i : ℕ) : ℝ := breakpoints.getD i 0

/-- The point of an axis's range that is nearest. -/
def clampedTo (breakpoints : List ℝ) (x : ℝ) : ℝ :=
  max (axis breakpoints 0) (min x (axis breakpoints (breakpoints.length - 1)))

variable (config : TheoGridConfig ℝ)

def ttc : ℕ → ℝ := axis config.ttcBreakpoints

def mid : ℕ → ℝ := axis config.midBreakpoints

def value (i j : ℕ) : ℝ := (config.values.getD i []).getD j 0

/-- Ascending breakpoints and a rectangular table. -/
structure Shaped : Prop where
  asserted : config.asserted = true
  ttcAscending : config.ttcBreakpoints.Pairwise (· < ·)
  midAscending : config.midBreakpoints.Pairwise (· < ·)
  rectangular : ∀ row ∈ config.values, row.length = config.midBreakpoints.length

/-- A cell of the grid that holds a point, once that is clamped. -/
structure Cell (x y : ℝ) (lo hi left right : ℕ) : Prop where
  rows : Spans config.ttc (config.ttcBreakpoints.length - 1) (clampedTo config.ttcBreakpoints x) lo hi
  cols : Spans config.mid (config.midBreakpoints.length - 1) (clampedTo config.midBreakpoints y) left right

/-- The bilinear formula of a cell. -/
def formula (lo hi left right : ℕ) (x y : ℝ) : ℝ :=
  patch config.ttc config.mid config.value lo hi left right (clampedTo config.ttcBreakpoints x)
    (clampedTo config.midBreakpoints y)

/-- What the lookup is to make of a table: its values at the breakpoints, each cell's bilinear formula between
them, which stays within the cell's corners, and beyond them the values at the edge. -/
structure Interpolates : Prop where
  exact : ∀ i < config.ttcBreakpoints.length, ∀ j < config.midBreakpoints.length,
    config.lookup (config.ttc i) (config.mid j) = some (config.value i j)
  covered : ∀ x y, ∃ lo hi left right, config.Cell x y lo hi left right ∧
    (lo + 1 = hi ∨ config.ttcBreakpoints.length = 1) ∧ (left + 1 = right ∨ config.midBreakpoints.length = 1)
  follows : ∀ x y lo hi left right, config.Cell x y lo hi left right →
    config.lookup x y = some (config.formula lo hi left right x y)
  between : ∀ x y lo hi left right, config.Cell x y lo hi left right →
    lowest config.value lo hi left right ≤ config.formula lo hi left right x y ∧
      config.formula lo hi left right x y ≤ highest config.value lo hi left right
  clamped : ∀ x y, config.lookup x y =
    config.lookup (clampedTo config.ttcBreakpoints x) (clampedTo config.midBreakpoints y)
  agree : ∀ x y lo hi left right lo' hi' left' right', config.Cell x y lo hi left right →
    config.Cell x y lo' hi' left' right' → config.formula lo hi left right x y =
      config.formula lo' hi' left' right' x y
  continuous : ∃ surface : ℝ × ℝ → ℝ, Continuous surface ∧ ∀ x y, config.lookup x y = some (surface (x, y))

end

variable {points : List ℝ}

theorem axis_eq {i : ℕ} (bound : i < points.length) : points[i]? = some (axis points i) := by
  unfold axis
  rw [List.getD_eq_getElem _ _ bound, List.getElem?_eq_getElem bound]

theorem axis_strictMonoOn (ascending : points.Pairwise (· < ·)) (nonempty : points ≠ []) :
    StrictMonoOn (axis points) (Set.Iic (points.length - 1)) := by
  have present := List.length_pos_of_ne_nil nonempty
  intro i _ j last order
  have bound : j < points.length := Nat.lt_of_le_pred present last
  unfold axis
  rw [List.getD_eq_getElem _ _ (order.trans bound), List.getD_eq_getElem _ _ bound]
  exact List.pairwise_iff_getElem.mp ascending i j _ _ order

/-- The clamped fraction is that of the clamped point. -/
theorem clamp_fraction {low high : ℝ} (order : low ≤ high) (x : ℝ) :
    Floating.clamp (if 0 < high - low then (x - low) / (high - low) else 0) 0 ((1 : Int) : ℝ) =
      fraction low high (max low (min x high)) := by
  -- a lone breakpoint has no range: the code takes the fraction 0, and so does the division by 0
  rcases order.eq_or_lt with rfl | wide
  · have none : ¬ (0 : ℝ) < low - low := by rw [sub_self]; exact lt_irrefl 0
    unfold fraction
    rw [if_neg none, sub_self low, div_zero, Int.cast_one]
    exact (if_neg (lt_irrefl (0 : ℝ))).trans (if_neg zero_lt_one.not_gt)
  · have range : 0 < high - low := sub_pos.mpr wide
    rw [if_pos range, Int.cast_one]
    rcases lt_or_ge x low with below | above
    · have negative : (x - low) / (high - low) < 0 := div_neg_of_neg_of_pos (sub_neg.mpr below) range
      have clamped : max low (min x high) = low := max_eq_left ((min_le_left _ _).trans below.le)
      rw [clamped, fraction, sub_self, zero_div]
      exact if_pos negative
    · have nonneg : 0 ≤ (x - low) / (high - low) := div_nonneg (sub_nonneg.mpr above) range.le
      rcases lt_or_ge high x with beyond | inside
      · have much : 1 < (x - low) / (high - low) := (one_lt_div range).mpr (sub_lt_sub_right beyond low)
        have clamped : max low (min x high) = high := by rw [min_eq_right beyond.le, max_eq_right order]
        rw [clamped, fraction, div_self range.ne']
        exact (if_neg nonneg.not_gt).trans (if_pos much)
      · have little : (x - low) / (high - low) ≤ 1 := (div_le_one range).mpr (sub_le_sub_right inside low)
        have clamped : max low (min x high) = x := by rw [min_eq_left inside, max_eq_right above]
        rw [clamped]
        exact (if_neg nonneg.not_gt).trans (if_neg little.not_gt)

/-- What the search along an axis has passed and where it has come to a halt. -/
structure Halts (points : List ℝ) (x : ℝ) (hi : ℕ) : Prop where
  bound : hi ≤ points.length - 1
  -- breakpoints at the point itself are not passed
  passed : ∀ i < hi, axis points i < x
  reached : x ≤ axis points hi ∨ hi = points.length - 1

theorem upper_halts (ascending : points.Pairwise (· < ·)) (x : ℝ) : Halts points x (upper points x) := by
  have partitioned : LowerBound.Partitioned (fun breakpoint => decide (breakpoint < x)) points :=
    ascending.imp fun order later => decide_eq_true (order.trans (of_decide_eq_true later))
  obtain ⟨within, front, back⟩ := LowerBound.lowerBound_parts partitioned
  have passed : ∀ i < LowerBound.lowerBound (fun breakpoint => decide (breakpoint < x)) points, axis points i < x := by
    intro i earlier
    have bound := earlier.trans_le within
    unfold axis
    rw [List.getD_eq_getElem _ _ bound]
    exact of_decide_eq_true (front i bound earlier)
  unfold upper
  dsimp only
  split
  -- beyond the last breakpoint the search steps back onto it
  next beyond => exact ⟨le_rfl, fun i earlier => passed i (by omega), Or.inr rfl⟩
  next inside =>
    have bound := not_le.mp inside
    refine ⟨by omega, passed, Or.inl ?_⟩
    unfold axis
    rw [List.getD_eq_getElem _ _ bound]
    exact not_lt.mp (of_decide_eq_false (back _ bound le_rfl))

/-- Between the breakpoints that bracket it a point is clamped as it is to the whole axis. -/
theorem clampedTo_halts (ascending : points.Pairwise (· < ·)) (nonempty : points ≠ []) {x : ℝ} {hi : ℕ}
    (halts : Halts points x hi) : clampedTo points x = max (axis points (hi - 1)) (min x (axis points hi)) := by
  have climbs := (axis_strictMonoOn ascending nonempty).monotoneOn
  -- where the search halts before the last breakpoint, neither of the two caps the point
  have capped : min x (axis points (points.length - 1)) = min x (axis points hi) := by
    rcases halts.reached with reached | last
    · have top := climbs halts.bound Set.self_mem_Iic halts.bound
      rw [min_eq_left reached, min_eq_left (reached.trans top)]
    · rw [last]
  unfold clampedTo
  rw [capped]
  rcases Nat.eq_zero_or_pos hi with rfl | past
  · rfl
  · have before : hi - 1 < hi := Nat.sub_lt past zero_lt_one
    have inside : hi - 1 ∈ Set.Iic (points.length - 1) := before.le.trans halts.bound
    have floor : axis points (hi - 1) ≤ min x (axis points hi) :=
      le_min (halts.passed _ before).le (climbs inside halts.bound before.le)
    have first : axis points 0 ≤ axis points (hi - 1) := climbs (Nat.zero_le _) inside (Nat.zero_le _)
    rw [max_eq_right floor, max_eq_right (first.trans floor)]

/-- The search brackets the clamped point. -/
theorem bracket_spans (ascending : points.Pairwise (· < ·)) (nonempty : points ≠ []) (x : ℝ) :
    ∃ lo hi, bracket points x = some ⟨lo, hi, fraction (axis points lo) (axis points hi) (clampedTo points x)⟩ ∧
      Spans (axis points) (points.length - 1) (clampedTo points x) lo hi := by
  have present := List.length_pos_of_ne_nil nonempty
  have halts := upper_halts ascending x
  have inside : upper points x - 1 ≤ points.length - 1 := (Nat.sub_le _ _).trans halts.bound
  have order := (axis_strictMonoOn ascending nonempty).monotoneOn inside halts.bound (Nat.sub_le _ _)
  have lower : (if upper points x = 0 then 0 else upper points x - 1) = upper points x - 1 := by
    split
    next first => rw [first]
    next later => rfl
  refine ⟨upper points x - 1, upper points x, ?_, ?_⟩
  · unfold bracket
    dsimp only
    rw [lower, axis_eq (Nat.lt_of_le_pred present halts.bound), axis_eq (Nat.lt_of_le_pred present inside)]
    rw [clampedTo_halts ascending nonempty halts, ← clamp_fraction order]
    rfl
  · rw [clampedTo_halts ascending nonempty halts]
    refine ⟨halts.bound, Nat.sub_le _ _, Nat.le_succ_of_pred_le le_rfl, le_max_left _ _, ?_⟩
    exact max_le order (min_le_right _ _)

variable {config : TheoGridConfig ℝ} {x y : ℝ} {lo hi left right : ℕ}

namespace Shaped

theorem rows (shaped : config.Shaped) : config.values.length = config.ttcBreakpoints.length := by
  have asserted := shaped.asserted
  simp only [TheoGridConfig.asserted, Bool.and_eq_true, beq_iff_eq] at asserted
  exact asserted.2

theorem ttc_nonempty (shaped : config.Shaped) : config.ttcBreakpoints ≠ [] := by
  have asserted := shaped.asserted
  simp only [TheoGridConfig.asserted, Bool.and_eq_true, Bool.not_eq_true', List.isEmpty_eq_false_iff] at asserted
  exact asserted.1.1

theorem mid_nonempty (shaped : config.Shaped) : config.midBreakpoints ≠ [] := by
  have asserted := shaped.asserted
  simp only [TheoGridConfig.asserted, Bool.and_eq_true, Bool.not_eq_true', List.isEmpty_eq_false_iff] at asserted
  exact asserted.1.2

theorem value_eq (shaped : config.Shaped) {i j : ℕ} (row : i < config.ttcBreakpoints.length)
    (col : j < config.midBreakpoints.length) :
    ∃ cells, config.values[i]? = some cells ∧ cells[j]? = some (config.value i j) := by
  have bound : i < config.values.length := by rwa [shaped.rows]
  have wide : j < config.values[i].length := by rwa [shaped.rectangular _ (List.getElem_mem bound)]
  refine ⟨config.values[i], List.getElem?_eq_getElem bound, ?_⟩
  unfold value
  rw [List.getD_eq_getElem _ _ bound, List.getD_eq_getElem _ _ wide, List.getElem?_eq_getElem wide]

theorem valueInRow_eq (shaped : config.Shaped) {i : ℕ} (row : i < config.ttcBreakpoints.length)
    (atLeft : left < config.midBreakpoints.length) (atRight : right < config.midBreakpoints.length) (c : ℝ) :
    config.valueInRow i ⟨left, right, fraction (config.mid left) (config.mid right) c⟩ =
      some (line config.mid (config.value i) left right c) := by
  obtain ⟨cells, found, low⟩ := shaped.value_eq row atLeft
  obtain ⟨_, found', high⟩ := shaped.value_eq row atRight
  cases found.symm.trans found'
  unfold valueInRow
  rw [found, line_eq]
  dsimp only [bind, Option.bind]
  rw [low, high]
  rfl

theorem cell_exists (shaped : config.Shaped) (x y : ℝ) :
    ∃ lo hi left right, config.Cell x y lo hi left right ∧
      config.lookup x y = some (config.formula lo hi left right x y) := by
  obtain ⟨lo, hi, ttcBracket, rows⟩ := bracket_spans shaped.ttcAscending shaped.ttc_nonempty x
  obtain ⟨left, right, midBracket, cols⟩ := bracket_spans shaped.midAscending shaped.mid_nonempty y
  refine ⟨lo, hi, left, right, ⟨rows, cols⟩, ?_⟩
  have someRow := List.length_pos_of_ne_nil shaped.ttc_nonempty
  have someCol := List.length_pos_of_ne_nil shaped.mid_nonempty
  have atHi := Nat.lt_of_le_pred someRow rows.bound
  have atRight := Nat.lt_of_le_pred someCol cols.bound
  have atLo := rows.order.trans_lt atHi
  have atLeft := cols.order.trans_lt atRight
  have valLo := shaped.valueInRow_eq atLo atLeft atRight (clampedTo config.midBreakpoints y)
  have valHi := shaped.valueInRow_eq atHi atLeft atRight (clampedTo config.midBreakpoints y)
  unfold mid at valLo valHi
  unfold lookup formula patch
  rw [ttcBracket, midBracket, line_eq]
  dsimp only [bind, Option.bind]
  rw [valLo, valHi]
  rfl

/-- Whatever cell holds the point, its formula is what the lookup returns. -/
theorem lookup_formula (shaped : config.Shaped) (cell : config.Cell x y lo hi left right) :
    config.lookup x y = some (config.formula lo hi left right x y) := by
  obtain ⟨_, _, _, _, own, found⟩ := shaped.cell_exists x y
  have climbsRow := axis_strictMonoOn shaped.ttcAscending shaped.ttc_nonempty
  have climbsCol := axis_strictMonoOn shaped.midAscending shaped.mid_nonempty
  rw [found]
  exact congrArg some (patch_agree own.rows cell.rows own.cols cell.cols climbsRow climbsCol config.value)

theorem cell_covers (shaped : config.Shaped) (x y : ℝ) : ∃ lo hi left right, config.Cell x y lo hi left right ∧
    (lo + 1 = hi ∨ config.ttcBreakpoints.length = 1) ∧ (left + 1 = right ∨ config.midBreakpoints.length = 1) := by
  obtain ⟨_, _, _, _, own, _⟩ := shaped.cell_exists x y
  have someRow := List.length_pos_of_ne_nil shaped.ttc_nonempty
  have someCol := List.length_pos_of_ne_nil shaped.mid_nonempty
  obtain ⟨lo, hi, rows, wide⟩ := own.rows.widen (axis_strictMonoOn shaped.ttcAscending shaped.ttc_nonempty)
  obtain ⟨left, right, cols, wide'⟩ := own.cols.widen (axis_strictMonoOn shaped.midAscending shaped.mid_nonempty)
  exact ⟨lo, hi, left, right, ⟨rows, cols⟩, by omega, by omega⟩

theorem axis_spans {i : ℕ} (bound : i < points.length) :
    Spans (axis points) (points.length - 1) (axis points i) i i where
  bound := Nat.le_pred_of_lt bound
  order := le_rfl
  near := Nat.le_succ i
  low := le_rfl
  high := le_rfl

theorem clampedTo_of_mem {x : ℝ} (inside : x ∈ Set.Icc (axis points 0) (axis points (points.length - 1))) :
    clampedTo points x = x := by
  unfold clampedTo
  rw [min_eq_left inside.2, max_eq_right inside.1]

theorem clampedTo_mem (ascending : points.Pairwise (· < ·)) (nonempty : points ≠ []) (x : ℝ) :
    clampedTo points x ∈ Set.Icc (axis points 0) (axis points (points.length - 1)) := by
  have climbs := (axis_strictMonoOn ascending nonempty).monotoneOn
  have order := climbs (Nat.zero_le _) Set.self_mem_Iic (Nat.zero_le (points.length - 1))
  exact ⟨le_max_left _ _, max_le order (min_le_right _ _)⟩

theorem axis_mem (ascending : points.Pairwise (· < ·)) {i : ℕ} (bound : i < points.length) :
    axis points i ∈ Set.Icc (axis points 0) (axis points (points.length - 1)) := by
  have climbs := (axis_strictMonoOn ascending (List.ne_nil_of_length_pos (Nat.zero_lt_of_lt bound))).monotoneOn
  have last : i ≤ points.length - 1 := Nat.le_pred_of_lt bound
  exact ⟨climbs (Nat.zero_le _) last (Nat.zero_le i), climbs last Set.self_mem_Iic last⟩

theorem continuous_clampedTo (points : List ℝ) : Continuous (clampedTo points) := by
  unfold clampedTo
  exact continuous_const.max (continuous_id.min continuous_const)

theorem lookup_exact (shaped : config.Shaped) {i j : ℕ} (row : i < config.ttcBreakpoints.length)
    (col : j < config.midBreakpoints.length) :
    config.lookup (config.ttc i) (config.mid j) = some (config.value i j) := by
  have here : clampedTo config.ttcBreakpoints (config.ttc i) = config.ttc i :=
    clampedTo_of_mem (axis_mem shaped.ttcAscending row)
  have here' : clampedTo config.midBreakpoints (config.mid j) = config.mid j :=
    clampedTo_of_mem (axis_mem shaped.midAscending col)
  have cell : config.Cell (config.ttc i) (config.mid j) i i j j := by
    constructor
    · rw [here]
      exact axis_spans row
    · rw [here']
      exact axis_spans col
  rw [shaped.lookup_formula cell]
  unfold formula patch
  rw [line_low _ here, line_low _ here']

theorem lookup_clamped (shaped : config.Shaped) (x y : ℝ) :
    config.lookup x y = config.lookup (clampedTo config.ttcBreakpoints x) (clampedTo config.midBreakpoints y) := by
  have again := clampedTo_of_mem (clampedTo_mem shaped.ttcAscending shaped.ttc_nonempty x)
  have again' := clampedTo_of_mem (clampedTo_mem shaped.midAscending shaped.mid_nonempty y)
  obtain ⟨lo, hi, left, right, cell, found⟩ := shaped.cell_exists x y
  have moved : config.Cell (clampedTo config.ttcBreakpoints x)
    (clampedTo config.midBreakpoints y) lo hi left right := by
    constructor
    · rw [again]
      exact cell.rows
    · rw [again']
      exact cell.cols
  rw [found, shaped.lookup_formula moved]
  unfold formula
  rw [again, again']

theorem lookup_continuous (shaped : config.Shaped) :
    ∃ surface : ℝ × ℝ → ℝ, Continuous surface ∧ ∀ x y, config.lookup x y = some (surface (x, y)) := by
  refine ⟨fun p => (config.lookup p.1 p.2).getD 0, ?_, fun x y => ?_⟩
  · have smoothRow := (continuous_clampedTo config.ttcBreakpoints).comp (continuous_fst (X := ℝ) (Y := ℝ))
    have smoothCol := (continuous_clampedTo config.midBreakpoints).comp (continuous_snd (X := ℝ) (Y := ℝ))
    have coveredRow : ∀ p : ℝ × ℝ, ∃ lo hi, Spans config.ttc (config.ttcBreakpoints.length - 1)
        (clampedTo config.ttcBreakpoints p.1) lo hi := by
      intro p
      obtain ⟨lo, hi, _, _, cell, _⟩ := shaped.cell_exists p.1 p.2
      exact ⟨lo, hi, cell.rows⟩
    have coveredCol : ∀ p : ℝ × ℝ, ∃ left right, Spans config.mid (config.midBreakpoints.length - 1)
        (clampedTo config.midBreakpoints p.2) left right := by
      intro p
      obtain ⟨_, _, left, right, cell, _⟩ := shaped.cell_exists p.1 p.2
      exact ⟨left, right, cell.cols⟩
    refine continuous_of_patches config.value smoothRow smoothCol coveredRow coveredCol ?_
    intro p lo hi left right rows cols
    rw [shaped.lookup_formula ⟨rows, cols⟩]
    rfl
  · obtain ⟨_, _, _, _, _, found⟩ := shaped.cell_exists x y
    dsimp only
    rw [found]
    rfl

end Shaped

/-- In real arithmetic the lookup interpolates every table of the right shape. -/
theorem lookup_interpolates (shaped : config.Shaped) : config.Interpolates where
  exact _ row _ col := shaped.lookup_exact row col
  covered := shaped.cell_covers
  follows _ _ _ _ _ _ cell := shaped.lookup_formula cell
  between _ _ _ _ _ _ cell := patch_mem cell.rows cell.cols config.value
  clamped := shaped.lookup_clamped
  agree _ _ _ _ _ _ _ _ _ _ cell cell' :=
    Option.some.inj ((shaped.lookup_formula cell).symm.trans (shaped.lookup_formula cell'))
  continuous := shaped.lookup_continuous

theorem default_shaped : (TheoGridConfig.default : TheoGridConfig ℝ).Shaped where
  asserted := rfl
  ttcAscending := by
    change [((1 : Int) : ℝ) / ((4 : Int) : ℝ), ((1 : Int) : ℝ), ((4 : Int) : ℝ), ((12 : Int) : ℝ),
      ((48 : Int) : ℝ)].Pairwise (· < ·)
    norm_num
  midAscending := by
    change [((10 : Int) : ℝ), ((25 : Int) : ℝ), ((50 : Int) : ℝ), ((75 : Int) : ℝ), ((90 : Int) : ℝ)].Pairwise (· < ·)
    norm_num
  rectangular := by
    intro row member
    simp only [TheoGridConfig.default, List.map_cons, List.map_nil, List.mem_cons, List.not_mem_nil,
      or_false] at member
    rcases member with rfl | rfl | rfl | rfl | rfl <;> rfl

theorem lookup_interpolates_default :
    (TheoGridConfig.default : TheoGridConfig ℝ).Shaped ∧ (TheoGridConfig.default : TheoGridConfig ℝ).Interpolates :=
  ⟨default_shaped, lookup_interpolates default_shaped⟩

end TheoGridConfig

end Kalshi
