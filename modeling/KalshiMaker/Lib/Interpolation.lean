import Mathlib.Analysis.Convex.Segment
import Mathlib.Analysis.Normed.Order.Lattice
import Mathlib.Topology.LocallyFinite
import Mathlib.Topology.Order.OrderClosed

/-! Piecewise linear interpolation between breakpoints, along one axis and along two. -/
namespace Interpolation

variable {K : Type*} [Field K] [LinearOrder K] [IsStrictOrderedRing K]

/-- How far `x` has come from `low` to `high`. -/
def fraction (low high x : K) : K := (x - low) / (high - low)

/-- Two breakpoints next to each other, or one alone, with `x` between them. -/
structure Spans (points : ℕ → K) (last : ℕ) (x : K) (lo hi : ℕ) : Prop where
  bound : hi ≤ last
  order : lo ≤ hi
  near : hi ≤ lo + 1
  low : points lo ≤ x
  high : x ≤ points hi

/-- The straight line between the values at two breakpoints. -/
def line (points values : ℕ → K) (lo hi : ℕ) (x : K) : K :=
  AffineMap.lineMap (values lo) (values hi) (fraction (points lo) (points hi) x)

variable {points : ℕ → K} {last : ℕ} {x : K} {lo hi lo' hi' : ℕ}

omit [LinearOrder K] [IsStrictOrderedRing K] in
theorem line_eq (values : ℕ → K) :
    line points values lo hi x = values lo + fraction (points lo) (points hi) x * (values hi - values lo) := by
  unfold line
  rw [AffineMap.lineMap_apply_ring', add_comm]

omit [LinearOrder K] [IsStrictOrderedRing K] in
theorem line_low (values : ℕ → K) (same : x = points lo) : line points values lo hi x = values lo := by
  unfold line fraction
  rw [same, sub_self, zero_div, AffineMap.lineMap_apply_zero]

namespace Spans

theorem line_high (spans : Spans points last x lo hi) (ascending : StrictMonoOn points (Set.Iic last))
    (values : ℕ → K) (same : x = points hi) : line points values lo hi x = values hi := by
  rcases spans.order.eq_or_lt with rfl | apart
  · exact line_low values same
  · have rises : points lo < points hi := ascending (apart.le.trans spans.bound) spans.bound apart
    unfold line fraction
    rw [same, div_self (sub_pos.mpr rises).ne', AffineMap.lineMap_apply_one]

theorem fraction_mem (spans : Spans points last x lo hi) : fraction (points lo) (points hi) x ∈ Set.Icc (0 : K) 1 := by
  have covered := spans.low
  have reach := spans.high
  constructor
  · exact div_nonneg (sub_nonneg.mpr covered) (sub_nonneg.mpr (covered.trans reach))
  · exact div_le_one_of_le₀ (sub_le_sub_right reach _) (sub_nonneg.mpr (covered.trans reach))

theorem line_mem (spans : Spans points last x lo hi) (values : ℕ → K) :
    line points values lo hi x ∈ Set.uIcc (values lo) (values hi) := by
  rw [← segment_eq_uIcc, segment_eq_image_lineMap]
  exact Set.mem_image_of_mem _ spans.fraction_mem

omit [Field K] [IsStrictOrderedRing K] in
/-- On an axis of several breakpoints, a point that one of them spans lies beside a neighbour as well. -/
theorem widen (spans : Spans points last x lo hi) (ascending : StrictMonoOn points (Set.Iic last)) :
    ∃ low high, Spans points last x low high ∧ (low + 1 = high ∨ last = 0) := by
  -- a lone breakpoint takes its right neighbour, and its left one at the end of the axis
  rcases spans.order.eq_or_lt with rfl | apart
  · rcases spans.bound.lt_or_eq with more | rfl
    · have rises := ascending spans.bound more (Nat.lt_succ_self lo)
      exact ⟨lo, lo + 1, ⟨more, Nat.le_succ lo, le_rfl, spans.low, spans.high.trans rises.le⟩, Or.inl rfl⟩
    · rcases Nat.eq_zero_or_pos lo with none | past
      · exact ⟨lo, lo, spans, Or.inr none⟩
      · have before : lo - 1 < lo := Nat.sub_lt past zero_lt_one
        have rises := ascending before.le Set.self_mem_Iic before
        refine ⟨lo - 1, lo, ⟨le_rfl, before.le, ?_, rises.le.trans spans.low, spans.high⟩, Or.inl ?_⟩
        · exact Nat.le_succ_of_pred_le le_rfl
        · exact Nat.succ_pred_eq_of_pos past
  · exact ⟨lo, hi, spans, Or.inl (le_antisymm apart spans.near)⟩

omit [Field K] [IsStrictOrderedRing K] in
/-- Breakpoints that span a point come no later than those that reach it. -/
theorem le_of_spans (spans : Spans points last x lo hi) (other : Spans points last x lo' hi')
    (ascending : StrictMonoOn points (Set.Iic last)) : lo ≤ hi' := by
  have meets : points lo ≤ points hi' := spans.low.trans other.high
  exact (ascending.le_iff_le (spans.order.trans spans.bound) other.bound).mp meets

/-- Wherever two spans meet, their lines do. -/
theorem line_agree (spans : Spans points last x lo hi) (other : Spans points last x lo' hi')
    (ascending : StrictMonoOn points (Set.Iic last)) (values : ℕ → K) :
    line points values lo hi x = line points values lo' hi' x := by
  have reach := spans.le_of_spans other ascending
  have reach' := other.le_of_spans spans ascending
  rcases lt_trichotomy lo lo' with before | rfl | after
  · -- the first ends where the second begins
    have joint : lo' = hi := le_antisymm reach' (spans.near.trans before)
    subst joint
    have here : x = points lo' := le_antisymm spans.high other.low
    rw [spans.line_high ascending values here, line_low values here]
  · rcases lt_trichotomy hi hi' with short | rfl | long
    · have joint : lo = hi := le_antisymm spans.order (Nat.le_of_lt_succ (short.trans_le other.near))
      subst joint
      have here : x = points lo := le_antisymm spans.high spans.low
      rw [line_low values here, line_low values here]
    · rfl
    · have joint : lo = hi' := le_antisymm other.order (Nat.le_of_lt_succ (long.trans_le spans.near))
      subst joint
      have here : x = points lo := le_antisymm other.high other.low
      rw [line_low values here, line_low values here]
  · have joint : lo = hi' := le_antisymm reach (other.near.trans after)
    subst joint
    have here : x = points lo := le_antisymm other.high spans.low
    rw [other.line_high ascending values here, line_low values here]

end Spans

/-! ### Two axes -/

/-- Along the second axis at two breakpoints of the first, then along the first. -/
def patch (rows cols : ℕ → K) (values : ℕ → ℕ → K) (lo hi lo' hi' : ℕ) (x y : K) : K :=
  line rows (fun i => line cols (values i) lo' hi' y) lo hi x

def lowest (values : ℕ → ℕ → K) (lo hi lo' hi' : ℕ) : K :=
  min (min (values lo lo') (values lo hi')) (min (values hi lo') (values hi hi'))

def highest (values : ℕ → ℕ → K) (lo hi lo' hi' : ℕ) : K :=
  max (max (values lo lo') (values lo hi')) (max (values hi lo') (values hi hi'))

section

variable {rows cols : ℕ → K} {lastRow lastCol : ℕ} {y : K} {left right left' right' : ℕ}

theorem patch_agree (spansRow : Spans rows lastRow x lo hi) (spansRow' : Spans rows lastRow x lo' hi')
    (spansCol : Spans cols lastCol y left right) (spansCol' : Spans cols lastCol y left' right')
    (ascendingRows : StrictMonoOn rows (Set.Iic lastRow)) (ascendingCols : StrictMonoOn cols (Set.Iic lastCol))
    (values : ℕ → ℕ → K) :
    patch rows cols values lo hi left right x y = patch rows cols values lo' hi' left' right' x y := by
  have inner : (fun i => line cols (values i) left right y) = fun i => line cols (values i) left' right' y := by
    funext i
    exact spansCol.line_agree spansCol' ascendingCols (values i)
  unfold patch
  rw [inner]
  exact spansRow.line_agree spansRow' ascendingRows _

/-- A patch stays between the values at its corners. -/
theorem patch_mem (spansRow : Spans rows lastRow x lo hi) (spansCol : Spans cols lastCol y left right)
    (values : ℕ → ℕ → K) :
    lowest values lo hi left right ≤ patch rows cols values lo hi left right x y ∧
      patch rows cols values lo hi left right x y ≤ highest values lo hi left right := by
  have atLow := spansCol.line_mem (values lo)
  have atHigh := spansCol.line_mem (values hi)
  obtain ⟨above, below⟩ := spansRow.line_mem fun i => line cols (values i) left right y
  constructor
  · exact (min_le_min atLow.1 atHigh.1).trans above
  · exact below.trans (max_le_max atLow.2 atHigh.2)

end

/-! ### Continuity -/

section

variable [TopologicalSpace K] [IsTopologicalRing K] [OrderClosedTopology K] {X : Type*} [TopologicalSpace X]
  {rows cols : ℕ → K} {lastRow lastCol : ℕ} {across along f : X → K}

omit [Field K] [IsStrictOrderedRing K] [IsTopologicalRing K] in
theorem isClosed_spans (smooth : Continuous across) (lo hi : ℕ) :
    IsClosed {p | Spans rows lastRow (across p) lo hi} := by
  by_cases next : hi ≤ lastRow ∧ lo ≤ hi ∧ hi ≤ lo + 1
  · have between : {p | Spans rows lastRow (across p) lo hi} =
      {p | rows lo ≤ across p} ∩ {p | across p ≤ rows hi} := by
      ext p
      exact ⟨fun spans => ⟨spans.low, spans.high⟩, fun inside => ⟨next.1, next.2.1, next.2.2, inside.1, inside.2⟩⟩
    rw [between]
    exact (isClosed_le continuous_const smooth).inter (isClosed_le smooth continuous_const)
  · have empty : {p | Spans rows lastRow (across p) lo hi} = ∅ := by
      ext p
      exact iff_of_false (fun spans => next ⟨spans.bound, spans.order, spans.near⟩) (Set.notMem_empty p)
    rw [empty]
    exact isClosed_empty

omit [LinearOrder K] [IsStrictOrderedRing K] [OrderClosedTopology K] in
theorem continuous_line {points : ℕ → K} {lo hi : ℕ} (values : ℕ → X → K) (smooth : Continuous across)
    (low : Continuous (values lo)) (high : Continuous (values hi)) :
    Continuous fun p => line points (fun i => values i p) lo hi (across p) := by
  simp only [line_eq, fraction]
  exact low.add (((smooth.sub continuous_const).div_const _).mul (high.sub low))

omit [IsStrictOrderedRing K] in
/-- A surface is continuous where it follows, wherever two spans meet, the patch between them. -/
theorem continuous_of_patches (values : ℕ → ℕ → K) (smoothRow : Continuous across) (smoothCol : Continuous along)
    (coveredRow : ∀ p, ∃ lo hi, Spans rows lastRow (across p) lo hi)
    (coveredCol : ∀ p, ∃ left right, Spans cols lastCol (along p) left right)
    (follows : ∀ p lo hi left right, Spans rows lastRow (across p) lo hi → Spans cols lastCol (along p) left right →
      f p = patch rows cols values lo hi left right (across p) (along p)) : Continuous f := by
  -- finitely many closed cells cover everything
  let cells : (Fin (lastRow + 1) × Fin (lastRow + 1)) × Fin (lastCol + 1) × Fin (lastCol + 1) → Set X := fun cell =>
    {p | Spans rows lastRow (across p) cell.1.1 cell.1.2} ∩ {p | Spans cols lastCol (along p) cell.2.1 cell.2.2}
  refine (locallyFinite_of_finite cells).continuous ?_ ?_ ?_
  · refine Set.eq_univ_of_forall fun p => Set.mem_iUnion.mpr ?_
    obtain ⟨lo, hi, spansRow⟩ := coveredRow p
    obtain ⟨left, right, spansCol⟩ := coveredCol p
    have atLo := Nat.lt_succ_of_le (spansRow.order.trans spansRow.bound)
    have atHi := Nat.lt_succ_of_le spansRow.bound
    have atLeft := Nat.lt_succ_of_le (spansCol.order.trans spansCol.bound)
    have atRight := Nat.lt_succ_of_le spansCol.bound
    exact ⟨((⟨lo, atLo⟩, ⟨hi, atHi⟩), (⟨left, atLeft⟩, ⟨right, atRight⟩)), spansRow, spansCol⟩
  · rintro ⟨⟨lo, hi⟩, left, right⟩
    exact (isClosed_spans smoothRow _ _).inter (isClosed_spans smoothCol _ _)
  · rintro ⟨⟨lo, hi⟩, left, right⟩
    have inner : ∀ i, Continuous fun p => line cols (values i) left right (along p) := fun i =>
      continuous_line (fun j _ => values i j) smoothCol continuous_const continuous_const
    have surface : Continuous fun p => patch rows cols values lo hi left right (across p) (along p) :=
      continuous_line (fun i p => line cols (values i) left right (along p)) smoothRow (inner lo) (inner hi)
    exact surface.continuousOn.congr fun p inside => follows p _ _ _ _ inside.1 inside.2

end

end Interpolation
