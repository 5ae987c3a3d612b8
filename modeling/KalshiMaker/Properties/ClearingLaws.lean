import KalshiMaker.Engine.BookSizes
import KalshiMaker.Engine.DepthPricing
import KalshiMaker.Lib.Mean
import KalshiMaker.Properties.MirrorSymmetry

/-! The clearing price in real arithmetic: the micro-price at the touch, its mirror image, and where it lies. -/
namespace Kalshi

open Mean

noncomputable instance Power.real : Power ℝ where
  pow base exponent := base ^ exponent

theorem Quantity.contracts_real (q : Quantity) : (q.contracts : ℝ) = q.centi / 100 := by
  change (q.centi : ℝ) / ((100 : Int) : ℝ) = q.centi / 100
  rw [Int.cast_ofNat]

namespace DepthWeighting

variable (weighting : DepthWeighting ℝ) {levels : List Level}

theorem used_subset : weighting.used levels ⊆ levels := by
  unfold used
  split
  · exact List.take_subset _ _
  · exact List.Subset.refl _

theorem used_ne_nil (present : levels ≠ []) : weighting.used levels ≠ [] := by
  unfold used
  split
  next limited =>
    simp only [ne_eq, List.take_eq_nil_iff, present, or_false]
    omega
  next => exact present

theorem used_single {level : Level} {rest : List Level} (single : weighting.maxLevels = 1 ∨ rest = []) :
    weighting.used (level :: rest) = [level] := by
  unfold used
  rcases single with one | rfl
  · simp [one]
  · split
    next limited =>
      apply List.take_of_length_le
      rw [List.length_singleton]
      omega
    next => rfl

end DepthWeighting

namespace LocalOrderbook

/-- Both sides have levels, with strictly descending prices and positive sizes, and do not cross. -/
structure TwoSided (book : LocalOrderbook) : Prop where
  ladder : ∀ side, Ladder (book.levels side)
  quoted : ∀ side, book.levels side ≠ []
  uncrossed : ∀ bid ask, book.bestBid = some bid → book.bestAsk = some ask → bid.priceCents ≤ ask.priceCents

variable {book : LocalOrderbook} (weighting : DepthWeighting ℝ) (mid : ℝ) (side : Side)

theorem accumulateSide_real (levels : List Level) :
    accumulateSide weighting mid side levels =
      { weightTotal := total (depthWeight weighting mid side) (weighting.used levels)
        weightedPriceSum := weighted (depthWeight weighting mid side) (fun level => (level.yesPrice side : ℝ))
          (weighting.used levels) } := by
  unfold accumulateSide
  have sums : ∀ (items : List Level) (start : SideDepth ℝ),
      items.foldl (fun depth level =>
        ({ weightTotal := depth.weightTotal + depthWeight weighting mid side level
           weightedPriceSum := depth.weightedPriceSum +
            depthWeight weighting mid side level * (level.yesPrice side : ℝ) } : SideDepth ℝ)) start =
        { weightTotal := start.weightTotal + total (depthWeight weighting mid side) items
          weightedPriceSum := start.weightedPriceSum +
            weighted (depthWeight weighting mid side) (fun level => (level.yesPrice side : ℝ)) items } := by
    intro items
    induction items with
    | nil => simp
    | cons item items ih =>
      intro start
      rw [List.foldl_cons, ih, total_cons, weighted_cons]
      simp only [add_assoc]
  refine (sums _ _).trans ?_
  change SideDepth.mk (0 + _) (0 + _) = _
  rw [zero_add, zero_add]

variable {weighting mid side}

theorem depthWeight_pos {level : Level} (size : 0 < level.quantity.centi) (decay : 0 < weighting.decayPerCent) :
    0 < depthWeight weighting mid side level := by
  unfold depthWeight
  rw [Quantity.contracts_real]
  have contracts : (0 : ℝ) < level.quantity.centi := Int.cast_pos.mpr size
  exact mul_pos (by positivity) (Real.rpow_pos_of_pos decay _)

theorem TwoSided.weighs (two : book.TwoSided) (decay : 0 < weighting.decayPerCent) :
    ∀ level ∈ weighting.used (book.levels side), 0 < depthWeight weighting mid side level :=
  fun level member => depthWeight_pos ((two.ladder side).positive level (weighting.used_subset member)) decay

theorem TwoSided.total_pos (two : book.TwoSided) (decay : 0 < weighting.decayPerCent) :
    0 < total (depthWeight weighting mid side) (weighting.used (book.levels side)) :=
  Mean.total_pos (two.weighs decay) (weighting.used_ne_nil (two.quoted side))

/-- The average price of a side, over the levels used. -/
noncomputable def averagePrice (weighting : DepthWeighting ℝ) (book : LocalOrderbook) (side : Side) : ℝ :=
  weighted (depthWeight weighting book.midPriceCents side) (fun level => (level.yesPrice side : ℝ))
      (weighting.used (book.levels side)) /
    total (depthWeight weighting book.midPriceCents side) (weighting.used (book.levels side))

/-- The weight of a side, over the levels used. -/
noncomputable def sideWeight (weighting : DepthWeighting ℝ) (book : LocalOrderbook) (side : Side) : ℝ :=
  total (depthWeight weighting book.midPriceCents side) (weighting.used (book.levels side))

theorem clearingPriceCents_real (two : book.TwoSided) (decay : 0 < weighting.decayPerCent) :
    book.clearingPriceCents weighting =
      (averagePrice weighting book .yes * sideWeight weighting book .no +
          averagePrice weighting book .no * sideWeight weighting book .yes) /
        (sideWeight weighting book .yes + sideWeight weighting book .no) := by
  have bids : ¬ sideWeight weighting book .yes ≤ 0 := not_le.mpr (two.total_pos decay)
  have asks : ¬ sideWeight weighting book .no ≤ 0 := not_le.mpr (two.total_pos decay)
  have present : ¬ (book.state.yes.isEmpty || book.state.no.isEmpty) = true := by
    have yes : book.state.yes ≠ [] := two.quoted .yes
    have no : book.state.no ≠ [] := two.quoted .no
    simp [yes, no]
  unfold clearingPriceCents
  rw [if_neg present]
  simp only [accumulateSide_real]
  exact if_neg (not_or.mpr ⟨bids, asks⟩)

/-! ### The touch -/

theorem TwoSided.best (two : book.TwoSided) :
    ∃ bid bids no nos, book.levels .yes = bid :: bids ∧ book.levels .no = no :: nos ∧ book.bestBid = some bid ∧
      book.bestAsk = some ⟨complementPrice no.priceCents, no.quantity⟩ := by
  obtain ⟨bid, bids, front⟩ := List.exists_cons_of_ne_nil (two.quoted .yes)
  obtain ⟨no, nos, back⟩ := List.exists_cons_of_ne_nil (two.quoted .no)
  refine ⟨bid, bids, no, nos, front, back, ?_, ?_⟩
  · exact congrArg List.head? front
  · exact congrArg (fun levels => levels.head?.map fun level =>
      (⟨complementPrice level.priceCents, level.quantity⟩ : Level)) back

/-- At the touch both sides are as far from the mid, so the decay cancels. -/
theorem clearingPriceCents_touch (two : book.TwoSided) (decay : 0 < weighting.decayPerCent)
    (single : weighting.maxLevels = 1 ∨ (book.levels .yes).length = 1 ∧ (book.levels .no).length = 1) :
    book.clearingPriceCents weighting = book.microPriceCents := by
  obtain ⟨bid, bids, no, nos, front, back, bestBid, bestAsk⟩ := two.best
  have mid : (book.midPriceCents : ℝ) = (bid.priceCents + (complementPrice no.priceCents : ℤ)) / 2 :=
    midPriceCents_real bestBid bestAsk
  have usedYes : weighting.used (book.levels .yes) = [bid] := by
    rw [front] at single ⊢
    apply weighting.used_single
    exact single.imp_right fun lengths => List.length_eq_zero_iff.mp (Nat.succ_injective lengths.1)
  have usedNo : weighting.used (book.levels .no) = [no] := by
    rw [back] at single ⊢
    apply weighting.used_single
    exact single.imp_right fun lengths => List.length_eq_zero_iff.mp (Nat.succ_injective lengths.2)
  have bidSize : (0 : ℝ) < bid.quantity.contracts := by
    rw [Quantity.contracts_real]
    have size := (two.ladder .yes).positive bid (front ▸ List.mem_cons_self)
    have contracts : (0 : ℝ) < bid.quantity.centi := Int.cast_pos.mpr size
    positivity
  have noSize : (0 : ℝ) < no.quantity.contracts := by
    rw [Quantity.contracts_real]
    have size := (two.ladder .no).positive no (back ▸ List.mem_cons_self)
    have contracts : (0 : ℝ) < no.quantity.centi := Int.cast_pos.mpr size
    positivity
  -- the common factor
  have reach : (0 : ℝ) < weighting.decayPerCent ^ ((book.midPriceCents : ℝ) - bid.priceCents) :=
    Real.rpow_pos_of_pos decay _
  have bidWeight : depthWeight weighting book.midPriceCents .yes bid =
      bid.quantity.contracts * weighting.decayPerCent ^ ((book.midPriceCents : ℝ) - bid.priceCents) := rfl
  have noWeight : depthWeight weighting book.midPriceCents .no no =
      no.quantity.contracts * weighting.decayPerCent ^ ((book.midPriceCents : ℝ) - bid.priceCents) := by
    have away : ((complementPrice no.priceCents : ℤ) : ℝ) - book.midPriceCents =
      book.midPriceCents - bid.priceCents := by
      rw [mid]
      ring
    change _ * weighting.decayPerCent ^ (((complementPrice no.priceCents : ℤ) : ℝ) - book.midPriceCents) = _
    rw [away]
  rw [clearingPriceCents_real two decay, microPriceCents_real bestBid bestAsk,
    if_neg (not_le.mpr (add_pos bidSize noSize))]
  unfold averagePrice sideWeight
  rw [usedYes, usedNo]
  simp only [total_cons, total_nil, weighted_cons, weighted_nil, add_zero, bidWeight, noWeight, Level.yesPrice]
  field_simp

/-! ### The mirror -/

theorem TwoSided.mirror (two : book.TwoSided) : book.mirror.TwoSided := by
  constructor
  · intro side
    cases side
    · exact two.ladder .no
    · exact two.ladder .yes
  · intro side
    cases side
    · exact two.quoted .no
    · exact two.quoted .yes
  · intro bid ask bestBid bestAsk
    obtain ⟨yes, yess, no, nos, front, back, best, worst⟩ := two.best
    have other := two.uncrossed _ _ best worst
    rw [mirror_bestBid worst] at bestBid
    rw [mirror_bestAsk best] at bestAsk
    cases bestBid
    cases bestAsk
    simp only [Level.mirror, complementPrice] at other ⊢
    omega

theorem mirror_midPriceCents (two : book.TwoSided) : (book.mirror.midPriceCents : ℝ) = 100 - book.midPriceCents := by
  obtain ⟨bid, bids, no, nos, _, _, bestBid, bestAsk⟩ := two.best
  rw [midPriceCents_real bestBid bestAsk, midPriceCents_real (mirror_bestBid bestAsk) (mirror_bestAsk bestBid)]
  simp only [Level.mirror, complementPrice, kPriceBasis]
  push_cast
  ring

theorem mirror_levels (book : LocalOrderbook) (side : Side) : book.mirror.levels side = book.levels side.opposite := by
  cases side <;> rfl

theorem yesPrice_opposite (side : Side) (level : Level) :
    (level.yesPrice side.opposite : ℝ) = 100 - level.yesPrice side := by
  cases side <;> simp only [Side.opposite, Level.yesPrice, complementPrice, kPriceBasis] <;> push_cast <;> ring

/-- A level is as far from the mid in the mirror. -/
theorem depthWeight_mirror (weighting : DepthWeighting ℝ) (mid : ℝ) (side : Side) :
    depthWeight weighting (100 - mid) side = depthWeight weighting mid side.opposite := by
  funext level
  have away : distanceCents (100 - mid) side level = distanceCents mid side.opposite level := by
    cases side <;> simp only [distanceCents, Side.opposite, Level.yesPrice, complementPrice, kPriceBasis] <;>
      push_cast <;> ring
  unfold depthWeight
  rw [away]

theorem weighted_yesPrice_opposite (weight : Level → ℝ) (side : Side) (levels : List Level) :
    weighted weight (fun level => (level.yesPrice side.opposite : ℝ)) levels =
      100 * total weight levels - weighted weight (fun level => (level.yesPrice side : ℝ)) levels := by
  induction levels with
  | nil => simp
  | cons level levels ih =>
    rw [total_cons, weighted_cons, weighted_cons, ih, yesPrice_opposite]
    ring

theorem sideWeight_mirror (two : book.TwoSided) (side : Side) :
    sideWeight weighting book.mirror side = sideWeight weighting book side.opposite := by
  unfold sideWeight
  rw [mirror_midPriceCents two, depthWeight_mirror, mirror_levels]

theorem averagePrice_mirror (two : book.TwoSided) (decay : 0 < weighting.decayPerCent) (side : Side) :
    averagePrice weighting book.mirror side = 100 - averagePrice weighting book side.opposite := by
  have weighs : total (depthWeight weighting book.midPriceCents side.opposite)
      (weighting.used (book.levels side.opposite)) ≠ 0 := (two.total_pos decay).ne'
  have priced := weighted_yesPrice_opposite (depthWeight weighting book.midPriceCents side.opposite) side.opposite
    (weighting.used (book.levels side.opposite))
  rw [Side.opposite_opposite] at priced
  unfold averagePrice
  rw [mirror_midPriceCents two, depthWeight_mirror, mirror_levels, priced]
  field_simp

theorem clearingPriceCents_mirror (two : book.TwoSided) (decay : 0 < weighting.decayPerCent) :
    book.mirror.clearingPriceCents weighting = 100 - book.clearingPriceCents weighting := by
  have bids : 0 < sideWeight weighting book .yes := two.total_pos decay
  have asks : 0 < sideWeight weighting book .no := two.total_pos decay
  rw [clearingPriceCents_real two decay, clearingPriceCents_real two.mirror decay]
  simp only [sideWeight_mirror two, averagePrice_mirror two decay, Side.opposite]
  field_simp
  ring

/-! ### Where it lies -/

/-- Bids are no dearer than asks. -/
theorem TwoSided.bid_le_ask (two : book.TwoSided) {bid no : Level} (among : bid ∈ book.levels .yes)
    (other : no ∈ book.levels .no) : bid.yesPrice .yes ≤ no.yesPrice .no := by
  obtain ⟨best, bids, bestNo, nos, front, back, bestBid, bestAsk⟩ := two.best
  have touch := two.uncrossed _ _ bestBid bestAsk
  have below : bid.priceCents ≤ best.priceCents := by
    have strict := (two.ladder .yes).strict
    rw [front] at strict among
    rcases List.mem_cons.mp among with rfl | later
    · exact le_rfl
    · exact ((List.pairwise_cons.mp strict).1 bid later).le
  have above : no.priceCents ≤ bestNo.priceCents := by
    have strict := (two.ladder .no).strict
    rw [back] at strict other
    rcases List.mem_cons.mp other with rfl | later
    · exact le_rfl
    · exact ((List.pairwise_cons.mp strict).1 no later).le
  simp only [Level.yesPrice, complementPrice] at touch ⊢
  omega

/-- A level with the least value among the levels of a side. -/
theorem exists_least (value : Level → Int) {levels : List Level} (present : levels ≠ []) :
    ∃ level ∈ levels, ∀ other ∈ levels, value level ≤ value other := by
  obtain ⟨level, member, least⟩ := levels.toFinset.exists_min_image value (by simpa using present)
  exact ⟨level, List.mem_toFinset.mp member, fun other among => least other (List.mem_toFinset.mpr among)⟩

/-- Single-level agreement, the mirror and the hull of the levels used. -/
theorem clearing_price_laws (two : book.TwoSided) (decay : 0 < weighting.decayPerCent) :
    (weighting.maxLevels = 1 ∨ book.state.yes.length = 1 ∧ book.state.no.length = 1 →
      book.clearingPriceCents weighting = book.microPriceCents) ∧
    book.mirror.clearingPriceCents weighting = 100 - book.clearingPriceCents weighting ∧
    ∃ bid ∈ weighting.used book.state.yes, ∃ no ∈ weighting.used book.state.no,
      (∀ other ∈ weighting.used book.state.yes, bid.priceCents ≤ other.priceCents) ∧
      (∀ other ∈ weighting.used book.state.no, complementPrice other.priceCents ≤ complementPrice no.priceCents) ∧
      (bid.priceCents : ℝ) ≤ book.clearingPriceCents weighting ∧
      book.clearingPriceCents weighting ≤ (complementPrice no.priceCents : ℤ) := by
  refine ⟨clearingPriceCents_touch two decay, clearingPriceCents_mirror two decay, ?_⟩
  obtain ⟨bid, lowest, least⟩ := exists_least (fun level => level.priceCents) (weighting.used_ne_nil (two.quoted .yes))
  obtain ⟨no, highest, most⟩ := exists_least (fun level => level.priceCents) (weighting.used_ne_nil (two.quoted .no))
  refine ⟨bid, lowest, no, highest, least, fun other member => ?_, ?_⟩
  · have lower := most other member
    simp only [complementPrice]
    omega
  have low := weighting.used_subset lowest
  have high := weighting.used_subset highest
  -- every level in use lies between the lowest bid and the highest ask in use
  have within : ∀ side, ∀ level ∈ weighting.used (book.levels side),
      (level.yesPrice side : ℝ) ∈ Set.Icc (bid.priceCents : ℝ) ((complementPrice no.priceCents : ℤ) : ℝ) := by
    intro side level member
    have among := weighting.used_subset member
    cases side with
    | yes =>
      have upper := two.bid_le_ask among high
      exact ⟨Int.cast_le.mpr (least level member), Int.cast_le.mpr upper⟩
    | no =>
      have lower := two.bid_le_ask low among
      have upper := most level member
      refine ⟨Int.cast_le.mpr lower, Int.cast_le.mpr ?_⟩
      simp only [Level.yesPrice, complementPrice]
      omega
  -- each side's average lies there too, and the price is a mean of the two
  have average : ∀ side, averagePrice weighting book side ∈
      Set.Icc (bid.priceCents : ℝ) ((complementPrice no.priceCents : ℤ) : ℝ) :=
    fun side => mean_mem_Icc (two.weighs decay) (weighting.used_ne_nil (two.quoted side)) (within side)
  have bids : 0 < sideWeight weighting book .yes := two.total_pos decay
  have asks : 0 < sideWeight weighting book .no := two.total_pos decay
  rw [clearingPriceCents_real two decay, add_comm (sideWeight weighting book .yes)]
  exact pair_mem_Icc (average .yes) (average .no) asks.le bids.le (add_pos asks bids)

/-- Two bids against one ask, each cent away from the mid halving the weight. -/
theorem clearing_price_laws_halved :
    let book : LocalOrderbook := ⟨{ ticker := "M", yes := [⟨46, ⟨500⟩⟩, ⟨44, ⟨100⟩⟩], no := [⟨50, ⟨200⟩⟩] }⟩
    let weighting : DepthWeighting ℝ := { decayPerCent := 1 / 2 }
    book.mirror.clearingPriceCents weighting = 100 - book.clearingPriceCents weighting ∧
      (44 : ℝ) ≤ book.clearingPriceCents weighting ∧ book.clearingPriceCents weighting ≤ (50 : ℝ) := by
  intro book weighting
  have two : book.TwoSided := by
    constructor
    · intro side
      constructor <;> cases side <;> decide
    · intro side
      cases side <;> decide
    · rintro bid ask ⟨⟩ ⟨⟩
      decide
  have decay : 0 < weighting.decayPerCent := by
    change (0 : ℝ) < 1 / 2
    norm_num
  obtain ⟨_, mirrored, bid, lowest, no, highest, least, most, lower, upper⟩ := clearing_price_laws two decay
  refine ⟨mirrored, ?_, ?_⟩
  · have last := least ⟨44, ⟨100⟩⟩ (by decide)
    have all : ∀ level ∈ book.state.yes, 44 ≤ level.priceCents := by decide
    have first := all bid (weighting.used_subset lowest)
    exact (Int.cast_le.mpr first).trans lower
  · have all : ∀ level ∈ book.state.no, complementPrice level.priceCents ≤ 50 := by decide
    have first := all no (weighting.used_subset highest)
    exact upper.trans (Int.cast_le.mpr first)

end LocalOrderbook

end Kalshi
