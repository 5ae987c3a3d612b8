import KalshiMaker.Strategy.DesiredQuotes
import KalshiMaker.Strategy.Reservation

/-! In exact arithmetic a filled quote is never undercut by the quote that would close it. -/
namespace Kalshi

/-! ### Bid and ask around a reservation value -/

namespace QuoterConfig

variable {config : QuoterConfig ℝ}

/-- The maker fee only widens the spread. -/
theorem base_le_halfSpread {fair : ℝ} (positive : 0 < fair) (below : fair < 100) (imbalanced : Bool) :
    max (max kHalfSpreadMin ((if imbalanced then
      config.targetSpreadCents + config.imbalanceSpreadCents else config.targetSpreadCents).tdiv 2))
      ((config.minSpreadCents + 1).tdiv 2) ≤ config.halfSpread imbalanced fair := by
  have fee : 0 ≤ (if 0 < config.makerFeeRate then
      Floating.round (config.makerFeeRate * (fair / ((100 : Int) : ℝ)) *
        (((1 : Int) : ℝ) - fair / ((100 : Int) : ℝ)) * ((100 : Int) : ℝ))
    else 0 : Int) := by
    split
    next charged =>
      apply Floating.round_real_nonneg
      push_cast
      have prob : fair / 100 < 1 := by linarith
      have rest : 0 < 1 - fair / 100 := by linarith
      have rate : 0 < config.makerFeeRate := charged
      positivity
    next => exact le_refl 0
  exact le_add_of_nonneg_right fee

/-- Half the spread is at least a cent. -/
theorem halfSpread_pos {fair : ℝ} (positive : 0 < fair) (below : fair < 100) (imbalanced : Bool) :
    1 ≤ config.halfSpread imbalanced fair := by
  have base := @base_le_halfSpread config fair positive below imbalanced
  exact ((le_max_left _ _).trans (le_max_left _ _)).trans base

/-- Twice half the spread is at least the configured minimum. -/
theorem minSpread_le {fair : ℝ} (positive : 0 < fair) (below : fair < 100) (imbalanced : Bool) :
    config.minSpreadCents ≤ 2 * config.halfSpread imbalanced fair := by
  have base := @base_le_halfSpread config fair positive below imbalanced
  have half : (config.minSpreadCents + 1).tdiv 2 ≤ config.halfSpread imbalanced fair := (le_max_right _ _).trans base
  have wide : 1 ≤ config.halfSpread imbalanced fair := halfSpread_pos positive below imbalanced
  by_cases short : config.minSpreadCents + 1 < 0
  · omega
  · rw [Int.tdiv_eq_ediv_of_nonneg (by omega)] at half
    omega

/-- Where a bid and an ask stand to the reservation value they are priced around. -/
structure Around (value : ℝ) (halfSpread bid ask : Int) : Prop where
  bid_floor : 1 ≤ bid
  ask_ceiling : ask ≤ 99
  below : bid = 1 ∨ (bid : ℝ) ≤ value - halfSpread
  above : ask = 99 ∨ value + halfSpread ≤ (ask : ℝ)

theorem computeQuotes_around (value : ℝ) (halfSpread : Int) :
    Around value halfSpread (computeQuotes value halfSpread).1 (computeQuotes value halfSpread).2 := by
  have unfolded : computeQuotes value halfSpread =
      (clampInt ⌊value - halfSpread⌋ 1 98, clampInt ⌈value + halfSpread⌉ 2 99) := rfl
  rw [unfolded]
  constructor
  · unfold clampInt
    split_ifs <;> omega
  · unfold clampInt
    split_ifs <;> omega
  · dsimp only
    unfold clampInt
    split_ifs with under beyond
    · exact .inl rfl
    · right
      exact (Int.cast_le.mpr beyond.le).trans (Int.floor_le _)
    · right
      exact Int.floor_le _
  · dsimp only
    unfold clampInt
    split_ifs with under beyond
    · right
      exact (Int.le_ceil _).trans (Int.cast_le.mpr under.le)
    · exact .inl rfl
    · right
      exact Int.le_ceil _

/-- Shading the longshot side moves it away from the value, within the price range. -/
theorem Around.shaded {value : ℝ} {halfSpread bid ask : Int} (around : Around value halfSpread bid ask)
    (edge : 0 ≤ config.longshotEdgeCents) : Around value halfSpread (config.shadeBid bid) (config.shadeAsk ask) := by
  obtain ⟨floor, ceiling, below, above⟩ := around
  -- the shading moves the bid down, or up to the floor it is cut off at
  have lower : config.shadeBid bid = 1 ∨ config.shadeBid bid ≤ bid := by
    unfold shadeBid kBidMinCents
    split <;> omega
  have higher : config.shadeAsk ask = 99 ∨ ask ≤ config.shadeAsk ask := by
    unfold shadeAsk kAskMaxCents
    split <;> omega
  constructor
  · unfold shadeBid kBidMinCents
    split <;> omega
  · unfold shadeAsk kAskMaxCents
    split <;> omega
  · rcases lower with lowest | lower
    · exact .inl lowest
    · rcases below with lowest | below
      · left
        unfold shadeBid kBidMinCents at lower ⊢
        split at lower <;> omega
      · right
        exact (Int.cast_le.mpr lower).trans below
  · rcases higher with highest | higher
    · exact .inl highest
    · rcases above with highest | above
      · left
        unfold shadeAsk kAskMaxCents at higher ⊢
        split at higher <;> omega
      · right
        exact above.trans (Int.cast_le.mpr higher)

/-- The raw quotes: a pair around the value, and with inventory the reducing side at the value itself. -/
theorem rawQuotes_around (edge : 0 ≤ config.longshotEdgeCents) (value : ℝ) (halfSpread : Int) :
    ∃ bid ask, Around value halfSpread bid ask ∧ ∀ inventory : ℝ,
      config.rawQuotes value halfSpread inventory =
        if 0 < inventory then (bid, max (bid + 1) ⌈value + config.unwindEdgeCents⌉)
        else if inventory < 0 then (min (ask - 1) ⌊value - config.unwindEdgeCents⌋, ask)
        else (bid, ask) :=
  ⟨_, _, (computeQuotes_around value halfSpread).shaded edge, config.rawQuotes_shaded value halfSpread⟩

/-- A bid and an ask of two inventories, the bid's the lower one, whose reservation values are less than
a cent apart: they cross only where the inventories have opposite signs, and then by nothing. -/
theorem bid_below_ask (edge : 0 ≤ config.longshotEdgeCents) (unwind : 0 ≤ config.unwindEdgeCents)
    {bidValue askValue : ℝ} (near : bidValue < askValue + 1)
    {halfSpread : Int} (wide : 1 ≤ halfSpread) {bidAt askAt : ℝ} (longer : bidAt < askAt) :
    (config.rawQuotes bidValue halfSpread bidAt).1 ≤ (config.rawQuotes askValue halfSpread askAt).2 ∧
      (¬ (bidAt < 0 ∧ 0 < askAt) →
        (config.rawQuotes bidValue halfSpread bidAt).1 < (config.rawQuotes askValue halfSpread askAt).2) := by
  obtain ⟨bid, ask, around, bids⟩ := rawQuotes_around edge bidValue halfSpread
  obtain ⟨bid', ask', around', asks⟩ := rawQuotes_around edge askValue halfSpread
  have spread : (1 : ℝ) ≤ halfSpread := by exact_mod_cast wide
  rw [bids, asks]
  by_cases short : bidAt < 0
  · have below : ((min (ask - 1) ⌊bidValue - config.unwindEdgeCents⌋ : Int) : ℝ) ≤ bidValue - config.unwindEdgeCents :=
      (Int.cast_le.mpr (min_le_right _ _)).trans (Int.floor_le _)
    by_cases long : 0 < askAt
    · -- the inventory flips: both sides are priced at the reservation value
      have above : askValue + config.unwindEdgeCents ≤
        ((max (bid' + 1) ⌈askValue + config.unwindEdgeCents⌉ : Int) : ℝ) :=
        (Int.le_ceil _).trans (Int.cast_le.mpr (le_max_right _ _))
      rw [if_neg (by linarith), if_pos short, if_pos long]
      refine ⟨?_, fun apart => absurd ⟨short, long⟩ apart⟩
      apply Int.lt_add_one_iff.mp
      have touching : ((min (ask - 1) ⌊bidValue - config.unwindEdgeCents⌋ : Int) : ℝ) <
          ((max (bid' + 1) ⌈askValue + config.unwindEdgeCents⌉ : Int) : ℝ) + 1 := by linarith
      exact_mod_cast touching
    · -- still short, or flat: the ask keeps the half spread
      have strict : min (ask - 1) ⌊bidValue - config.unwindEdgeCents⌋ < ask' := by
        rcases around'.above with highest | above
        · have ceiling := around.ask_ceiling
          omega
        · have lower : ((min (ask - 1) ⌊bidValue - config.unwindEdgeCents⌋ : Int) : ℝ) < (ask' : ℝ) := by linarith
          exact_mod_cast lower
      rw [if_neg (by linarith), if_pos short, if_neg long]
      split
      · exact ⟨strict.le, fun _ => strict⟩
      · exact ⟨strict.le, fun _ => strict⟩
  · -- flat or long before, so long after: the bid kept the half spread
    have strict : bid < max (bid' + 1) ⌈askValue + config.unwindEdgeCents⌉ := by
      rcases around.below with lowest | below
      · have floor := around'.bid_floor
        omega
      · have above : askValue + config.unwindEdgeCents ≤ (⌈askValue + config.unwindEdgeCents⌉ : ℝ) := Int.le_ceil _
        have higher : (bid : ℝ) < (⌈askValue + config.unwindEdgeCents⌉ : ℝ) := by linarith
        exact lt_max_of_lt_right (by exact_mod_cast higher)
    have long : 0 < askAt := by linarith
    rw [if_pos long, if_neg short]
    split
    · exact ⟨strict.le, fun _ => strict⟩
    · exact ⟨strict.le, fun _ => strict⟩

end QuoterConfig

/-! ### The desired pair -/

theorem passiveBid_le {raw market price : Int} (found : passiveBid raw market = some price) : price ≤ raw := by
  unfold passiveBid at found
  dsimp only at found
  split at found
  · cases found
  · cases found
    exact min_le_left _ _

theorem le_passiveAsk {raw market price : Int} (found : passiveAsk raw market = some price) : raw ≤ price := by
  unfold passiveAsk at found
  dsimp only at found
  split at found
  · cases found
  · cases found
    exact le_max_left _ _

/-- The constructor keeps the liquidity parameter above 25 times the quote size. -/
theorem Quoter.make_deep (config : QuoterConfig ℝ) (model : PricingModel ℝ) (limits : RiskLimits ℝ) :
    25 * (config.quoteSize : ℝ) ≤ (Quoter.make config model limits).inventoryBContracts := by
  change 25 * (config.quoteSize : ℝ) ≤ Floating.max _ (((25 : Int) : ℝ) * (config.quoteSize : ℝ))
  rw [Floating.max_real]
  push_cast
  exact le_max_right _ _

theorem completed_quote_gains (config : QuoterConfig ℝ) (model : PricingModel ℝ) (limits : RiskLimits ℝ)
    (unwind : 0 ≤ config.unwindEdgeCents) (edge : 0 ≤ config.longshotEdgeCents)
    {fair leaned : ℝ} (fair_pos : 0 < fair) (fair_below : fair < 100) (leaned_pos : 0 < leaned)
    (leaned_below : leaned < 100) (imbalanced : Bool) (inventory : ℝ) {filled : ℝ} (positive : 0 < filled)
    (within : filled ≤ config.quoteSize) (marketBid marketAsk : Int) :
    (∀ bid ask,
      (Quoter.make config model limits).desiredAt fair leaned imbalanced inventory marketBid marketAsk .yes =
        some bid →
      (Quoter.make config model limits).desiredAt fair leaned imbalanced (inventory + filled) marketBid marketAsk
        .no = some ask →
      bid ≤ ask ∧ (¬ (inventory < 0 ∧ 0 < inventory + filled) → bid < ask)) ∧
    (∀ bid ask,
      (Quoter.make config model limits).desiredAt fair leaned imbalanced inventory marketBid marketAsk .no =
        some ask →
      (Quoter.make config model limits).desiredAt fair leaned imbalanced (inventory - filled) marketBid marketAsk
        .yes = some bid →
      bid ≤ ask ∧ (¬ (inventory - filled < 0 ∧ 0 < inventory) → bid < ask)) := by
  have deep := Quoter.make_deep config model limits
  have wide : 1 ≤ config.halfSpread imbalanced fair := QuoterConfig.halfSpread_pos fair_pos fair_below imbalanced
  -- A bid at some inventory and an ask at one larger by `filled`, whichever of them came first.
  have pair : ∀ lower bid ask,
      (Quoter.make config model limits).desiredAt fair leaned imbalanced lower marketBid marketAsk .yes = some bid →
      (Quoter.make config model limits).desiredAt fair leaned imbalanced (lower + filled) marketBid marketAsk .no =
        some ask →
      bid ≤ ask ∧ (¬ (lower < 0 ∧ 0 < lower + filled) → bid < ask) := by
    intro lower bid ask bids asks
    have near := reservation_after leaned_pos leaned_below deep positive within lower
    have longer : lower < lower + filled := by linarith
    obtain ⟨atMost, strict⟩ := QuoterConfig.bid_below_ask edge unwind near wide longer
    have bid_le := passiveBid_le bids
    have le_ask := le_passiveAsk asks
    exact ⟨bid_le.trans (atMost.trans le_ask), fun apart => bid_le.trans_lt ((strict apart).trans_le le_ask)⟩
  refine ⟨fun bid ask bids asks => pair inventory bid ask bids asks, fun bid ask asks bids => ?_⟩
  have restored := pair (inventory - filled) bid ask bids
  rw [sub_add_cancel] at restored
  exact restored asks

/-- The default quote at 50, filled whole from a flat position. -/
theorem completed_quote_gains_default :
    (∀ bid ask,
      (Quoter.make {} .heuristic {} : Quoter ℝ).desiredAt 50 50 false 0 45 55 .yes = some bid →
      (Quoter.make {} .heuristic {} : Quoter ℝ).desiredAt 50 50 false (0 + 10) 45 55 .no = some ask →
      bid ≤ ask ∧ (¬ ((0 : ℝ) < 0 ∧ (0 : ℝ) < 0 + 10) → bid < ask)) ∧
    (∀ bid ask,
      (Quoter.make {} .heuristic {} : Quoter ℝ).desiredAt 50 50 false 0 45 55 .no = some ask →
      (Quoter.make {} .heuristic {} : Quoter ℝ).desiredAt 50 50 false (0 - 10) 45 55 .yes = some bid →
      bid ≤ ask ∧ (¬ ((0 : ℝ) - 10 < 0 ∧ (0 : ℝ) < 0) → bid < ask)) :=
  completed_quote_gains {} .heuristic {} (le_refl 0) (by decide) (by norm_num) (by norm_num) (by norm_num)
    (by norm_num) false 0 (by norm_num) (by norm_num) 45 55

end Kalshi
