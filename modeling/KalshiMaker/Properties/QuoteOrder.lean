import KalshiMaker.Properties.MirrorSymmetry
import KalshiMaker.Properties.QuotedEdge

/-! Quotes follow what they are priced off: a higher price of the book, of the average or of the tape, a shorter
position or a higher market never lowers the bid or the ask. -/
namespace Kalshi

open LogOdds

/-! ### The models -/

theorem clamp_le_clamp {low high v w : ℝ} (ordered : low ≤ high) (le : v ≤ w) :
    Floating.clamp v low high ≤ Floating.clamp w low high := by
  unfold Floating.clamp
  split_ifs <;> linarith

namespace PricingModel

/-- What the weight of the tape must be for the clearing model to be an average. -/
def Averages : PricingModel ℝ → Prop
  | clearingPrice tapeWeight => 0 ≤ tapeWeight ∧ tapeWeight ≤ 1
  | heuristic | viewBased _ => True

theorem clampCents_le {v w : ℝ} (le : v ≤ w) : clampCents v ≤ clampCents w :=
  clamp_le_clamp (by norm_num) le

theorem heuristicEstimate_le {mid mid' : ℝ} (le : mid ≤ mid') (vwap vwap' : Option ℝ) :
    heuristicEstimate (marketInput mid vwap) ≤ heuristicEstimate (marketInput mid' vwap') := by
  have unfolded : ∀ mid vwap, heuristicEstimate (marketInput mid vwap) =
      clampCents (mid + (((50 : Int) : ℝ) - mid) * Real.exp
        (-((kDefaultTimeToCloseHours : Int) : ℝ) / ((24 : Int) : ℝ)) -
        ((0 : Int) : ℝ) * (ratioOf 5 100 : ℝ)) := fun _ _ => rfl
  rw [unfolded, unfolded]
  apply clampCents_le
  have decays : Real.exp (-((kDefaultTimeToCloseHours : Int) : ℝ) / ((24 : Int) : ℝ)) ≤ 1 := by
    rw [Real.exp_le_one_iff]
    norm_num [kDefaultTimeToCloseHours]
  generalize Real.exp (-((kDefaultTimeToCloseHours : Int) : ℝ) / ((24 : Int) : ℝ)) = decay at decays
  have kept : 0 ≤ (mid' - mid) * (1 - decay) := mul_nonneg (by linarith) (by linarith)
  linarith

theorem clearingPriceEstimate_le {tapeWeight mid mid' : ℝ} (low : 0 ≤ tapeWeight) (high : tapeWeight ≤ 1)
    (le : mid ≤ mid') {vwap vwap' : Option ℝ} (taped : Option.Rel (· ≤ ·) vwap vwap') :
    clearingPriceEstimate tapeWeight (marketInput mid vwap) ≤
      clearingPriceEstimate tapeWeight (marketInput mid' vwap') := by
  cases taped with
  | none => exact clampCents_le le
  | @some vwap vwap' higher =>
    have unfolded : ∀ mid vwap : ℝ, clearingPriceEstimate tapeWeight (marketInput mid (some vwap)) =
        clampCents (tapeWeight * vwap + (((1 : Int) : ℝ) - tapeWeight) * mid) := fun _ _ => rfl
    rw [unfolded, unfolded]
    apply clampCents_le
    push_cast
    have rest : 0 ≤ 1 - tapeWeight := by linarith
    gcongr

theorem viewBasedEstimate_le (beta : ℝ) {mid mid' : ℝ} (le : mid ≤ mid') (vwap vwap' : Option ℝ) :
    viewBasedEstimate beta (marketInput mid vwap) ≤ viewBasedEstimate beta (marketInput mid' vwap') := by
  have bounded : Floating.clamp beta 0 (ratioOf 95 100) ≤ (95 : ℝ) / 100 := by
    have high : (ratioOf 95 100 : ℝ) = 95 / 100 := by
      rw [ratioOf_real]
      norm_num
    rw [high]
    unfold Floating.clamp
    split_ifs <;> linarith
  have unfolded : ∀ mid vwap, viewBasedEstimate beta (marketInput mid vwap) =
      clampProb ((mid / ((100 : Int) : ℝ) - Floating.clamp beta 0 (ratioOf 95 100) / ((2 : Int) : ℝ)) /
        (((1 : Int) : ℝ) - Floating.clamp beta 0 (ratioOf 95 100))) * ((100 : Int) : ℝ) := fun _ _ => rfl
  rw [unfolded, unfolded]
  generalize Floating.clamp beta 0 (ratioOf 95 100) = beta at bounded
  have stretch : 0 ≤ ((1 : Int) : ℝ) - beta := by
    push_cast
    linarith
  have ordered : (ratioOf 1 100 : ℝ) ≤ ratioOf 99 100 := by
    rw [ratioOf_real, ratioOf_real]
    norm_num
  have probs : clampProb ((mid / ((100 : Int) : ℝ) - beta / ((2 : Int) : ℝ)) / (((1 : Int) : ℝ) - beta)) ≤
      clampProb ((mid' / ((100 : Int) : ℝ) - beta / ((2 : Int) : ℝ)) / (((1 : Int) : ℝ) - beta)) := by
    apply clamp_le_clamp ordered
    gcongr
  exact mul_le_mul_of_nonneg_right probs (by norm_num)

/-- No model answers less to a higher price. -/
theorem estimate_le {model : PricingModel ℝ} (averages : model.Averages) {mid mid' : ℝ} (le : mid ≤ mid')
    {vwap vwap' : Option ℝ} (taped : Option.Rel (· ≤ ·) vwap vwap') :
    model.estimate (marketInput mid vwap) ≤ model.estimate (marketInput mid' vwap') := by
  cases model with
  | heuristic => exact heuristicEstimate_le le vwap vwap'
  | clearingPrice tapeWeight => exact clearingPriceEstimate_le averages.1 averages.2 le taped
  | viewBased beta => exact viewBasedEstimate_le beta le vwap vwap'

end PricingModel

/-! ### The reservation value -/

/-- A higher value or a shorter position never lowers the skewed value. -/
theorem lmsrSkewedFairValue_le {v w b n m : ℝ} (positive : 0 < v) (le : v ≤ w) (below : w < 100) (liquid : 0 < b)
    (shorter : m ≤ n) : lmsrSkewedFairValue v n b ≤ lmsrSkewedFairValue w m b := by
  by_cases finite : |b| < 2 ^ 1024
  · have above : 0 < w := by linarith
    rw [lmsrSkewedFairValue_finite positive finite, lmsrSkewedFairValue_finite above finite]
    have odds : 0 < 100 / w - 1 := opposingOdds_pos above below
    have longer : 100 / w - 1 ≤ 100 / v - 1 := by
      gcongr
    have shift : m / b ≤ n / b := by gcongr
    unfold chance
    gcongr
    exact odds.le.trans longer
  · rw [lmsrSkewedFairValue_infinite finite, lmsrSkewedFairValue_infinite finite]
    exact le

/-! ### The quotes -/

namespace QuoterConfig

variable (config : QuoterConfig ℝ)

theorem clampInt_le {v w low high : Int} (ordered : low ≤ high) (le : v ≤ w) :
    clampInt v low high ≤ clampInt w low high := by
  unfold clampInt
  split_ifs <;> omega

theorem computeQuotes_le {v w : ℝ} (le : v ≤ w) (halfSpread : Int) :
    (computeQuotes v halfSpread).1 ≤ (computeQuotes w halfSpread).1 ∧
    (computeQuotes v halfSpread).2 ≤ (computeQuotes w halfSpread).2 := by
  constructor
  · apply clampInt_le (by decide)
    exact Int.floor_le_floor (by linarith)
  · apply clampInt_le (by decide)
    exact Int.ceil_le_ceil (by linarith)

/-- The bid is below the ask, and either the lowest one or no higher than the value less the half-spread. -/
theorem computeQuotes_bid {value : ℝ} {halfSpread : Int} (spread : 1 ≤ halfSpread) :
    (computeQuotes value halfSpread).1 + 1 ≤ (computeQuotes value halfSpread).2 ∧
    ((computeQuotes value halfSpread).1 = 1 ∨ (computeQuotes value halfSpread).1 ≤ ⌊value - halfSpread⌋) := by
  have unfolded : computeQuotes value halfSpread =
      (clampInt ⌊value - halfSpread⌋ 1 98, clampInt ⌈value + halfSpread⌉ 2 99) := rfl
  have apart : ⌊value - halfSpread⌋ + 1 ≤ ⌈value + halfSpread⌉ := by
    have low := Int.floor_le (value - halfSpread)
    have high := Int.le_ceil (value + halfSpread)
    have wide : (1 : ℝ) ≤ halfSpread := by exact_mod_cast spread
    have reals : ((⌊value - halfSpread⌋ + 1 : Int) : ℝ) ≤ (⌈value + halfSpread⌉ : Int) := by
      push_cast
      linarith
    exact_mod_cast reals
  rw [unfolded]
  generalize ⌊value - (halfSpread : ℝ)⌋ = under at apart
  generalize ⌈value + (halfSpread : ℝ)⌉ = beyond at apart
  unfold clampInt
  dsimp only
  constructor
  · split_ifs <;> omega
  · split_ifs <;> omega

variable {config} (edge : 0 ≤ config.longshotEdgeCents)

include edge

theorem shadeBid_le {bid bid' : Int} (low : 1 ≤ bid) (le : bid ≤ bid') :
    config.shadeBid bid ≤ config.shadeBid bid' := by
  unfold shadeBid kBidMinCents
  split_ifs <;> omega

theorem shadeAsk_le {ask ask' : Int} (high : ask' ≤ 99) (le : ask ≤ ask') :
    config.shadeAsk ask ≤ config.shadeAsk ask' := by
  unfold shadeAsk complementPrice kPriceBasis kAskMaxCents
  split_ifs <;> omega

theorem shadeBid_outward {bid : Int} (low : 1 ≤ bid) : config.shadeBid bid ≤ bid := by
  unfold shadeBid kBidMinCents
  split_ifs <;> omega

theorem shadeAsk_outward {ask : Int} (high : ask ≤ 99) : ask ≤ config.shadeAsk ask := by
  unfold shadeAsk complementPrice kPriceBasis kAskMaxCents
  split_ifs <;> omega

/-- The bid of a shorter position at a higher value is not lower. Where the position turns short, the bid that unwinds
it must have room above the lowest price. -/
theorem rawBid_le {v w n m : ℝ} {halfSpread : Int} (spread : 1 ≤ halfSpread) (le : v ≤ w) (shorter : m ≤ n)
    (within : config.unwindEdgeCents ≤ halfSpread)
    (room : 0 ≤ n → m < 0 → 1 ≤ w - config.unwindEdgeCents) :
    (config.rawQuotes v halfSpread n).1 ≤ (config.rawQuotes w halfSpread m).1 := by
  obtain ⟨bids, asks⟩ := computeQuotes_le le halfSpread
  have low := (computeQuotes_around v halfSpread).bid_floor
  have high := (computeQuotes_around w halfSpread).ask_ceiling
  have shadedBid := shadeBid_le edge low bids
  have shadedAsk := shadeAsk_le edge high asks
  rw [rawQuotes_shaded, rawQuotes_shaded]
  by_cases short : n < 0
  · have shorter' : m < 0 := by linarith
    rw [if_neg (by linarith), if_pos short, if_neg (by linarith), if_pos shorter']
    have unwound : Floating.floor (v - config.unwindEdgeCents) ≤ Floating.floor (w - config.unwindEdgeCents) :=
      Int.floor_le_floor (by linarith)
    dsimp only
    omega
  · have here : (if 0 < n then (config.shadeBid (computeQuotes v halfSpread).1,
          max (config.shadeBid (computeQuotes v halfSpread).1 + 1) (Floating.ceil (v + config.unwindEdgeCents)))
        else if n < 0 then
          (min (config.shadeAsk (computeQuotes v halfSpread).2 - 1) (Floating.floor (v - config.unwindEdgeCents)),
            config.shadeAsk (computeQuotes v halfSpread).2)
        else (config.shadeBid (computeQuotes v halfSpread).1, config.shadeAsk (computeQuotes v halfSpread).2)).1 =
        config.shadeBid (computeQuotes v halfSpread).1 := by
      split_ifs <;> rfl
    rw [here]
    by_cases shorts : m < 0
    · -- the position turns short: its bid is the one that unwinds
      rw [if_neg (by linarith), if_pos shorts]
      have outward := shadeBid_outward edge low
      have crossed := (@computeQuotes_bid w _ spread).1
      have askOutward := shadeAsk_outward edge high
      have roomy : 1 ≤ Floating.floor (w - config.unwindEdgeCents) := by
        apply Int.le_floor.mpr
        exact_mod_cast room (by linarith) shorts
      have reached : (computeQuotes v halfSpread).1 ≤ Floating.floor (w - config.unwindEdgeCents) := by
        rcases (@computeQuotes_bid v _ spread).2 with lowest | under
        · rw [lowest]
          exact roomy
        · exact under.trans (Int.floor_le_floor (by linarith))
      dsimp only
      omega
    · split_ifs <;> exact shadedBid

end QuoterConfig

theorem passiveBid_rises {bid bid' ask ask' : Int} (bids : bid ≤ bid') (asks : ask ≤ ask') :
    ∀ price ∈ passiveBid bid ask, ∃ price' ∈ passiveBid bid' ask', price ≤ price' := by
  intro price wanted
  unfold passiveBid kBidMinCents at wanted ⊢
  dsimp only at wanted ⊢
  split at wanted
  · cases wanted
  · cases wanted
    rw [if_neg (by omega)]
    exact ⟨_, rfl, by omega⟩

namespace Quoter

/-- The bid of a shorter position at a higher value, under a higher ask. -/
theorem desiredAt_bid_le {quoter : Quoter ℝ} (liquid : 0 < quoter.inventoryBContracts)
    (edge : 0 ≤ quoter.config.longshotEdgeCents) {fair fair' leaned leaned' inventory inventory' : ℝ}
    {imbalanced : Bool} (spread : 1 ≤ quoter.config.halfSpread imbalanced fair)
    (alike : quoter.config.halfSpread imbalanced fair' = quoter.config.halfSpread imbalanced fair)
    (within : quoter.config.unwindEdgeCents ≤ quoter.config.halfSpread imbalanced fair)
    (positive : 0 < leaned) (le : leaned ≤ leaned') (below : leaned' < 100) (shorter : inventory' ≤ inventory)
    (room : 0 ≤ inventory → inventory' < 0 →
      1 ≤ lmsrSkewedFairValue leaned' inventory' quoter.inventoryBContracts - quoter.config.unwindEdgeCents)
    (marketBid marketBid' : Int) {marketAsk marketAsk' : Int} (asks : marketAsk ≤ marketAsk') :
    ∀ bid ∈ quoter.desiredAt fair leaned imbalanced inventory marketBid marketAsk .yes,
      ∃ bid' ∈ quoter.desiredAt fair' leaned' imbalanced inventory' marketBid' marketAsk' .yes, bid ≤ bid' := by
  have reserved := lmsrSkewedFairValue_le positive le below liquid shorter
  unfold desiredAt
  rw [alike]
  exact passiveBid_rises (QuoterConfig.rawBid_le edge spread reserved shorter within room) asks

/-- The ask of a longer position at a lower value, over a lower bid. -/
theorem desiredAt_ask_le {quoter : Quoter ℝ} (liquid : 0 < quoter.inventoryBContracts)
    (edge : 0 ≤ quoter.config.longshotEdgeCents) {fair fair' leaned leaned' inventory inventory' : ℝ}
    {imbalanced : Bool} (spread : 1 ≤ quoter.config.halfSpread imbalanced fair)
    (alike : quoter.config.halfSpread imbalanced fair' = quoter.config.halfSpread imbalanced fair)
    (within : quoter.config.unwindEdgeCents ≤ quoter.config.halfSpread imbalanced fair)
    (positive : 0 < leaned) (le : leaned ≤ leaned') (below : leaned' < 100) (shorter : inventory' ≤ inventory)
    (room : 0 < inventory → inventory' ≤ 0 →
      lmsrSkewedFairValue leaned inventory quoter.inventoryBContracts + quoter.config.unwindEdgeCents ≤ 99)
    {marketBid marketBid' : Int} (bids : marketBid ≤ marketBid') (marketAsk marketAsk' : Int) :
    ∀ ask' ∈ quoter.desiredAt fair' leaned' imbalanced inventory' marketBid' marketAsk' .no,
      ∃ ask ∈ quoter.desiredAt fair leaned imbalanced inventory marketBid marketAsk .no, ask ≤ ask' := by
  intro ask' wanted
  have above : 0 < leaned' := by linarith
  have inside : leaned < 100 := by linarith
  -- seen from the other side it is the bid that rises, from the second outlook to the first
  have lower := desiredAt_mirror quoter fair' above below imbalanced inventory' marketBid' marketAsk' .yes
  have higher := desiredAt_mirror quoter fair positive inside imbalanced inventory marketBid marketAsk .yes
  have mirrored := lmsrSkewedFairValue_mirror positive inside inventory quoter.inventoryBContracts
  have spread' := quoter.config.halfSpread_mirror imbalanced fair'
  have spread₀ := quoter.config.halfSpread_mirror imbalanced fair
  have rises := @desiredAt_bid_le quoter liquid edge (100 - fair') (100 - fair) (100 - leaned') (100 - leaned)
    (-inventory') (-inventory) imbalanced (by omega) (by omega) (by rw [spread', alike]; exact within)
    (by linarith) (by linarith) (by linarith) (by linarith) (by
      intro short long
      rw [mirrored]
      linarith [room (by linarith) (by linarith)])
    (complementPrice marketAsk') (complementPrice marketAsk) (complementPrice marketBid') (complementPrice marketBid)
    (by unfold complementPrice; omega)
  rw [lower, higher] at rises
  obtain ⟨bid, found, le⟩ := rises (complementPrice ask') (Option.mem_map_of_mem _ wanted)
  obtain ⟨ask, offered, rfl⟩ := Option.mem_map.mp found
  refine ⟨ask, offered, ?_⟩
  unfold complementPrice at le
  omega

end Quoter

/-! ### What an update looks at -/

namespace Outlook

/-- The second outlook has the higher market, the higher averages and the shorter position, and the same flow. -/
structure Rises (before after : Outlook ℝ) : Prop where
  micro : (before.visible.microPriceCents : ℝ) ≤ after.visible.microPriceCents
  ema : Option.Rel (· ≤ ·) before.ema after.ema
  vwap : Option.Rel (· ≤ ·) before.vwap after.vwap
  imbalanced : after.imbalanced = before.imbalanced
  takerSide : after.takerSide = before.takerSide
  inventory : after.inventory ≤ before.inventory

variable {before after : Outlook ℝ}

theorem Rises.smoothedMicro (rises : before.Rises after) {config : QuoterConfig ℝ} (low : 0 ≤ config.fvEmaAlpha)
    (high : config.fvEmaAlpha ≤ 1) : before.smoothedMicro config ≤ after.smoothedMicro config := by
  have micro := rises.micro
  have averages := rises.ema
  unfold Outlook.smoothedMicro
  cases past : before.ema with
  | none =>
    cases now : after.ema with
    | none => exact micro
    | some ema' =>
      rw [past, now] at averages
      cases averages
  | some ema =>
    cases now : after.ema with
    | none =>
      rw [past, now] at averages
      cases averages
    | some ema' =>
      rw [past, now] at averages
      cases averages with
      | some average =>
        have rest : (0 : ℝ) ≤ ((1 : Int) : ℝ) - config.fvEmaAlpha := by
          push_cast
          linarith
        dsimp only
        gcongr

variable {quoter : Quoter ℝ}

theorem Rises.fairVal (rises : before.Rises after) (low : 0 ≤ quoter.config.fvEmaAlpha)
    (high : quoter.config.fvEmaAlpha ≤ 1) (averages : quoter.model.Averages) :
    before.fairVal quoter ≤ after.fairVal quoter :=
  PricingModel.estimate_le averages (rises.smoothedMicro low high) rises.vwap

theorem Rises.leanedVal (rises : before.Rises after) (low : 0 ≤ quoter.config.fvEmaAlpha)
    (high : quoter.config.fvEmaAlpha ≤ 1) (averages : quoter.model.Averages) :
    before.leanedVal quoter ≤ after.leanedVal quoter := by
  have fair := rises.fairVal low high averages
  unfold Outlook.leanedVal
  rw [rises.takerSide]
  rcases before.takerSide with _ | _ | _
  · exact fair
  · exact add_le_add_left fair _
  · exact add_le_add_left fair _

end Outlook

/-- Where the market, the averages of it and of the tape rise and the position does not get longer, no quote falls:
each bid that was wanted still is, at its price or above, and each ask that is wanted now was before, at its price or
below. A position that changes sign meanwhile must have room between the unwinding quote and the end of the scale. -/
theorem quotes_rise (quoter : Quoter ℝ) {before after : Outlook ℝ} (rises : before.Rises after)
    (smoothing : 0 ≤ quoter.config.fvEmaAlpha ∧ quoter.config.fvEmaAlpha ≤ 1) (averages : quoter.model.Averages)
    (liquid : 0 < quoter.inventoryBContracts) (edge : 0 ≤ quoter.config.longshotEdgeCents)
    (alike : after.halfSpread quoter = before.halfSpread quoter)
    (within : quoter.config.unwindEdgeCents ≤ before.halfSpread quoter)
    (positive : 0 < before.leanedVal quoter) (below : after.leanedVal quoter < 100)
    (turnsShort : 0 ≤ before.inventory → after.inventory < 0 →
      1 ≤ after.reservation quoter - quoter.config.unwindEdgeCents)
    (turnsFlat : 0 < before.inventory → after.inventory ≤ 0 →
      before.reservation quoter + quoter.config.unwindEdgeCents ≤ 99)
    {marketBid marketBid' marketAsk marketAsk' : Int} (bids : marketBid ≤ marketBid') (asks : marketAsk ≤ marketAsk') :
    (∀ bid ∈ before.desired quoter marketBid marketAsk .yes,
      ∃ bid' ∈ after.desired quoter marketBid' marketAsk' .yes, bid ≤ bid') ∧
    ∀ ask' ∈ after.desired quoter marketBid' marketAsk' .no,
      ∃ ask ∈ before.desired quoter marketBid marketAsk .no, ask ≤ ask' := by
  have leaned := rises.leanedVal smoothing.1 smoothing.2 averages
  obtain ⟨low, high⟩ : 1 ≤ before.fairVal quoter ∧ before.fairVal quoter ≤ 99 := quoter.model.estimate_range _
  have spread : 1 ≤ before.halfSpread quoter :=
    QuoterConfig.halfSpread_pos (by linarith) (by linarith) before.imbalanced
  unfold Outlook.halfSpread at alike within spread
  rw [rises.imbalanced] at alike
  unfold Outlook.desired
  rw [rises.imbalanced]
  constructor
  · exact Quoter.desiredAt_bid_le liquid edge spread alike within positive leaned below rises.inventory turnsShort
      marketBid marketBid' asks
  · exact Quoter.desiredAt_ask_le liquid edge spread alike within positive leaned below rises.inventory turnsFlat
      bids marketAsk marketAsk'

/-- Both sides of the book two cents up, its average one, and two of nine contracts sold. -/
theorem quotes_rise_sold :
    let before : Outlook ℝ :=
      { ticker := "M", visible := ⟨{ ticker := "M", yes := [⟨45, ⟨3000⟩⟩], no := [⟨45, ⟨1000⟩⟩] }⟩
        ema := some 52, vwap := some 51, flowGuard := none, inventory := 9 }
    let after : Outlook ℝ :=
      { ticker := "M", visible := ⟨{ ticker := "M", yes := [⟨47, ⟨3000⟩⟩], no := [⟨43, ⟨1000⟩⟩] }⟩
        ema := some 53, vwap := some 51, flowGuard := none, inventory := 7 }
    let quoter : Quoter ℝ := Quoter.make {} (.clearingPrice 1) {}
    (∀ bid ∈ before.desired quoter 45 55 .yes, ∃ bid' ∈ after.desired quoter 47 57 .yes, bid ≤ bid') ∧
    ∀ ask' ∈ after.desired quoter 47 57 .no, ∃ ask ∈ before.desired quoter 45 55 .no, ask ≤ ask' := by
  intro before after quoter
  have range : ∀ outlook : Outlook ℝ, 1 ≤ outlook.fairVal quoter ∧ outlook.fairVal quoter ≤ 99 :=
    fun _ => quoter.model.estimate_range _
  have rises : before.Rises after := by
    refine ⟨?_, .some ?_, .some le_rfl, rfl, rfl, ?_⟩
    · rw [@LocalOrderbook.microPriceCents_real before.visible ⟨45, ⟨3000⟩⟩ ⟨55, ⟨1000⟩⟩ rfl rfl,
        @LocalOrderbook.microPriceCents_real after.visible ⟨47, ⟨3000⟩⟩ ⟨57, ⟨1000⟩⟩ rfl rfl]
      norm_num [Quantity.contracts, Quantity.kCentiPerContract]
    · norm_num
    · change (7 : ℝ) ≤ 9
      norm_num
  have smooths : 0 ≤ quoter.config.fvEmaAlpha ∧ quoter.config.fvEmaAlpha ≤ 1 := by
    change (0 : ℝ) ≤ ratioOf 2 10 ∧ (ratioOf 2 10 : ℝ) ≤ 1
    rw [PricingModel.ratioOf_real]
    norm_num
  have liquid : 0 < quoter.inventoryBContracts := by
    change 0 < Floating.max (lmsrBFromRisk _ _) (((25 : Int) : ℝ) * ((10 : Int) : ℝ))
    rw [Floating.max_real]
    norm_num
  -- without a maker fee the spread does not depend on the value
  have alike : ∀ fair fair' : ℝ, quoter.config.halfSpread false fair = quoter.config.halfSpread false fair' := by
    intro fair fair'
    have free : ¬ (0 : ℝ) < 0 := lt_irrefl 0
    change _ + (if (0 : ℝ) < 0 then _ else _) = _ + (if (0 : ℝ) < 0 then _ else _)
    rw [if_neg free, if_neg free]
  have within : quoter.config.unwindEdgeCents ≤ quoter.config.halfSpread false (before.fairVal quoter) := by
    have wide : (1 : ℝ) ≤ quoter.config.halfSpread false (before.fairVal quoter) := by
      exact_mod_cast QuoterConfig.halfSpread_pos (by linarith [(range before).1])
        (by linarith [(range before).2]) false
    change (0 : ℝ) ≤ _
    linarith
  refine quotes_rise quoter rises smooths ⟨zero_le_one, le_rfl⟩ liquid (by decide) (alike _ _) within
    ?_ ?_ ?_ ?_ (by decide) (by decide)
  · change 0 < before.fairVal quoter
    linarith [(range before).1]
  · change after.fairVal quoter < 100
    linarith [(range after).2]
  · intro _ short
    change (7 : ℝ) < 0 at short
    linarith
  · intro _ flat
    change (7 : ℝ) ≤ 0 at flat
    linarith

end Kalshi
