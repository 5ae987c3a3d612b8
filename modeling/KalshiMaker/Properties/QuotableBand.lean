import KalshiMaker.Properties.MirrorSymmetry
import KalshiMaker.Properties.QuotedEdge

/-! The scanner's band of prices against the price gate of the pre-trade checks. -/
namespace Kalshi

open Quoter

variable {F : Type} [Floating F]

def quotablePriceBand (risk : RiskLimits F) (quoter : QuoterConfig F) : Int × Int :=
  let halfSpread := max (max 1 (quoter.targetSpreadCents.tdiv 2)) (quoter.minSpreadCents.tdiv 2)
  (risk.minQuotePriceCents + halfSpread, risk.maxQuotePriceCents - halfSpread)

/-- What `load_config` leaves of the configured band of the scanner. -/
def scannerPriceBand (configured : Int × Int) (risk : RiskLimits F) (quoter : QuoterConfig F) : Int × Int :=
  (max configured.1 (quotablePriceBand risk quoter).1, min configured.2 (quotablePriceBand risk quoter).2)

theorem scannerPriceBand_within (configured : Int × Int) (risk : RiskLimits F) (quoter : QuoterConfig F) :
    (quotablePriceBand risk quoter).1 ≤ (scannerPriceBand configured risk quoter).1 ∧
      (scannerPriceBand configured risk quoter).2 ≤ (quotablePriceBand risk quoter).2 :=
  ⟨le_max_right _ _, min_le_right _ _⟩

/-! ### The price gate -/

/-- The prices of orders that the pre-trade checks let through. -/
def RiskLimits.Gate (limits : RiskLimits F) (priceCents : Int) : Prop :=
  limits.minQuotePriceCents ≤ priceCents ∧ priceCents ≤ limits.maxQuotePriceCents

/-- Within the gate the price makes no difference to the checks. -/
theorem RiskManager.checkOrder_within {risk : RiskManager F} {ticker : Ticker} {side : Side}
    {price other quantity : Int}
    (passes : risk.limits.Gate price) (otherPasses : risk.limits.Gate other) :
    risk.checkOrder ticker side price quantity = risk.checkOrder ticker side other quantity := by
  have within : ¬ (price < risk.limits.minQuotePriceCents ∨ risk.limits.maxQuotePriceCents < price) := by
    rw [not_or, not_lt, not_lt]
    exact passes
  have otherWithin : ¬ (other < risk.limits.minQuotePriceCents ∨ risk.limits.maxQuotePriceCents < other) := by
    rw [not_or, not_lt, not_lt]
    exact otherPasses
  unfold RiskManager.checkOrder
  rw [if_neg within, if_neg otherWithin]

/-- Where an order is accepted at some price, it is accepted at the prices within the gate. -/
theorem RiskManager.checkOrder_gate_iff {risk : RiskManager F} {ticker : Ticker} {side : Side} {quantity : Int}
    (accepts : ∃ other, risk.checkOrder ticker side other quantity = true) (price : Int) :
    risk.checkOrder ticker side price quantity = true ↔ risk.limits.Gate price := by
  obtain ⟨other, accepted⟩ := accepts
  constructor
  · exact RiskManager.checkOrder_price
  · intro passes
    rw [RiskManager.checkOrder_within passes (RiskManager.checkOrder_price accepted)]
    exact accepted

namespace QuoterConfig

/-- Half the spread without an imbalance and without a fee. -/
def quietHalfSpread (config : QuoterConfig F) : Int :=
  max (max kHalfSpreadMin (config.targetSpreadCents.tdiv 2)) ((config.minSpreadCents + 1).tdiv 2)

/-- The value of what a side buys less half the spread, a cent at least. -/
def lessSpread (config : QuoterConfig F) (value : Int) : Int := max 1 (value - config.quietHalfSpread)

/-- What a price gives up as a longshot. -/
def longshotShade (config : QuoterConfig F) (price : Int) : Int :=
  if price < config.longshotPriceThresholdCents then config.longshotEdgeCents else 0

/-- The gate has room for half the spread and the longshot edge below what a side buys. -/
structure Clears (config : QuoterConfig F) (limits : RiskLimits F) (value : Int) : Prop where
  low : 1 < limits.minQuotePriceCents →
    limits.minQuotePriceCents + config.longshotShade (config.lessSpread value) ≤ config.lessSpread value
  high : config.lessSpread value ≤ limits.maxQuotePriceCents + config.longshotShade (config.lessSpread value)

/-- The order price of a side that buys at this value. -/
def flatPrice (config : QuoterConfig F) (value : Int) : Int :=
  config.shadeBid (clampInt (value - config.quietHalfSpread) kBidMinCents kBidMaxCents)

theorem one_le_quietHalfSpread (config : QuoterConfig F) : 1 ≤ config.quietHalfSpread :=
  (le_max_left _ _).trans (le_max_left _ _)

theorem flatPrice_gate_iff (config : QuoterConfig F) (limits : RiskLimits F) {value : Int} (atMost : value ≤ 99)
    (opened : 1 ≤ limits.maxQuotePriceCents) : limits.Gate (config.flatPrice value) ↔ config.Clears limits value := by
  have half := config.one_le_quietHalfSpread
  have cut : clampInt (value - config.quietHalfSpread) kBidMinCents kBidMaxCents = config.lessSpread value := by
    unfold clampInt lessSpread kBidMinCents kBidMaxCents
    split_ifs <;> omega
  have least : 1 ≤ config.lessSpread value := le_max_left _ _
  unfold flatPrice
  rw [cut]
  generalize price : config.lessSpread value = lessSpread at least
  -- the shading takes a price to a cent at the least
  have bought : config.shadeBid lessSpread = max 1 (lessSpread - config.longshotShade lessSpread) := by
    unfold shadeBid longshotShade kBidMinCents
    split_ifs <;> omega
  rw [bought]
  constructor
  · rintro ⟨low, high⟩
    constructor
    · intro above
      rw [price]
      omega
    · rw [price]
      omega
  · rintro ⟨low, high⟩
    rw [price] at low high
    constructor <;> omega

/-- The ask is the bid of the other side. -/
theorem shadeAsk_flatPrice (config : QuoterConfig F) (value : Int) :
    complementPrice (config.shadeAsk (clampInt (value + config.quietHalfSpread) kAskMinCents kAskMaxCents)) =
      config.flatPrice (100 - value) := by
  unfold flatPrice shadeAsk shadeBid complementPrice kPriceBasis clampInt kAskMinCents kAskMaxCents
    kBidMinCents kBidMaxCents
  split_ifs <;> omega

/-- At a whole fair value the two prices are as far from it as half the spread. -/
theorem rawQuotes_flat (config : QuoterConfig ℝ) (value : Int) :
    config.rawQuotes (value : ℝ) config.quietHalfSpread 0 =
      (config.shadeBid (clampInt (value - config.quietHalfSpread) kBidMinCents kBidMaxCents),
        config.shadeAsk (clampInt (value + config.quietHalfSpread) kAskMinCents kAskMaxCents)) := by
  have bid : Floating.floor ((value : ℝ) - (config.quietHalfSpread : ℝ)) = value - config.quietHalfSpread := by
    change ⌊(value : ℝ) - (config.quietHalfSpread : ℝ)⌋ = _
    rw [← Int.cast_sub, Int.floor_intCast]
  have ask : Floating.ceil ((value : ℝ) + (config.quietHalfSpread : ℝ)) = value + config.quietHalfSpread := by
    change ⌈(value : ℝ) + (config.quietHalfSpread : ℝ)⌉ = _
    rw [← Int.cast_add, Int.ceil_intCast]
  rw [rawQuotes_shaded, if_neg (lt_irrefl _), if_neg (lt_irrefl _)]
  unfold computeQuotes
  rw [bid, ask]

end QuoterConfig

namespace Outlook

/-- The two prices before the market is looked at. -/
def raw (outlook : Outlook F) (quoter : Quoter F) : Int × Int :=
  quoter.config.rawQuotes (outlook.reservation quoter) (outlook.halfSpread quoter) outlook.inventory

/-- A book that does not clamp the quotes. -/
structure Unclamped (outlook : Outlook F) (quoter : Quoter F) (marketBid marketAsk : Int) : Prop where
  bid : outlook.desired quoter marketBid marketAsk .yes = some (outlook.raw quoter).1
  ask : outlook.desired quoter marketBid marketAsk .no = some (outlook.raw quoter).2

/-- Both sides have a desired price, and the order at it passes the price gate. -/
def BothPass (outlook : Outlook F) (quoter : Quoter F) (limits : RiskLimits F) (marketBid marketAsk : Int) : Prop :=
  ∀ side, ∃ price, outlook.desired quoter marketBid marketAsk side = some price ∧
    limits.Gate ((legOf side).orderPrice price)

/-- Where the risk manager accepts orders of a size on both sides at all, both prices pass the gate exactly if the
pre-trade checks accept the orders at them. -/
theorem bothPass_iff_accepted {outlook : Outlook F} {quoter : Quoter F} {risk : RiskManager F} {quantity : Int}
    (accepts : ∀ side, ∃ price, risk.checkOrder outlook.ticker side price quantity = true)
    (marketBid marketAsk : Int) :
    outlook.BothPass quoter risk.limits marketBid marketAsk ↔
      ∀ side, ∃ price, outlook.desired quoter marketBid marketAsk side = some price ∧
        risk.checkOrder outlook.ticker side ((legOf side).orderPrice price) quantity = true := by
  unfold BothPass
  simp only [RiskManager.checkOrder_gate_iff (accepts _)]

/-- Without inventory, imbalance or fee the two prices are those around the fair value. -/
theorem raw_flat {outlook : Outlook ℝ} {quoter : Quoter ℝ} {value : Int} (fair : outlook.fairVal quoter = (value : ℝ))
    (flat : outlook.inventory = 0) (quiet : outlook.imbalanced = false) (free : quoter.config.makerFeeRate ≤ 0) :
    outlook.raw quoter = quoter.config.rawQuotes (value : ℝ) quoter.config.quietHalfSpread 0 := by
  have leaned : outlook.leanedVal quoter = (value : ℝ) := by
    unfold leanedVal takerSide
    rw [quiet, if_neg Bool.false_ne_true, fair]
    rfl
  have reservation : outlook.reservation quoter = (value : ℝ) := by
    unfold Outlook.reservation
    rw [leaned, flat]
    exact if_pos (.inr (decide_eq_true rfl))
  have half : outlook.halfSpread quoter = quoter.config.quietHalfSpread := by
    unfold Outlook.halfSpread
    rw [quiet]
    change quoter.config.quietHalfSpread + (if 0 < quoter.config.makerFeeRate then _ else 0) = _
    rw [if_neg (not_lt.mpr free), add_zero]
  unfold raw
  rw [reservation, half, flat]

/-- A book leaves the quotes alone whose best prices lie beyond them. -/
theorem unclamped_of_wide {outlook : Outlook F} {quoter : Quoter F} {marketBid marketAsk : Int}
    (bid : (outlook.raw quoter).1 < marketAsk) (ask : marketBid < (outlook.raw quoter).2)
    (low : marketBid < kAskMaxCents)
    (high : kBidMinCents < marketAsk) : outlook.Unclamped quoter marketBid marketAsk := by
  constructor
  · change passiveBid (outlook.raw quoter).1 marketAsk = _
    unfold passiveBid
    dsimp only
    rw [if_neg (by omega), min_eq_left (by omega)]
  · change passiveAsk (outlook.raw quoter).2 marketBid = _
    unfold passiveAsk
    dsimp only
    rw [if_neg (by omega), max_eq_left (by omega)]

end Outlook

/-- A fair value of the scanner's band can be quoted on both sides exactly where the gate has room for both. -/
theorem band_value_quotable_iff (outlook : Outlook ℝ) (quoter : Quoter ℝ) (limits : RiskLimits ℝ)
    (value marketBid marketAsk : Int) (fair : outlook.fairVal quoter = (value : ℝ))
    (inside : (quotablePriceBand limits quoter.config).1 ≤ value ∧ value ≤ (quotablePriceBand limits quoter.config).2)
    (flat : outlook.inventory = 0) (quiet : outlook.imbalanced = false) (free : quoter.config.makerFeeRate ≤ 0)
    (unclamped : outlook.Unclamped quoter marketBid marketAsk) :
    outlook.BothPass quoter limits marketBid marketAsk ↔
      quoter.config.Clears limits value ∧ quoter.config.Clears limits (100 - value) := by
  obtain ⟨least, most⟩ := PricingModel.estimate_range quoter.model _
  change 1 ≤ outlook.fairVal quoter at least
  change outlook.fairVal quoter ≤ 99 at most
  rw [fair] at least most
  have least : 1 ≤ value := by exact_mod_cast least
  have most : value ≤ 99 := by exact_mod_cast most
  -- the band's upper end lies below the gate's, so the gate is open at all
  have opened : 1 ≤ limits.maxQuotePriceCents := by
    have half : 1 ≤ max (max 1 (quoter.config.targetSpreadCents.tdiv 2)) (quoter.config.minSpreadCents.tdiv 2) :=
      (le_max_left _ _).trans (le_max_left _ _)
    have below : value ≤ limits.maxQuotePriceCents -
        max (max 1 (quoter.config.targetSpreadCents.tdiv 2)) (quoter.config.minSpreadCents.tdiv 2) := inside.2
    omega
  have raw := (outlook.raw_flat fair flat quiet free).trans (quoter.config.rawQuotes_flat value)
  have bid := unclamped.bid
  have ask := unclamped.ask
  rw [raw] at bid ask
  -- the ask's gate is the bid's at the mirrored value
  have opposite := quoter.config.shadeAsk_flatPrice value
  have bidGate := quoter.config.flatPrice_gate_iff limits most opened
  have askGate := quoter.config.flatPrice_gate_iff limits (show 100 - value ≤ 99 by omega) opened
  rw [← bidGate, ← askGate, ← opposite]
  constructor
  · intro both
    constructor
    · obtain ⟨price, wanted, gate⟩ := both .yes
      rw [bid] at wanted
      cases wanted
      exact gate
    · obtain ⟨price, wanted, gate⟩ := both .no
      rw [ask] at wanted
      cases wanted
      exact gate
  · rintro ⟨bidPasses, askPasses⟩ (_ | _)
    · exact ⟨_, bid, bidPasses⟩
    · exact ⟨_, ask, askPasses⟩

theorem band_value_quotable_iff_even :
    let quoter : Quoter ℝ := Quoter.make { useClearingPricing := true } (.clearingPrice 0) {}
    let outlook : Outlook ℝ :=
      ⟨"M", ⟨⟨"M", [⟨40, ⟨1000⟩⟩], [⟨40, ⟨1000⟩⟩]⟩⟩, none, none, none, 0, 0, 0⟩
    outlook.BothPass quoter {} 40 60 ↔ quoter.config.Clears {} 50 ∧ quoter.config.Clears {} (100 - 50) := by
  intro quoter outlook
  have bids : outlook.visible.bestBid = some ⟨40, ⟨1000⟩⟩ := rfl
  have asks : outlook.visible.bestAsk = some ⟨60, ⟨1000⟩⟩ := rfl
  have micro : (outlook.visible.microPriceCents : ℝ) = 50 :=
    (LocalOrderbook.microPriceCents_even bids asks rfl (by decide)).trans (by norm_num)
  have fair : outlook.fairVal quoter = ((50 : Int) : ℝ) :=
    (Outlook.fairVal_clearing rfl rfl rfl micro (by norm_num) (by norm_num)).trans (by norm_num)
  have raw := (outlook.raw_flat fair rfl rfl le_rfl).trans (quoter.config.rawQuotes_flat 50)
  have bid : (outlook.raw quoter).1 = 48 := by
    rw [raw]
    rfl
  have ask : (outlook.raw quoter).2 = 52 := by
    rw [raw]
    rfl
  refine band_value_quotable_iff outlook quoter {} 50 40 60 fair ⟨?_, ?_⟩ rfl rfl le_rfl ?_
  · exact (by decide : (12 : Int) ≤ 50)
  · exact (by decide : (50 : Int) ≤ 88)
  · exact Outlook.unclamped_of_wide (by omega) (by omega) (by decide) (by decide)

/-- With the defaults a fair value at the lower end of the band is bid for a cent below the gate. -/
theorem band_edge_refused :
    let quoter : Quoter ℝ := Quoter.make { useClearingPricing := true } (.clearingPrice 0) {}
    let outlook : Outlook ℝ :=
      ⟨"M", ⟨⟨"M", [⟨10, ⟨1000⟩⟩], [⟨86, ⟨1000⟩⟩]⟩⟩, none, none, none, 0, 0, 0⟩
    quotablePriceBand ({} : RiskLimits ℝ) quoter.config = (12, 88) ∧ outlook.fairVal quoter = ((12 : Int) : ℝ) ∧
      outlook.inventory = 0 ∧ outlook.imbalanced = false ∧ quoter.config.makerFeeRate ≤ 0 ∧
      outlook.Unclamped quoter 10 14 ∧ ¬ outlook.BothPass quoter {} 10 14 := by
  intro quoter outlook
  have bids : outlook.visible.bestBid = some ⟨10, ⟨1000⟩⟩ := rfl
  have asks : outlook.visible.bestAsk = some ⟨14, ⟨1000⟩⟩ := rfl
  -- even sizes put the micro-price in the middle
  have micro : (outlook.visible.microPriceCents : ℝ) = 12 :=
    (LocalOrderbook.microPriceCents_even bids asks rfl (by decide)).trans (by norm_num)
  have fair : outlook.fairVal quoter = ((12 : Int) : ℝ) :=
    (Outlook.fairVal_clearing rfl rfl rfl micro (by norm_num) (by norm_num)).trans (by norm_num)
  have raw := (outlook.raw_flat fair rfl rfl le_rfl).trans (quoter.config.rawQuotes_flat 12)
  have bid : (outlook.raw quoter).1 = 9 := by
    rw [raw]
    rfl
  have ask : (outlook.raw quoter).2 = 14 := by
    rw [raw]
    rfl
  have unclamped : outlook.Unclamped quoter 10 14 :=
    Outlook.unclamped_of_wide (by omega) (by omega) (by decide) (by decide)
  refine ⟨rfl, fair, rfl, rfl, le_rfl, unclamped, fun both => ?_⟩
  obtain ⟨price, wanted, least, _⟩ := both .yes
  rw [unclamped.bid, bid] at wanted
  cases wanted
  exact absurd least (by decide : ¬ (10 : Int) ≤ 9)

/-- With a longshot edge of nothing or more and a gate above one cent, the whole band can be quoted exactly where the
quoter rounds its spread to the same half, shades nothing within the gate, and the gate fits both sides. -/
theorem QuoterConfig.clears_band_iff (config : QuoterConfig F) (limits : RiskLimits F)
    (edge : 0 ≤ config.longshotEdgeCents) (low : 1 < limits.minQuotePriceCents)
    (high : limits.maxQuotePriceCents < 100)
    (opened : (quotablePriceBand limits config).1 ≤ (quotablePriceBand limits config).2) :
    (∀ value, (quotablePriceBand limits config).1 ≤ value → value ≤ (quotablePriceBand limits config).2 →
      config.Clears limits value ∧ config.Clears limits (100 - value)) ↔
    (quotablePriceBand limits config).1 = limits.minQuotePriceCents + config.quietHalfSpread ∧
      (config.longshotPriceThresholdCents ≤ limits.minQuotePriceCents ∨ config.longshotEdgeCents = 0) ∧
      limits.minQuotePriceCents + limits.maxQuotePriceCents ≤ 100 ∧
      100 ≤ limits.minQuotePriceCents + limits.maxQuotePriceCents + 2 * config.quietHalfSpread := by
  have half := config.one_le_quietHalfSpread
  have narrower : max (max 1 (config.targetSpreadCents.tdiv 2)) (config.minSpreadCents.tdiv 2) ≤
    config.quietHalfSpread :=
    max_le_max (le_refl _) (Int.tdiv_le_tdiv (by decide) (by omega))
  unfold quotablePriceBand at opened ⊢
  dsimp only at opened ⊢
  generalize max (max 1 (config.targetSpreadCents.tdiv 2)) (config.minSpreadCents.tdiv 2) = band at narrower opened ⊢
  have shade : ∀ price, 0 ≤ config.longshotShade price := by
    intro price
    unfold longshotShade
    split_ifs <;> omega
  constructor
  · intro whole
    obtain ⟨⟨bidLow, _⟩, ⟨_, askHigh⟩⟩ := whole (limits.minQuotePriceCents + band) le_rfl opened
    obtain ⟨_, ⟨askLow, _⟩⟩ := whole (limits.maxQuotePriceCents - band) opened le_rfl
    replace bidLow := bidLow low
    replace askLow := askLow low
    have askShade := shade (config.lessSpread (100 - (limits.maxQuotePriceCents - band)))
    -- at the lower end the bid has no room for more than the band's own half-spread
    have same : band = config.quietHalfSpread := by
      have bidShade := shade (config.lessSpread (limits.minQuotePriceCents + band))
      unfold lessSpread at bidLow bidShade
      omega
    have unshaded : config.longshotPriceThresholdCents ≤ limits.minQuotePriceCents ∨ config.longshotEdgeCents = 0 := by
      unfold lessSpread longshotShade at bidLow
      split_ifs at bidLow <;> omega
    refine ⟨by omega, unshaded, ?_, ?_⟩
    · unfold lessSpread at askLow askShade
      omega
    · unfold lessSpread longshotShade at askHigh
      split_ifs at askHigh <;> omega
  · rintro ⟨same, unshaded, fits, covers⟩ value least most
    have free : ∀ price, limits.minQuotePriceCents ≤ price → config.longshotShade price = 0 := by
      intro price above
      unfold longshotShade
      split_ifs <;> omega
    have bid : config.lessSpread value = value - config.quietHalfSpread := max_eq_right (by omega)
    have ask : config.lessSpread (100 - value) = 100 - value - config.quietHalfSpread := max_eq_right (by omega)
    refine ⟨⟨fun _ => ?_, ?_⟩, ⟨fun _ => ?_, ?_⟩⟩
    · rw [bid, free _ (by omega)]
      omega
    · rw [bid, free _ (by omega)]
      omega
    · rw [ask, free _ (by omega)]
      omega
    · rw [ask, free _ (by omega)]
      omega

end Kalshi
