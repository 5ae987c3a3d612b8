import KalshiMaker.Engine.RiskManager
import KalshiMaker.Engine.PricingModel

/-! State of the quoter and the arithmetic that turns a fair value into quotes. -/
namespace Kalshi

variable {F : Type} [Floating F]

structure QuoterConfig (F : Type) [Floating F] where
  targetSpreadCents : Int := 4
  repriceThresholdCents : Int := 1
  quoteSize : Int := 10
  imbalanceSpreadCents : Int := 2
  minSpreadCents : Int := 3
  minRestMs : Int := 3000
  theoJumpCents : Int := 3
  fadeRestMs : Int := 500
  longshotPriceThresholdCents : Int := 40
  longshotEdgeCents : Int := 1
  fvEmaAlpha : F := ratioOf 2 10
  flowLeanCents : F := ((1 : Int) : F)
  useClearingPricing : Bool := false
  clearingTapeWeight : F := ratioOf 1 2
  tapeHalfLifeSeconds : Int := 30
  inventoryCapLots : Int := 2
  unwindEdgeCents : F := 0
  useViewBasedPricing : Bool := false
  viewDebiasBeta : F := ratioOf 9 100
  makerFeeRate : F := 0

/-- The model `main` and the backtest inject. -/
def QuoterConfig.pricingModel (config : QuoterConfig F) : PricingModel F :=
  if config.useClearingPricing then .clearingPrice config.clearingTapeWeight
  else if config.useViewBasedPricing then .viewBased config.viewDebiasBeta
  else .heuristic

/-- One side of an own quote: `bid_order_id`, `quoted_bid_cents`, ..., or the same for the ask.
The quoted price is a YES price on both sides. -/
structure QuoteSlot where
  orderId : OrderId := ""
  quotedCents : Int := 0
  placedAt : TimePoint := 0
  fadePending : Bool := false
  deriving DecidableEq, Repr

/-- The bid is the slot of `.yes`, the ask that of `.no`. -/
abbrev OwnQuote := Side → QuoteSlot

structure Quoter (F : Type) [Floating F] where
  config : QuoterConfig F := {}
  model : PricingModel F
  inventoryBContracts : F
  fvEma : Ticker → Option F := fun _ => none
  reduceOnly : Bool := false
  ownQuotes : Ticker → OwnQuote := fun _ _ => {}

def kDefaultTimeToCloseHours : Int := 1000

def kBidMinCents : Int := 1

def kBidMaxCents : Int := 98

def kAskMinCents : Int := 2

def kAskMaxCents : Int := 99

def kHalfSpreadMin : Int := 1

def lmsrBFromRisk (maxPositionContracts maxQuotePriceCents : Int) : F :=
  let upper : F := (maxQuotePriceCents : F)
  if maxPositionContracts ≤ 0 ∨ upper ≤ ((50 : Int) : F) ∨ ((100 : Int) : F) ≤ upper then
    Floating.infinity
  else (maxPositionContracts : F) / Floating.log (upper / (((100 : Int) : F) - upper))

def lmsrSkewedFairValue (fvCents netInventoryContracts bContracts : F) : F :=
  if ¬ Floating.isFinite bContracts ∨ netInventoryContracts == 0 then fvCents
  else
    let opposingOdds := ((100 : Int) : F) / fvCents - ((1 : Int) : F)
    let shiftedOdds := opposingOdds * Floating.exp (netInventoryContracts / bContracts)
    ((100 : Int) : F) / (((1 : Int) : F) + shiftedOdds)

def clampInt (value low high : Int) : Int :=
  if value < low then low else if high < value then high else value

def computeQuotes (fvCents : F) (halfSpread : Int) : Int × Int :=
  (clampInt (Floating.floor (fvCents - (halfSpread : F))) kBidMinCents kBidMaxCents,
   clampInt (Floating.ceil (fvCents + (halfSpread : F))) kAskMinCents kAskMaxCents)

def passiveBid (desiredBid marketAskCents : Int) : Option Int :=
  let maxPassive := marketAskCents - 1
  if maxPassive < kBidMinCents then none else some (min desiredBid maxPassive)

def passiveAsk (desiredAsk marketBidCents : Int) : Option Int :=
  let minPassive := marketBidCents + 1
  if kAskMaxCents < minPassive then none else some (max desiredAsk minPassive)

namespace QuoterConfig

def halfSpread (config : QuoterConfig F) (imbalanced : Bool) (fairVal : F) : Int :=
  let targetSpread :=
    if imbalanced then config.targetSpreadCents + config.imbalanceSpreadCents else config.targetSpreadCents
  let baseHalfSpread :=
    max (max kHalfSpreadMin (targetSpread.tdiv 2)) ((config.minSpreadCents + 1).tdiv 2)
  let feeCents :=
    if 0 < config.makerFeeRate then
      let prob := fairVal / ((100 : Int) : F)
      Floating.round (config.makerFeeRate * prob * (((1 : Int) : F) - prob) * ((100 : Int) : F))
    else 0
  baseHalfSpread + feeCents

def leanedVal (config : QuoterConfig F) (fairVal : F) (takerSide : Option Side) : F :=
  match takerSide with
  | some .yes => fairVal + config.flowLeanCents
  | some .no => fairVal + -config.flowLeanCents
  | none => fairVal

/-- Bid and ask before the market is looked at: the longshot side is shaded, and with inventory
on the reducing side is priced at the reservation value. -/
def rawQuotes (config : QuoterConfig F) (reservationVal : F) (halfSpread : Int) (inventory : F) :
    Int × Int :=
  let (bid, ask) := computeQuotes reservationVal halfSpread
  let rawBid :=
    if bid < config.longshotPriceThresholdCents then max kBidMinCents (bid - config.longshotEdgeCents)
    else bid
  let rawAsk :=
    if complementPrice ask < config.longshotPriceThresholdCents then
      min kAskMaxCents (ask + config.longshotEdgeCents)
    else ask
  if 0 < inventory then
    (rawBid, max (rawBid + 1) (Floating.ceil (reservationVal + config.unwindEdgeCents)))
  else if inventory < 0 then
    (min (rawAsk - 1) (Floating.floor (reservationVal - config.unwindEdgeCents)), rawAsk)
  else (rawBid, rawAsk)

end QuoterConfig

namespace Quoter

def make (config : QuoterConfig F) (model : PricingModel F) (limits : RiskLimits F) : Quoter F :=
  { config
    model
    inventoryBContracts := Floating.max
      (lmsrBFromRisk limits.maxPositionPerMarket limits.maxQuotePriceCents)
      (((25 : Int) : F) * (config.quoteSize : F)) }

def inventoryCap (quoter : Quoter F) : F :=
  (quoter.config.inventoryCapLots : F) * (quoter.config.quoteSize : F)

/-- `suppress_bid` and `suppress_ask`. -/
def suppressed (quoter : Quoter F) (inventory : F) : Side → Bool
  | .yes => (quoter.reduceOnly && decide (0 ≤ inventory)) || decide (quoter.inventoryCap ≤ inventory)
  | .no => (quoter.reduceOnly && decide (inventory ≤ 0)) || decide (inventory ≤ -quoter.inventoryCap)

def setSlot (quoter : Quoter F) (ticker : Ticker) (side : Side) (slot : QuoteSlot) : Quoter F :=
  { quoter with
    ownQuotes := Function.update quoter.ownQuotes ticker
      (Function.update (quoter.ownQuotes ticker) side slot) }

def resetQuotes (quoter : Quoter F) : Quoter F :=
  { quoter with ownQuotes := fun _ _ => {}, fvEma := fun _ => none }

def forgetTicker (quoter : Quoter F) (ticker : Ticker) : Quoter F :=
  { quoter with ownQuotes := Function.update quoter.ownQuotes ticker fun _ => {} }

def forgetOrder (quoter : Quoter F) (ticker : Ticker) (orderId : OrderId) : Quoter F :=
  { quoter with
    ownQuotes := Function.update quoter.ownQuotes ticker fun side =>
      let slot := quoter.ownQuotes ticker side
      if slot.orderId = orderId then { slot with orderId := "" } else slot }

end Quoter

/-- What tells the two sides of a quote apart. -/
structure QuoteLeg where
  side : Side
  /-- The price of the order that quotes a YES price. -/
  orderPrice : Int → Int
  /-- Whether a desired price matches our own quote on the other side. -/
  crosses : (desired otherQuoted : Int) → Bool
  /-- How far the desired price has moved against the resting order. -/
  adverseMove : (quoted desired : Int) → Int

def bidLeg : QuoteLeg where
  side := .yes
  orderPrice desired := desired
  crosses desired askQuoted := decide (askQuoted ≤ desired)
  adverseMove quoted desired := quoted - desired

def askLeg : QuoteLeg where
  side := .no
  orderPrice := complementPrice
  crosses desired bidQuoted := decide (desired ≤ bidQuoted)
  adverseMove quoted desired := desired - quoted

def legOf : Side → QuoteLeg
  | .yes => bidLeg
  | .no => askLeg

@[simp] theorem legOf_side (side : Side) : (legOf side).side = side := by
  cases side <;> rfl

def restingTooYoung (placedAt now : TimePoint) (restMs : Int) : Bool :=
  decide (now - placedAt < restMs * nanosPerMilli)

end Kalshi
