import KalshiMaker.Engine.Desk

/-! The quoting strategy: one bid and one ask per market, repriced in place where possible. -/
namespace Kalshi

open Effect Desk

variable {F X : Type} [Floating F]

/-- The open order a slot holds. -/
def Desk.ownOrder (s : Desk F X) (slot : QuoteSlot) : Option Order :=
  if slot.orderId = "" then none else s.orderMgr.openOrders.lookup slot.orderId

def Desk.withoutOwn (s : Desk F X) (leg : QuoteLeg) (ticker : Ticker) (book : LocalOrderbook) :
    LocalOrderbook :=
  let slot := s.quoter.ownQuotes ticker leg.side
  match s.ownOrder slot with
  | some order =>
    book.applyDelta leg.side (leg.orderPrice slot.quotedCents) (-order.remainingQuantity)
  | none => book

def Desk.bookWithoutOwnQuotes (s : Desk F X) (ticker : Ticker) (book : LocalOrderbook) : LocalOrderbook :=
  s.withoutOwn askLeg ticker (s.withoutOwn bidLeg ticker book)

/-- The live orders of the own quote on a market. -/
def Desk.restingOwn (s : Desk F X) (ticker : Ticker) : List Order :=
  [Side.yes, Side.no].filterMap fun side => s.ownOrder (s.quoter.ownQuotes ticker side)

namespace Quoter

variable (venue : Venue X)

/-- Whether the order is off the book: cancelled now, or no longer tracked. -/
def releaseOrder (orderId : OrderId) : Eff (Desk F X) String Bool := do
  if ← OrderManager.cancel venue orderId then pure true
  else do
    let s ← Eff.get
    pure (s.orderMgr.openOrders.lookup orderId).isNone

def updateSlot (ticker : Ticker) (side : Side) (f : QuoteSlot → QuoteSlot) :
    Eff (Desk F X) String Unit :=
  mapQuoter fun quoter => quoter.setSlot ticker side (f (quoter.ownQuotes ticker side))

def clearSlot (ticker : Ticker) (side : Side) : Eff (Desk F X) String Unit :=
  updateSlot ticker side fun slot => { slot with orderId := "" }

def fillSlot (ticker : Ticker) (side : Side) (orderId : OrderId) (quotedCents : Int) (placedAt : TimePoint) :
    Eff (Desk F X) String Unit :=
  updateSlot ticker side fun slot => { slot with orderId, quotedCents, placedAt }

def setFadePending (ticker : Ticker) (side : Side) (fadePending : Bool) : Eff (Desk F X) String Unit :=
  updateSlot ticker side fun slot => { slot with fadePending }

/-- Quote an empty side. -/
def enter (leg : QuoteLeg) (ticker : Ticker) (desired : Int) (now : TimePoint) :
    Eff (Desk F X) String Unit := do
  let s ← Eff.get
  let price := leg.orderPrice desired
  if s.riskMgr.checkOrder ticker leg.side price s.quoter.config.quoteSize then do
    let order ← OrderManager.place venue ticker leg.side price s.quoter.config.quoteSize
    fillSlot ticker leg.side order.id desired now
  else pure ()

/-- Reprice the resting order without giving it up; whether that was done. -/
def amendInPlace (leg : QuoteLeg) (ticker : Ticker) (desired : Int) (now : TimePoint) (wouldCross : Bool) :
    Eff (Desk F X) String Bool := do
  let s ← Eff.get
  let slot := s.quoter.ownQuotes ticker leg.side
  let price := leg.orderPrice desired
  if !wouldCross && s.riskMgr.checkOrder ticker leg.side price s.quoter.config.quoteSize then do
    match ← OrderManager.amend venue slot.orderId ticker leg.side price
        (Quantity.fromContracts s.quoter.config.quoteSize) with
    | some amendedId => do
      fillSlot ticker leg.side amendedId desired now
      pure true
    | none => pure false
  else pure false

/-- Release the order a slot holds and empty the slot; whether the order is gone. -/
def releaseSlot (ticker : Ticker) (side : Side) : Eff (Desk F X) String Bool := do
  let s ← Eff.get
  if ← releaseOrder venue (s.quoter.ownQuotes ticker side).orderId then do
    clearSlot ticker side
    pure true
  else pure false

/-- Amend, or else cancel and quote anew. After a cancel forced by our own quote on the other side
there is no re-entry. -/
def reprice (leg : QuoteLeg) (ticker : Ticker) (desired : Int) (now : TimePoint) (wouldCross : Bool) :
    Eff (Desk F X) String Unit := do
  if ← amendInPlace venue leg ticker desired now wouldCross then pure ()
  else if ← releaseSlot venue ticker leg.side then
    if wouldCross then pure () else enter venue leg ticker desired now
  else pure ()

def refresh (leg : QuoteLeg) (ticker : Ticker) (desired : Int) (now : TimePoint) :
    Eff (Desk F X) String Unit := do
  let s ← Eff.get
  let config := s.quoter.config
  let slot := s.quoter.ownQuotes ticker leg.side
  let other := s.quoter.ownQuotes ticker leg.side.opposite
  let wouldCross := other.orderId != "" && leg.crosses desired other.quotedCents
  if slot.orderId = "" then
    if wouldCross then pure () else enter venue leg ticker desired now
  else if config.repriceThresholdCents < |slot.quotedCents - desired| then
    let adverseJump := decide (config.theoJumpCents ≤ leg.adverseMove slot.quotedCents desired)
    -- an adverse jump must be seen twice in a row before it is acted on
    if adverseJump && !slot.fadePending then setFadePending ticker leg.side true
    else do
      if !adverseJump then setFadePending ticker leg.side false
      if restingTooYoung slot.placedAt now (if adverseJump then config.fadeRestMs else config.minRestMs)
      then pure ()
      else do
        if adverseJump then setFadePending ticker leg.side false
        reprice venue leg ticker desired now wouldCross
  else pure ()

def refreshBid : Ticker → Int → TimePoint → Eff (Desk F X) String Unit := refresh venue bidLeg

def refreshAsk : Ticker → Int → TimePoint → Eff (Desk F X) String Unit := refresh venue askLeg

/-- The exponentially smoothed micro-price, which is also kept. -/
def smoothedMicro (ticker : Ticker) (micro : F) : Eff (Desk F X) String F := do
  let s ← Eff.get
  let alpha := s.quoter.config.fvEmaAlpha
  let smoothed :=
    match s.quoter.fvEma ticker with
    | none => micro
    | some ema => alpha * micro + (((1 : Int) : F) - alpha) * ema
  mapQuoter fun quoter => { quoter with fvEma := Function.update quoter.fvEma ticker (some smoothed) }
  pure smoothed

def tapeVwap (ticker : Ticker) : Eff (Desk F X) String (Option F) := do
  let s ← Eff.get
  match s.tradeTape with
  | none => pure none
  | some tape => do
    let now ← systemNow venue
    pure (tape.vwapCents ticker s.quoter.config.tapeHalfLifeSeconds now)

def fairValue (ticker : Ticker) (micro : F) : Eff (Desk F X) String F := do
  let smoothed ← smoothedMicro ticker micro
  let tapeVwapCents ← tapeVwap venue ticker
  let s ← Eff.get
  let fairVal := s.quoter.model.estimate
    { midCents := smoothed
      timeToCloseHours := (kDefaultTimeToCloseHours : F)
      netPosition := 0
      externalProb := none
      tapeVwapCents }
  ensure (Floating.isFinite fairVal) "fair value is not finite"
  pure fairVal

def imbalanced (ticker : Ticker) : Eff (Desk F X) String Bool := do
  let s ← Eff.get
  match s.flowGuard with
  | none => pure false
  | some guard => do
    let now ← systemNow venue
    pure (guard.isImbalanced ticker now)

def takerSide (ticker : Ticker) (imbalanced : Bool) : Eff (Desk F X) String (Option Side) := do
  let s ← Eff.get
  match s.flowGuard with
  | none => pure none
  | some guard =>
    if imbalanced then do
      let now ← systemNow venue
      pure (guard.dominantTakerSide ticker now)
    else pure none

/-- Pull the quote of a side that must not trade. -/
def releaseSuppressed (leg : QuoteLeg) (ticker : Ticker) (suppressed : Bool) :
    Eff (Desk F X) String Unit := do
  let s ← Eff.get
  if suppressed && (s.quoter.ownQuotes ticker leg.side).orderId != "" then do
    let _ ← releaseSlot venue ticker leg.side
  else pure ()

def refreshUnless (suppressed : Bool) (leg : QuoteLeg) (ticker : Ticker) (desired : Option Int)
    (now : TimePoint) : Eff (Desk F X) String Unit :=
  match desired with
  | some desired => if suppressed then pure () else refresh venue leg ticker desired now
  | none => pure ()

/-- The second half of `update`: bring both sides to their desired prices. -/
def applyQuotes (ticker : Ticker) (inventory : F) (desiredBid desiredAsk : Option Int) :
    Eff (Desk F X) String Unit := do
  let now ← steadyNow venue
  let s ← Eff.get
  let suppressBid := s.quoter.suppressed inventory .yes
  let suppressAsk := s.quoter.suppressed inventory .no
  releaseSuppressed venue bidLeg ticker suppressBid
  releaseSuppressed venue askLeg ticker suppressAsk
  refreshUnless venue suppressBid bidLeg ticker desiredBid now
  refreshUnless venue suppressAsk askLeg ticker desiredAsk now

/-- Desired bid and ask on a visible book with an uncrossed best bid and ask. -/
def desiredQuotes (ticker : Ticker) (visible : LocalOrderbook) (marketBid marketAsk : Int) :
    Eff (Desk F X) String (F × Option Int × Option Int) := do
  let micro : F := visible.microPriceCents
  let fairVal ← fairValue venue ticker micro
  let imbalanced ← imbalanced venue ticker
  let s ← Eff.get
  let config := s.quoter.config
  let inventory : F := (s.orderMgr.netPosition ticker).contracts
  let takerSide ← takerSide venue ticker imbalanced
  let reservationVal := lmsrSkewedFairValue (config.leanedVal fairVal takerSide) inventory
    s.quoter.inventoryBContracts
  let raw := config.rawQuotes reservationVal (config.halfSpread imbalanced fairVal) inventory
  let desiredBid := passiveBid raw.1 marketAsk
  let desiredAsk := passiveAsk raw.2 marketBid
  if s.analytics then
    emit (.quoteDecision ticker visible.midPriceCents micro fairVal (desiredBid.getD (-1))
      (desiredAsk.getD (-1)) inventory imbalanced)
  pure (inventory, desiredBid, desiredAsk)

def notePriced (ticker : Ticker) (book : LocalOrderbook) : Eff (Desk F X) String Unit :=
  Eff.modify fun s =>
    { s with
      priced := s.priced ++
        [{ ticker, book, resting := s.restingOwn ticker, visible := s.bookWithoutOwnQuotes ticker book }] }

def update (ticker : Ticker) (book : LocalOrderbook) : Eff (Desk F X) String Unit := do
  let s ← Eff.get
  let visible := s.bookWithoutOwnQuotes ticker book
  notePriced ticker book
  match visible.bestBid, visible.bestAsk with
  | some bestBid, some bestAsk =>
    -- a crossed visible book keeps the resting quotes
    if bestAsk.priceCents ≤ bestBid.priceCents then pure ()
    else do
      let desired ← desiredQuotes venue ticker visible bestBid.priceCents bestAsk.priceCents
      applyQuotes venue ticker desired.1 desired.2.1 desired.2.2
  | _, _ => pure ()

end Quoter

end Kalshi
