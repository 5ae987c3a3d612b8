import KalshiMaker.Strategy.Quoter

/-! Reactions of the trading session to market data, fills, rotation and the poll loop. -/
namespace Kalshi

open Effect Desk

variable {F X : Type} [Floating F]

namespace TradingSession

def isTracked (session : TradingSession F) (ticker : Ticker) : Bool := decide (ticker ∈ session.tickers)

/-- `ob_map_[ticker]` -/
def book (session : TradingSession F) (ticker : Ticker) : LocalOrderbook :=
  (session.obMap.lookup ticker).getD {}

def setBook (session : TradingSession F) (ticker : Ticker) (book : LocalOrderbook) : TradingSession F :=
  { session with obMap := session.obMap.insert ticker book }

/-- The feed has spoken for a market. -/
def ticked (session : TradingSession F) (ticker : Ticker) (now : TimePoint) : TradingSession F :=
  { session with
    lastBookUpdate := Function.update session.lastBookUpdate ticker (some now)
    feedDead := Function.update session.feedDead ticker false }

def seeded (session : TradingSession F) (ticker : Ticker) (now : TimePoint) : TradingSession F :=
  { session with
    seededAt := Function.update session.seededAt ticker (some now)
    feedDead := Function.update session.feedDead ticker false }

def cooledUntil (session : TradingSession F) (ticker : Ticker) (time : TimePoint) : TradingSession F :=
  { session with cooldownUntil := Function.update session.cooldownUntil ticker (some time) }

def markDead (session : TradingSession F) (ticker : Ticker) : TradingSession F :=
  { session with feedDead := Function.update session.feedDead ticker true }

def adopt (session : TradingSession F) (ticker : Ticker) : TradingSession F :=
  if session.isTracked ticker then session else { session with tickers := session.tickers ++ [ticker] }

def dropMarket (session : TradingSession F) (ticker : Ticker) : TradingSession F :=
  { session with
    tickers := session.tickers.filter fun other => other != ticker
    obMap := session.obMap.erase ticker
    lastBookUpdate := Function.update session.lastBookUpdate ticker none }

variable (venue : Venue X)

/-- `clock_() < cooldown->second`, false where there is none. -/
def coolingDown (ticker : Ticker) : Eff (Desk F X) String Bool := do
  let s ← Eff.get
  match s.session.cooldownUntil ticker with
  | none => pure false
  | some deadline => do
    let now ← steadyNow venue
    pure (decide (now < deadline))

def startCooldown (ticker : Ticker) : Eff (Desk F X) String Unit := do
  let now ← steadyNow venue
  mapSession fun session =>
    session.cooledUntil ticker (now + session.errorCooldownMs * nanosPerMilli)

/-- Run the quoter on a market; after an error the market cools down. -/
def quoteOrCoolDown (ticker : Ticker) (book : LocalOrderbook) : Eff (Desk F X) String Unit :=
  Eff.tryCatch (Quoter.update venue ticker book) fun _ => startCooldown venue ticker

def markTicked (ticker : Ticker) (book : LocalOrderbook) : Eff (Desk F X) String Unit := do
  mapSession fun session => session.setBook ticker book
  let now ← steadyNow venue
  mapSession fun session => session.ticked ticker now

def onSnapshot (snapshot : Orderbook) : Eff (Desk F X) String Unit :=
  markTicked venue snapshot.ticker (LocalOrderbook.applySnapshot snapshot)

def onDelta (ticker : Ticker) (side : Side) (priceCents : Int) (qty : Quantity) :
    Eff (Desk F X) String Unit := do
  let s ← Eff.get
  let book := (s.session.book ticker).applyDelta side priceCents qty
  markTicked venue ticker book
  if s.session.isTracked ticker then do
    if ← coolingDown venue ticker then pure ()
    else quoteOrCoolDown venue ticker book
  else pure ()

/-- Prior PnL plus that of this session, for the tracked markets. -/
def carriedTotals (session : TradingSession F) (om : OrderManager F) : PnlMap F :=
  session.tickers.foldl
    (fun totals ticker =>
      let sessionPnl := om.realizedPnl ticker
      if sessionPnl != 0 || (totals.lookup ticker).isSome then
        totals.insert ticker ((session.priorPnl.lookup ticker).getD 0 + sessionPnl)
      else totals)
    session.priorPnl

def midOf (session : TradingSession F) (ticker : Ticker) : F :=
  match session.obMap.lookup ticker with
  | some book => book.midPriceCents
  | none => 0

/-- What the analytics tap and the PnL listener are told after a fill. -/
def reportFill (fill : Fill F) : Eff (Desk F X) String Unit := do
  let s ← Eff.get
  if s.analytics then
    emit (.fill fill (s.session.midOf fill.marketTicker) (s.orderMgr.netPosition fill.marketTicker).contracts)
  if s.pnlListener then emit (.persist (s.session.carriedTotals s.orderMgr))

/-- What a newly recorded fill sets off. -/
def settleFill (fill : Fill F) : Eff (Desk F X) String Unit := do
  let s ← Eff.get
  if (s.orderMgr.openOrders.lookup fill.orderId).isNone then
    mapQuoter fun quoter => quoter.forgetOrder fill.marketTicker fill.orderId
  mapRisk fun risk => risk.update s.orderMgr s.session.tickers
  Eff.modify fun s =>
    { s with flowGuard := s.flowGuard.map fun guard =>
        guard.recordFill fill.marketTicker fill.side fill.quantity fill.timestamp }
  reportFill fill

def onFill (fill : Fill F) : Eff (Desk F X) String Bool := do
  Eff.modify fun s => { s with tradeTape := s.tradeTape.map fun tape => tape.recordOwnFill fill.tradeId }
  let s ← Eff.get
  if s.session.isTracked fill.marketTicker then
    if ← OrderManager.recordFill fill then do
      settleFill fill
      pure true
    else pure false
  else pure false

def onTrade (trade : PublicTrade) : Eff (Desk F X) String Unit :=
  Eff.modify fun s => { s with tradeTape := s.tradeTape.map fun tape => tape.recordTrade trade }

def flattenFill (order : Order) : Fill F where
  tradeId := ""
  orderId := order.id
  marketTicker := order.marketTicker
  side := order.side
  priceCents := if order.averageFillPriceCents ≠ 0 then order.averageFillPriceCents else order.priceCents
  quantity := order.filledQuantity
  feeCents := 0
  isTaker := true
  timestamp := order.createdAt

def recordFlatten (order : Order) : Eff (Desk F X) String Unit :=
  if order.filledQuantity.isPositive then do
    let _ ← OrderManager.recordFill (flattenFill order)
    reportFill (flattenFill order)
  else pure ()

def cancelAllGuarded (ticker : Ticker) : Eff (Desk F X) String Unit :=
  Eff.tryCatch (OrderManager.cancelAll venue ticker) fun _ => pure ()

def cancelAllQuotes : Eff (Desk F X) String Unit := do
  let s ← Eff.get
  if s.orderMgr.openOrders.keys ≠ [] then Eff.forEach s.session.tickers (cancelAllGuarded venue)
  mapQuoter Quoter.resetQuotes

def onDisconnect : Eff (Desk F X) String Unit := cancelAllQuotes venue

/-- The book is kept even where quoting it fails, and that failure starts no cooldown. -/
def seedOrderbook (snapshot : Orderbook) : Eff (Desk F X) String Unit := do
  let book := LocalOrderbook.applySnapshot snapshot
  mapSession fun session => session.setBook snapshot.ticker book
  let now ← steadyNow venue
  mapSession fun session => session.seeded snapshot.ticker now
  Eff.tryCatch (Quoter.update venue snapshot.ticker book) fun _ => pure ()

def addMarket (snapshot : Orderbook) : Eff (Desk F X) String Unit := do
  mapSession fun session => session.adopt snapshot.ticker
  seedOrderbook venue snapshot

/-- Tracked, flat, and with no resting order. -/
def removable (s : Desk F X) (ticker : Ticker) : Bool :=
  s.session.isTracked ticker && (s.orderMgr.netPosition ticker).isZero &&
    (s.orderMgr.openOn ticker).isEmpty

def removeMarketIfIdle (ticker : Ticker) : Eff (Desk F X) String Bool := do
  let s ← Eff.get
  if removable s ticker then do
    mapSession fun session => session.dropMarket ticker
    pure true
  else pure false

def kFeedConfirmGraceSeconds : Int := 30

def feedConfirmed (ticker : Ticker) : Eff (Desk F X) String Bool := do
  let s ← Eff.get
  if (s.session.lastBookUpdate ticker).isSome then pure true
  else
    match s.session.seededAt ticker with
    | none => pure true
    | some seeded => do
      let now ← steadyNow venue
      pure (decide (now - seeded ≤ kFeedConfirmGraceSeconds * nanosPerSecond))

/-- The three tests of the requote loop: a confirmed feed, no resting order, no cooldown. -/
def wantsRequote (ticker : Ticker) : Eff (Desk F X) String Bool := do
  if ← feedConfirmed venue ticker then do
    let s ← Eff.get
    if (s.orderMgr.openOn ticker).isEmpty then do
      let cooling ← coolingDown venue ticker
      pure !cooling
    else pure false
  else pure false

def requoteMarket (ticker : Ticker) : Eff (Desk F X) String Unit := do
  let s ← Eff.get
  if ← wantsRequote venue ticker then quoteOrCoolDown venue ticker (s.session.book ticker)
  else pure ()

/-- The loop walks the books, not the tracked markets. -/
def requoteIdleMarkets : Eff (Desk F X) String Unit := do
  let s ← Eff.get
  if s.riskMgr.isHalted then pure ()
  else Eff.forEach (venue.host.arrange s.outside s.session.obMap.keys) (requoteMarket venue)

/-- Without a feed the quotes of a market are pulled, once. -/
def checkFeed (ticker : Ticker) : Eff (Desk F X) String Unit := do
  let confirmed ← feedConfirmed venue ticker
  let s ← Eff.get
  if confirmed || s.session.feedDead ticker then pure ()
  else do
    mapSession fun session => session.markDead ticker
    cancelAllGuarded venue ticker
    mapQuoter fun quoter => quoter.forgetTicker ticker

def enforceQuoteSafety : Eff (Desk F X) String Unit := do
  let s ← Eff.get
  if s.riskMgr.isHalted then cancelAllQuotes venue
  else Eff.forEach s.session.tickers (checkFeed venue)

def cancelPreexistingOrders (restingOrders : List Order) : Eff (Desk F X) String Unit :=
  Eff.forEach (restingOrders.map Order.id) (OrderManager.cancelBestEffort venue)

def buildMarks (session : TradingSession F) : MarkMap := fun ticker =>
  if session.isTracked ticker then
    match session.obMap.lookup ticker with
    | some book =>
      let mid : F := book.midPriceCents
      if 0 < mid then some (Floating.round mid) else none
    | none => none
  else none

def portfolioSnapshot (s : Desk F X) : PortfolioSnapshot F :=
  Portfolio.snapshot s.orderMgr (venue.host.arrange s.outside) s.session.tickers s.session.buildMarks

def feedPortfolio (snapshot : PortfolioSnapshot F) : Eff (Desk F X) String Unit := do
  let s ← Eff.get
  let checked := s.riskMgr.updatePortfolio snapshot
  mapRisk fun _ => checked.2
  match checked.1 with
  | some what => Eff.abort what
  | none => pure ()

def runPortfolioRisk : Eff (Desk F X) String Unit := do
  let s ← Eff.get
  feedPortfolio (portfolioSnapshot venue s)

end TradingSession

end Kalshi
