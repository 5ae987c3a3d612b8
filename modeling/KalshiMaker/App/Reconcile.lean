import KalshiMaker.App.Wiring
import KalshiMaker.Engine.Process
import Mathlib.Data.List.Sort
import Mathlib.Data.String.Basic

/-! Reconciliation with the positions the exchange reports, and the replay of its fill history. -/
namespace Kalshi

open Effect

variable {F X : Type} [Floating F]

structure MarketPosition where
  ticker : Ticker
  position : Quantity
  deriving DecidableEq, Repr

/-- What the REST client reads of the account. Any read may throw. -/
structure Account (F X : Type) where
  getOpenOrders : X → Except String (List Order) × X
  getPositions : X → Except String (List MarketPosition) × X
  getFills : (minTsSeconds : Int) → X → Except String (List (Fill F)) × X

/-! ### The comparison -/

/-- One ticker where local accounting disagrees with the exchange. -/
structure PositionDiff where
  ticker : Ticker
  localPosition : Quantity
  exchangePosition : Quantity
  baselinePosition : Quantity
  deriving DecidableEq, Repr

structure Reconciliation where
  inSync : Bool
  diffs : List PositionDiff
  deriving DecidableEq, Repr

/-- A map filled from a list of positions: the last entry of a ticker stands, and none stands for zero. -/
def positionIn (positions : List MarketPosition) (ticker : Ticker) : Quantity :=
  ((positions.filter fun position => position.ticker == ticker).getLast?.map MarketPosition.position).getD {}

/-- The part of the baseline that counts: what is not zero, outside the tracked universe. -/
def countedBaseline (tickers : List Ticker) (baseline : List MarketPosition) : List MarketPosition :=
  baseline.filter fun position => !position.position.isZero && !decide (position.ticker ∈ tickers)

/-- The tracked universe, and every ticker with a position at the exchange or in the baseline. -/
def toCheck (tickers : List Ticker) (exchange baseline : List MarketPosition) : List Ticker :=
  (tickers ++ (exchange.filter fun position => !position.position.isZero).map MarketPosition.ticker ++
    (countedBaseline tickers baseline).map MarketPosition.ticker).dedup

def positionDiff (om : OrderManager F) (tickers : List Ticker) (exchange baseline : List MarketPosition)
    (ticker : Ticker) : Option PositionDiff :=
  let localPosition := om.netPosition ticker
  let exchangePosition := positionIn exchange ticker
  let baselinePosition := positionIn (countedBaseline tickers baseline) ticker
  if localPosition + baselinePosition ≠ exchangePosition then
    some { ticker, localPosition, exchangePosition, baselinePosition }
  else none

def byTicker (left right : PositionDiff) : Prop := left.ticker ≤ right.ticker

instance : DecidableRel byTicker := fun left right => inferInstanceAs (Decidable (left.ticker ≤ right.ticker))

def reconcile (om : OrderManager F) (tickers : List Ticker) (exchange baseline : List MarketPosition) :
    Reconciliation :=
  let diffs := ((toCheck tickers exchange baseline).filterMap
    (positionDiff om tickers exchange baseline)).insertionSort byTicker
  { inSync := diffs.isEmpty, diffs }

/-! ### The procedure -/

namespace Live

/-- A read of the account; `none` where it threw. -/
def fetch {α : Type} (read : X → Except String α × X) : Eff (Live F X) String (Option α) := fun live =>
  let answer := read live.desk.outside
  (.ok answer.1.toOption, { live with desk := { live.desk with outside := answer.2 } })

/-- The loop of `backfill_fills`, with the number of fills newly recorded so far. -/
def replayFills : List (Fill F) → Int → Eff (Live F X) String Int
  | [], replayed => pure replayed
  | fill :: fetched, replayed => do
    let live ← Eff.get
    if live.desk.session.isTracked fill.marketTicker then do
      let new ← onDesk (TradingSession.onFill fill)
      Eff.modify fun live => { live with lastFillTime := max live.lastFillTime fill.timestamp }
      replayFills fetched (if new then replayed + 1 else replayed)
    else replayFills fetched replayed

variable (account : Account F X)

/-- The number of fills newly recorded, -1 where they could not be fetched. -/
def backfillFills (minTsSeconds : Int) : Eff (Live F X) String Int := do
  match ← fetch (account.getFills minTsSeconds) with
  | none => pure (-1)
  | some fetched => replayFills fetched 0

/-- Back in sync: a drift halt is lifted. -/
def backInSync : Eff (Live F X) String Bool := do
  let live ← Eff.get
  if live.desk.riskMgr.isSet .kModelDiverge then
    onDesk (Desk.mapRisk fun risk => risk.clear .kModelDiverge)
  pure true

def driftHalt : Eff (Live F X) String Bool := do
  onDesk (Desk.mapRisk fun risk => risk.set .kModelDiverge)
  pure false

def compare (baseline exchange : List MarketPosition) : Eff (Live F X) String Reconciliation := do
  let live ← Eff.get
  pure (reconcile live.desk.orderMgr live.desk.session.tickers exchange baseline)

/-- The second pass: what is still out of sync halts, and so does a failed fetch. -/
def comparedAgain (baseline : List MarketPosition) : Eff (Live F X) String Bool := do
  match ← fetch account.getPositions with
  | none => driftHalt
  | some exchange => do
    let result ← compare baseline exchange
    if result.inSync then backInSync else driftHalt

/-- As the main loop calls it: with a risk manager, and with the replay of the session's fills as the hook. -/
def reconcileAgainstExchange (baseline : List MarketPosition) (sessionStartSeconds : Int) :
    Eff (Live F X) String Bool := do
  match ← fetch account.getPositions with
  | none => pure false
  | some exchange => do
    let result ← compare baseline exchange
    if result.inSync then backInSync
    else do
      let replayed ← backfillFills account sessionStartSeconds
      if 0 ≤ replayed then comparedAgain account baseline else driftHalt

end Live

/-! ### The account over a session -/

/-- One execution of ours, as the feed announces it and as the account's history lists it. -/
structure Executed (F : Type) [Floating F] where
  message : Fill F
  record : Fill F
  sameKey : OrderManager.fillKey record = OrderManager.fillKey message
  sameTerms : record.terms = message.terms

namespace Executed

def key (execution : Executed F) : String := OrderManager.fillKey execution.record

def ticker (execution : Executed F) : Ticker := execution.record.marketTicker

/-- What it adds to the position, in centi-contracts. -/
def signed (execution : Executed F) : Int := execution.record.side.toward execution.record.quantity.centi

/-- What executions come to on a market. -/
def net (executions : List (Executed F)) (ticker : Ticker) : Int :=
  (executions.map fun execution => if execution.ticker = ticker then execution.signed else 0).sum

end Executed

/-- What happens to a session and its account: an execution, an announcement of one by the feed or by a replay, or any
other event. An execution that is never announced is lost. -/
inductive AccountTurn (venue : Venue X) : List (Executed F) × Live F X → List (Executed F) × Live F X → Prop where
  | executed {executions : List (Executed F)} {live : Live F X} (execution : Executed F)
      (new : execution.key ∉ executions.map Executed.key) :
      AccountTurn venue (executions, live) (executions ++ [execution], live)
  | announced {executions : List (Executed F)} {live : Live F X} (execution : Executed F)
      (among : execution ∈ executions) : AccountTurn venue (executions, live)
        (executions, (Live.onFill execution.message live).2)
  | replayed {executions : List (Executed F)} {live : Live F X} (execution : Executed F)
      (among : execution ∈ executions) :
      AccountTurn venue (executions, live) (executions, (Live.replayFills [execution.record] 0 live).2)
  | event {executions : List (Executed F)} {live : Live F X} (event : Event F) (fills : ∀ fill, event ≠ .fill fill)
      (flattens : ∀ order, event ≠ .recordFlatten order) :
      AccountTurn venue (executions, live) (executions, { live with desk := (handle venue event live.desk).2 })

/-- Where the exchange stands on a market: what the executions there come to, and where there are none the position it
started with. -/
def heldAt (executions : List (Executed F)) (start : Ticker → Int) (ticker : Ticker) : Int :=
  if ticker ∈ executions.map Executed.ticker then Executed.net executions ticker else start ticker

namespace Account

variable (account : Account F X)

/-- A read of the positions that tells them all. -/
def TellsPositions (held : Ticker → Int) (x : X) : Prop :=
  ∃ positions, (account.getPositions x).1 = .ok positions ∧ ∀ ticker, (positionIn positions ticker).centi = held ticker

/-- A read of the fills that lists them all. -/
def TellsFills (minTsSeconds : Int) (executions : List (Executed F)) (x : X) : Prop :=
  ∃ fetched, (account.getFills minTsSeconds x).1 = .ok fetched ∧
    ∀ fill, fill ∈ fetched ↔ fill ∈ executions.map Executed.record

/-- The three reads of a reconciliation, each of the exchange as it then is. -/
structure Tells (minTsSeconds : Int) (first second : Ticker → Int) (executions : List (Executed F))
    (x : X) : Prop where
  before : account.TellsPositions first x
  history : account.TellsFills minTsSeconds executions (account.getPositions x).2
  after : account.TellsPositions second (account.getFills minTsSeconds (account.getPositions x).2).2

end Account

end Kalshi
