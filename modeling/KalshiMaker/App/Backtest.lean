import KalshiMaker.Engine.Process
import KalshiMaker.Net.PaperTransport

/-! The replay of a capture against the paper exchange. -/
namespace Kalshi

open Effect Desk PaperTransport

variable {F Y : Type} [Floating F]

def paperVenue (rest : RestClient) (world : Host Y) : Venue (PaperWorld F Y) := ⟨rest, PaperWorld.host world⟩

/-- A resting order that a print traded through, and its whole contracts. -/
structure Crossable where
  orderId : OrderId
  side : Side
  priceCents : Int
  remaining : Int
  deriving DecidableEq, Repr

/-- Prints at the order's own level never fill it. -/
def PublicTrade.crosses (print : PublicTrade) (order : Order) : Bool :=
  match print.takerSide, order.side with
  | .yes, .no => decide (complementPrice order.priceCents < print.yesPriceCents)
  | .no, .yes => decide (print.yesPriceCents < order.priceCents)
  | _, _ => false

/-- `static_cast<int>(q.contracts())` -/
def Quantity.wholeContracts (F : Type) [Floating F] (q : Quantity) : Int := Floating.trunc (q.contracts : F)

def crossable (paper : PaperTransport F) (print : PublicTrade) : List Crossable :=
  paper.openOrders.filterMap fun order =>
    if order.marketTicker ≠ print.marketTicker ∨ !order.isActive then none
    else if print.crosses order then
      let remaining := (order.quantity - order.filledQuantity).wholeContracts F
      if 0 < remaining then some ⟨order.id, order.side, order.priceCents, remaining⟩ else none
    else none

def simId (fills : Nat) : String := "sim-" ++ toString fills

def simFill (print : PublicTrade) (target : Crossable) (fillQty : Int) (fills : Nat) : Fill F where
  tradeId := simId fills
  orderId := target.orderId
  marketTicker := print.marketTicker
  side := target.side
  priceCents := target.priceCents
  quantity := Quantity.fromContracts fillQty
  feeCents := 0
  isTaker := false
  timestamp := print.timestamp

variable (world : Host Y)

/-- A fill on the paper exchange; whether the order was found. -/
def simulateFill (orderId : OrderId) (fillQty : Int) : Eff (Desk F (PaperWorld F Y)) String Bool :=
  fun s =>
    let filled := PaperWorld.simulateFill world orderId fillQty s.outside
    (.ok filled.1, { s with outside := filled.2 })

/-- The loop of `simulate_maker_fills`: the print is used up along the targets. -/
def fillCrossable (print : PublicTrade) : List Crossable → Int → Eff (Desk F (PaperWorld F Y)) String Nat
  | [], _ => pure 0
  | target :: targets, printRemaining =>
    if printRemaining ≤ 0 then pure 0
    else do
      let fillQty := min printRemaining target.remaining
      if fillQty ≤ 0 then fillCrossable print targets printRemaining
      else if ← simulateFill world target.orderId fillQty then do
        let s ← Eff.get
        let _ ← TradingSession.onFill (simFill print target fillQty s.outside.paper.fills.length)
        let filled ← fillCrossable print targets (printRemaining - fillQty)
        pure (filled + 1)
      else fillCrossable print targets printRemaining

/-- As the replay calls it: with a session, which every fill is forwarded to. -/
def simulateMakerFills (print : PublicTrade) : Eff (Desk F (PaperWorld F Y)) String Nat := do
  let s ← Eff.get
  fillCrossable world print (crossable s.outside.paper print) (print.quantity.wholeContracts F)

/-- What a capture is to the session: the frames that parse, in the order recorded. -/
inductive Frame where
  | snapshot (snapshot : Orderbook)
  | delta (ticker : Ticker) (side : Side) (priceCents : Int) (qty : Quantity)
  | trade (print : PublicTrade)
  deriving DecidableEq, Repr

variable (rest : RestClient)

def handleFrame : Frame → Eff (Desk F (PaperWorld F Y)) String Unit
  | .snapshot snapshot => do
    let s ← Eff.get
    if s.session.isTracked snapshot.ticker then TradingSession.onSnapshot (paperVenue rest world) snapshot
    else TradingSession.addMarket (paperVenue rest world) snapshot
  | .delta ticker side priceCents qty =>
    TradingSession.onDelta (paperVenue rest world) ticker side priceCents qty
  | .trade print => do
    let _ ← simulateMakerFills world print
    TradingSession.onTrade print

/-- The dispatcher contains exceptions. No panic handler is set, so an abort just ends the replay. -/
def Process.injectFrame (p : Process F (PaperWorld F Y)) (frame : Frame) : Process F (PaperWorld F Y) :=
  if p.alive then
    match handleFrame world rest frame p.desk with
    | (.error (.abort _), desk) => { desk, alive := false }
    | (_, desk) => { desk }
  else p

/-- A replay before its first frame: nothing tracked, nothing on the paper exchange. -/
def Process.replayStart (config : QuoterConfig F) (limits : RiskLimits F) (flow : FlowImbalanceConfig F)
    (y : Y) : Process F (PaperWorld F Y) :=
  .start { tickers := [] } config limits { paper := {}, rest := y } (some { config := flow }) (some {})
    false true

/-- `run_backtest_mode` from its first frame on. -/
def runBacktestMode (config : QuoterConfig F) (limits : RiskLimits F) (flow : FlowImbalanceConfig F)
    (y : Y) (capture : List Frame) : Process F (PaperWorld F Y) :=
  capture.foldl (Process.injectFrame world rest) (.replayStart config limits flow y)

end Kalshi
