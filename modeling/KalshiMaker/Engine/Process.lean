import KalshiMaker.Engine.TradingSession
import KalshiMaker.Lib.Run

/-! The trading process: its events in any order, and its end. -/
namespace Kalshi

open Effect Desk TradingSession

variable {F X : Type} [Floating F]

/-- What reaches the session, the quoter and the risk manager. The engine lock makes each event
atomic. -/
inductive Event (F : Type) where
  | snapshot (snapshot : Orderbook)
  | delta (ticker : Ticker) (side : Side) (priceCents : Int) (qty : Quantity)
  | fill (fill : Fill F)
  | trade (trade : PublicTrade)
  | disconnect
  | addMarket (snapshot : Orderbook)
  | removeMarketIfIdle (ticker : Ticker)
  | requoteIdleMarkets
  | enforceQuoteSafety
  | runPortfolioRisk
  | seedOrderbook (snapshot : Orderbook)
  | cancelAllQuotes
  | cancelPreexistingOrders (restingOrders : List Order)
  | recordFlatten (order : Order)
  | setReduceOnly (reduceOnly : Bool)
  | resetQuotes
  | forgetTicker (ticker : Ticker)
  | forgetOrder (ticker : Ticker) (orderId : OrderId)
  | riskUpdate (tickers : List Ticker)
  | updatePortfolio (snapshot : PortfolioSnapshot F)
  | setConstraint (bit : Constraint)
  | clearConstraint (bit : Constraint)
  | halt
  | resume

def handle (venue : Venue X) : Event F → Eff (Desk F X) String Unit
  | .snapshot snapshot => onSnapshot venue snapshot
  | .delta ticker side priceCents qty => onDelta venue ticker side priceCents qty
  | .fill fill => do let _ ← onFill fill
  | .trade trade => onTrade trade
  | .disconnect => onDisconnect venue
  | .addMarket snapshot => addMarket venue snapshot
  | .removeMarketIfIdle ticker => do let _ ← removeMarketIfIdle ticker
  | .requoteIdleMarkets => requoteIdleMarkets venue
  | .enforceQuoteSafety => enforceQuoteSafety venue
  | .runPortfolioRisk => runPortfolioRisk venue
  | .seedOrderbook snapshot => seedOrderbook venue snapshot
  | .cancelAllQuotes => cancelAllQuotes venue
  | .cancelPreexistingOrders restingOrders => cancelPreexistingOrders venue restingOrders
  | .recordFlatten order => recordFlatten order
  | .setReduceOnly reduceOnly => mapQuoter fun quoter => { quoter with reduceOnly }
  | .resetQuotes => mapQuoter Quoter.resetQuotes
  | .forgetTicker ticker => mapQuoter fun quoter => quoter.forgetTicker ticker
  | .forgetOrder ticker orderId => mapQuoter fun quoter => quoter.forgetOrder ticker orderId
  | .riskUpdate tickers => Eff.modify fun s => { s with riskMgr := s.riskMgr.update s.orderMgr tickers }
  | .updatePortfolio snapshot => feedPortfolio snapshot
  | .setConstraint bit => mapRisk fun risk => risk.set bit
  | .clearConstraint bit => mapRisk fun risk => risk.clear bit
  | .halt => mapRisk RiskManager.halt
  | .resume => mapRisk RiskManager.resume

structure Process (F X : Type) [Floating F] where
  desk : Desk F X
  alive : Bool := true

namespace Process

/-- A failed `ensure` runs the panic handler, which cancels all quotes, and ends the process. What
an exception leaves behind is kept. -/
def dispatch (venue : Venue X) (p : Process F X) (event : Event F) : Process F X :=
  if p.alive then
    match handle venue event p.desk with
    | (.error (.abort _), desk) => { desk := (cancelAllQuotes venue desk).2, alive := false }
    | (_, desk) => { desk }
  else p

def run (venue : Venue X) (p : Process F X) (events : List (Event F)) : Process F X :=
  events.foldl (dispatch venue) p

@[simp] theorem run_nil (venue : Venue X) (p : Process F X) : p.run venue [] = p := rfl

@[simp] theorem run_cons (venue : Venue X) (p : Process F X) (event : Event F) (events : List (Event F)) :
    p.run venue (event :: events) = (p.dispatch venue event).run venue events := rfl

theorem run_append (venue : Venue X) (p : Process F X) (first second : List (Event F)) :
    p.run venue (first ++ second) = (p.run venue first).run venue second :=
  List.foldl_append

/-- `condition` holds of each event of a run and of the process it finds. -/
def Meets (venue : Venue X) (condition : Process F X → Event F → Prop) (p : Process F X)
    (events : List (Event F)) : Prop := Run.Meets (dispatch venue) condition p events

/-- A process at start-up: no order, no fill, nothing quoted. -/
def start (session : TradingSession F) (config : QuoterConfig F) (limits : RiskLimits F) (outside : X)
    (flowGuard : Option (FlowImbalanceGuard F)) (tradeTape : Option (TradeTape F))
    (analytics pnlListener : Bool) : Process F X where
  desk := {
    riskMgr := { limits }
    quoter := .make config config.pricingModel limits
    flowGuard
    tradeTape
    session
    analytics
    pnlListener
    outside }

end Process

end Kalshi
