import KalshiMaker.App.Reconcile
import KalshiMaker.Engine.Steps

/-! The main thread: the trading loop, and the wind-down loop after it. The feed's callbacks, and the changes
that rotation makes under the engine lock, come between the critical sections. -/
namespace Kalshi

open Effect Desk TradingSession

variable {F X : Type} [Floating F]

inductive Phase where
  | trading
  | windDown (deadline : TimePoint)
  | done
  deriving DecidableEq, Repr

structure MainConfig where
  paperMode : Bool := false
  windDownSeconds : Int := 45
  sessionStartSeconds : Int := 0
  reconcileBaseline : List MarketPosition := []

/-- `pollCount` counts the iterations of the trading loop and `iterations` those of both loops. `judged` are the
portfolios put before the kill-switch, oldest first. The program reads neither `iterations` nor `judged`. -/
structure MainLoop (F X : Type) [Floating F] where
  live : Live F X
  phase : Phase := .trading
  pollCount : Nat := 0
  alive : Bool := true
  iterations : Nat := 0
  judged : List (PortfolioSnapshot F) := []

def kStalenessThresholdSeconds : Int := 30

def kStalenessCheckInterval : Nat := 300

def kPortfolioRiskInterval : Nat := 10

def kReconcileInterval : Nat := 1200

def kBackfillOverlapSeconds : Int := 60

/-- Work that is due at every `interval`-th iteration. -/
def atCadence {σ : Type} (count interval : Nat) (m : Eff σ String Unit) : Eff σ String Unit :=
  if count % interval = 0 then m else pure ()

/-- The stale bit after a look at how long the feed has been silent. -/
def RiskManager.staleChecked (risk : RiskManager F) (sinceLast : Int) : RiskManager F :=
  if kStalenessThresholdSeconds * nanosPerSecond < sinceLast then risk.set .kStaleBook
  else if risk.isSet .kStaleBook then risk.clear .kStaleBook
  else risk

/-- `lastMessage` is the websocket client's `last_message_time`. -/
def checkWsStaleness (venue : Venue X) (lastMessage : TimePoint) : Eff (Desk F X) String Unit := do
  let now ← steadyNow venue
  mapRisk fun risk => risk.staleChecked (now - lastMessage)

namespace MainLoop

def onLive {α : Type} (m : Eff (Live F X) String α) : Eff (MainLoop F X) String α :=
  Eff.onPart MainLoop.live (fun loop live => { loop with live }) m

def onDesk {α : Type} (m : Eff (Desk F X) String α) : Eff (MainLoop F X) String α := onLive (Live.onDesk m)

def desk (loop : MainLoop F X) : Desk F X := loop.live.desk

def withDesk (loop : MainLoop F X) (desk : Desk F X) : MainLoop F X := { loop with live := { loop.live with desk } }

variable (venue : Venue X) (account : Account F X) (config : MainConfig)

/-- `run_portfolio_risk`, with a note of the portfolio it judges. -/
def killSwitch : Eff (MainLoop F X) String Unit := do
  let loop ← Eff.get
  let snapshot := portfolioSnapshot venue loop.desk
  Eff.modify fun loop => { loop with judged := loop.judged ++ [snapshot] }
  onDesk (feedPortfolio snapshot)

/-- The staleness check and the requote that goes with it. -/
def refreshFeed (lastMessage : TimePoint) : Eff (Desk F X) String Unit := do
  checkWsStaleness venue lastMessage
  requoteIdleMarkets venue

def reconcileLive : Eff (Live F X) String Unit := do
  let _ ← Live.reconcileAgainstExchange account config.reconcileBaseline config.sessionStartSeconds

/-- The body of the trading loop under the engine lock. -/
def tradingIteration (lastMessage : TimePoint) : Eff (MainLoop F X) String Unit := do
  let loop ← Eff.get
  atCadence loop.pollCount kStalenessCheckInterval (onDesk (refreshFeed venue lastMessage))
  atCadence loop.pollCount kPortfolioRiskInterval (killSwitch venue)
  onDesk (enforceQuoteSafety venue)
  if config.paperMode then pure ()
  else atCadence loop.pollCount kReconcileInterval (onLive (reconcileLive account config))

def allFlat (s : Desk F X) : Bool := s.session.tickers.all fun ticker => (s.orderMgr.netPosition ticker).isZero

/-- The body of the wind-down loop under the engine lock. -/
def windDownIteration : Eff (MainLoop F X) String Unit := do
  let loop ← Eff.get
  if allFlat loop.desk then Eff.modify fun loop => { loop with phase := .done } else pure ()

/-- A failed `ensure` cancels all quotes and ends the process; an exception ends both loops. -/
def settle (outcome : Except (Stop String) Unit × MainLoop F X) : MainLoop F X :=
  match outcome with
  | (.error (.abort _), loop) => { loop.withDesk (cancelAllQuotes venue loop.desk).2 with alive := false }
  | (.error (.exception _), loop) => { loop with phase := .done }
  | (.ok _, loop) => loop

/-- The dispatcher of the feed contains what a callback throws. -/
def contain (outcome : Except (Stop String) Unit × MainLoop F X) : MainLoop F X :=
  match outcome with
  | (.error (.exception _), loop) => loop
  | other => settle venue other

/-- One locked event of the feed or of rotation. -/
def callback : Event F → Eff (Live F X) String Unit
  | .fill fill => Live.onFill fill
  | event => Live.onDesk (handle venue event)

/-- Fills missed while the feed was down are fetched, from a minute before the latest one. -/
def onReconnect : Eff (Live F X) String Unit := do
  let live ← Eff.get
  let minTs := max config.sessionStartSeconds
    ((live.lastFillTime - kBackfillOverlapSeconds * nanosPerSecond).tdiv nanosPerSecond)
  let _ ← Live.backfillFills account minTs

/-- Between the loops: reduce-only, with a deadline. Paper mode and an empty window skip the wind-down. -/
def beginWindDown (loop : MainLoop F X) : MainLoop F X :=
  if config.paperMode = false ∧ 0 < config.windDownSeconds then
    let now := venue.host.steadyNow loop.desk.outside
    { loop.withDesk { loop.desk with
        quoter := { loop.desk.quoter with reduceOnly := true }
        outside := now.2 } with
      phase := .windDown (now.1 + config.windDownSeconds * nanosPerSecond) }
  else { loop with phase := .done }

/-- One round of the loop that the main thread is in. -/
def poll (lastMessage : TimePoint) (loop : MainLoop F X) : MainLoop F X :=
  match loop.phase with
  | .trading =>
    settle venue (tradingIteration venue account config lastMessage
      { loop with pollCount := loop.pollCount + 1, iterations := loop.iterations + 1 })
  | .windDown deadline =>
    let now := venue.host.steadyNow loop.desk.outside
    let read := loop.withDesk { loop.desk with outside := now.2 }
    if now.1 < deadline then settle venue (windDownIteration { read with iterations := read.iterations + 1 })
    else { read with phase := .done }
  | .done => loop

end MainLoop

/-- What moves the program on: an event of the feed or of rotation, a reconnect, the shutdown request as the trading
loop sees it, or a round of the main thread. -/
inductive Beat (F : Type) where
  | event (event : Event F)
  | reconnected
  | stopped
  | poll (lastMessage : TimePoint)

namespace MainLoop

variable (venue : Venue X) (account : Account F X) (config : MainConfig)

def step (loop : MainLoop F X) (beat : Beat F) : MainLoop F X :=
  if loop.alive then
    match beat with
    | .event event => contain venue (onLive (callback venue event) loop)
    | .reconnected => contain venue (onLive (onReconnect account config) loop)
    | .stopped => if loop.phase = .trading then beginWindDown venue config loop else loop
    | .poll lastMessage => poll venue account config lastMessage loop
  else loop

def run (loop : MainLoop F X) (beats : List (Beat F)) : MainLoop F X := beats.foldl (step venue account config) loop

end MainLoop

end Kalshi
