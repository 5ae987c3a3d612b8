import KalshiMaker.Exchange.OrderManager
import KalshiMaker.Lib.Keyed
import Mathlib.Data.List.Dedup

/-! The portfolio read-model: totals over a list of markets and a breakdown by event. -/
namespace Kalshi

/-- YES mid prices in cents, for the markets that have one. -/
abbrev MarkMap := Ticker → Option Int

structure EventExposure (F : Type) where
  eventTicker : String
  realizedPnlCents : F
  unrealizedPnlCents : F
  notionalCostCents : F
  marketCount : Int
  deriving DecidableEq

structure PortfolioSnapshot (F : Type) where
  totalRealizedCents : F
  totalUnrealizedCents : F
  totalNotionalCents : F
  byEvent : List (EventExposure F)
  deriving DecidableEq

/-- Everything in front of the last hyphen; the whole ticker where there is none. -/
def eventTickerOf (marketTicker : Ticker) : String :=
  match marketTicker.toList.reverse.dropWhile (fun c => c != '-') with
  | [] => marketTicker
  | _ :: stem => String.ofList stem.reverse

variable {F : Type} [Floating F]

def PortfolioSnapshot.totalPnlCents (snap : PortfolioSnapshot F) : F :=
  snap.totalRealizedCents + snap.totalUnrealizedCents

namespace Portfolio

def unrealized (om : OrderManager F) (marks : MarkMap) (ticker : Ticker) : F :=
  match marks ticker with
  | some mark => om.unrealizedPnl ticker mark
  | none => 0

def sumOver (tickers : List Ticker) (amount : Ticker → F) : F :=
  tickers.foldl (fun sum ticker => sum + amount ticker) 0

def exposure (om : OrderManager F) (marks : MarkMap) (tickers : List Ticker) (eventTicker : String) :
    EventExposure F :=
  let markets := tickers.filter fun ticker => eventTickerOf ticker == eventTicker
  { eventTicker
    realizedPnlCents := sumOver markets om.realizedPnl
    unrealizedPnlCents := sumOver markets (unrealized om marks)
    notionalCostCents := sumOver markets om.positionCost
    marketCount := markets.length }

def byNotionalDescending (left right : EventExposure F) : Prop :=
  ¬ left.notionalCostCents < right.notionalCostCents

instance : DecidableRel (byNotionalDescending (F := F)) :=
  fun left right => inferInstanceAs (Decidable (¬ left.notionalCostCents < right.notionalCostCents))

/-- `walk` is the order in which the hash map of events is read out before it is sorted. -/
def snapshot (om : OrderManager F) (walk : List String → List String) (tickers : List Ticker)
    (marks : MarkMap) : PortfolioSnapshot F :=
  { totalRealizedCents := sumOver tickers om.realizedPnl
    totalUnrealizedCents := sumOver tickers (unrealized om marks)
    totalNotionalCents := sumOver tickers om.positionCost
    byEvent := ((walk (tickers.map eventTickerOf).dedup).map (exposure om marks tickers)).insertionSort
      byNotionalDescending }

/-! ### The loop of the source -/

/-- The totals and the map of events while the tickers are gone through. -/
structure RollUp (F : Type) [Floating F] where
  totalRealizedCents : F := 0
  totalUnrealizedCents : F := 0
  totalNotionalCents : F := 0
  events : List (String × EventExposure F) := []

def noExposure : EventExposure F where
  eventTicker := ""
  realizedPnlCents := 0
  unrealizedPnlCents := 0
  notionalCostCents := 0
  marketCount := 0

/-- One market of the event. -/
def addMarket (event : EventExposure F) (realized unrealized notional : F) : EventExposure F :=
  { event with
    realizedPnlCents := event.realizedPnlCents + realized
    unrealizedPnlCents := event.unrealizedPnlCents + unrealized
    notionalCostCents := event.notionalCostCents + notional
    marketCount := event.marketCount + 1 }

def RollUp.add (om : OrderManager F) (marks : MarkMap) (state : RollUp F) (ticker : Ticker) : RollUp F :=
  let realized := om.realizedPnl ticker
  let notional := om.positionCost ticker
  let unrealized := unrealized om marks ticker
  { totalRealizedCents := state.totalRealizedCents + realized
    totalUnrealizedCents := state.totalUnrealizedCents + unrealized
    totalNotionalCents := state.totalNotionalCents + notional
    events := Keyed.upsert Prod.fst (eventTickerOf ticker) (eventTickerOf ticker, noExposure)
      (fun entry => (entry.1, addMarket entry.2 realized unrealized notional)) state.events }

/-- `snapshot` as it is computed, in one pass; `walk` reads out the hash map. -/
def rollUp (om : OrderManager F) (walk : List (String × EventExposure F) → List (String × EventExposure F))
    (tickers : List Ticker) (marks : MarkMap) : PortfolioSnapshot F :=
  let state := tickers.foldl (RollUp.add om marks) {}
  { totalRealizedCents := state.totalRealizedCents
    totalUnrealizedCents := state.totalUnrealizedCents
    totalNotionalCents := state.totalNotionalCents
    byEvent := ((walk state.events).map fun entry => { entry.2 with eventTicker := entry.1 }).insertionSort
      byNotionalDescending }

end Portfolio

end Kalshi
