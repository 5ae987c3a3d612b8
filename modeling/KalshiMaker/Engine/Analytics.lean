import KalshiMaker.Engine.Desk

/-! The analytics log: a line for each quote decision and each fill the session reports. -/
namespace Kalshi

structure QuoteLine (F : Type) where
  tsMs : Int
  ticker : Ticker
  mid : F
  micro : F
  fv : F
  bid : Int
  ask : Int
  inventory : F
  imbalanced : Bool
  deriving DecidableEq

structure FillLine (F : Type) where
  tsMs : Int
  ticker : Ticker
  tradeId : String
  side : Side
  price : Int
  qty : F
  feeCents : F
  isTaker : Bool
  mid : F
  inventoryAfter : F
  deriving DecidableEq

inductive AnalyticsLine (F : Type) where
  | quote (line : QuoteLine F)
  | fill (line : FillLine F)
  deriving DecidableEq

/-- Milliseconds since the epoch, cut off towards it. -/
def epochMs (time : TimePoint) : Int := time.tdiv nanosPerMilli

namespace AnalyticsLogger

variable {F : Type} [Floating F]

def fill (now : TimePoint) (fillEvent : Fill F) (midCents inventoryAfterContracts : F) : FillLine F where
  tsMs := epochMs now
  ticker := fillEvent.marketTicker
  tradeId := fillEvent.tradeId
  side := fillEvent.side
  price := fillEvent.priceCents
  qty := fillEvent.quantity.contracts
  feeCents := fillEvent.feeCents
  isTaker := fillEvent.isTaker
  mid := midCents
  inventoryAfter := inventoryAfterContracts

/-- What is written of an emission; the maps of the PnL listener go elsewhere. -/
def line (now : TimePoint) : Emission F → Option (AnalyticsLine F)
  | .quoteDecision ticker mid micro fairVal bid ask inventory imbalanced =>
    some (.quote ⟨epochMs now, ticker, mid, micro, fairVal, bid, ask, inventory, imbalanced⟩)
  | .fill event midCents netPosition => some (.fill (fill now event midCents netPosition))
  | .persist _ => none

/-- The lines of a session. The logger reads its own clock at each. -/
def lines (clock : Nat → TimePoint) (emitted : List (Emission F)) : List (AnalyticsLine F) :=
  emitted.zipIdx.filterMap fun emission => line (clock emission.2) emission.1

end AnalyticsLogger

end Kalshi
