import Mathlib.Data.List.Sort
import KalshiMaker.Engine.Analytics

/-! `settlement_join.py`: what the fills of an analytics log come to once their market has settled. -/
namespace Kalshi
namespace SettlementJoin

/-- What the script reads of a fill. An older log may have no fee. -/
structure FillEvent (F : Type) where
  tsMs : Int
  side : Side
  price : Int
  qty : F
  feeCents : Option F
  deriving DecidableEq

inductive LogEvent (F : Type) where
  | fill (ticker : Ticker) (event : FillEvent F)
  | other
  deriving DecidableEq

/-- `json.loads` of a line of the analytics log. -/
def loads {F : Type} : AnalyticsLine F → LogEvent F
  | .quote _ => .other
  | .fill line => .fill line.ticker ⟨line.tsMs, line.side, line.price, line.qty, some line.feeCents⟩

def LogEvent.fillOn {F : Type} (ticker : Ticker) : LogEvent F → Option (FillEvent F)
  | .fill named event => if named = ticker then some event else none
  | .other => none

/-- The fills of a market by time, and as logged within a millisecond. -/
def loadFills {F : Type} (log : List (LogEvent F)) (ticker : Ticker) : List (FillEvent F) :=
  (log.filterMap (LogEvent.fillOn ticker)).insertionSort fun fill other => fill.tsMs ≤ other.tsMs

variable {F : Type} [Floating F]

def settleNativeCents (result side : Side) : F := if result = side then ((100 : Int) : F) else 0

/-- The loop of `fills_pnl_dollars`, which gives up at a fill without a value. -/
def fillsPnlCents (valueCentsOfFill : FillEvent F → Option F) : F → List (FillEvent F) → Option F
  | totalCents, [] => some totalCents
  | totalCents, fill :: rest =>
    match valueCentsOfFill fill with
    | none => none
    | some value =>
      fillsPnlCents valueCentsOfFill (totalCents + fill.qty * (value - (fill.price : F)) - fill.feeCents.getD 0) rest

def fillsPnlDollars (tickerFills : List (FillEvent F)) (valueCentsOfFill : FillEvent F → Option F) : Option F :=
  (fillsPnlCents valueCentsOfFill 0 tickerFills).map fun totalCents => totalCents / ((100 : Int) : F)

def FillEvent.signed (fill : FillEvent F) : F := if fill.side = .yes then fill.qty else -fill.qty

def carriedContracts (tickerFills : List (FillEvent F)) : F :=
  tickerFills.foldl (fun sum fill => sum + fill.signed) 0

/-- The columns `truth_$` and `carried` of a settled market. -/
def truth (log : List (LogEvent F)) (ticker : Ticker) (result : Side) : Option F :=
  fillsPnlDollars (loadFills log ticker) fun fill => some (settleNativeCents result fill.side)

def carried (log : List (LogEvent F)) (ticker : Ticker) : F := carriedContracts (loadFills log ticker)

end SettlementJoin
end Kalshi
