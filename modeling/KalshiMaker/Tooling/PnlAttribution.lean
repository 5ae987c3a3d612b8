import Mathlib.Data.List.Sort
import KalshiMaker.Core.Types
import KalshiMaker.Lib.LowerBound

/-! `pnl_attribution.py`: why the session made or lost money, read off its analytics log. -/
namespace Kalshi
namespace PnlAttribution

structure QuoteEvent (F : Type) where
  tsMs : Int
  mid : F
  fv : F
  deriving DecidableEq

structure FillEvent (F : Type) where
  ticker : Ticker
  tsMs : Int
  side : Side
  price : Int
  qty : F
  isTaker : Bool
  mid : Option F
  deriving DecidableEq

inductive LogEvent (F : Type) where
  | quote (ticker : Ticker) (event : QuoteEvent F)
  | fill (event : FillEvent F)
  | other

variable {F : Type} [Floating F]

def kPickoffWindowMs : Int := 5000

def pickoffDriftCents : F := ((1 : Int) : F)

def native (priceYes : F) : Side → F
  | .yes => priceYes
  | .no => ((100 : Int) : F) - priceYes

/-- The order of the tuples `(ts_ms, mid, fv)`. -/
def QuoteEvent.before (quote other : QuoteEvent F) : Bool :=
  if quote.tsMs ≠ other.tsMs then decide (quote.tsMs < other.tsMs)
  else if !(quote.mid == other.mid) then decide (quote.mid < other.mid)
  else if !(quote.fv == other.fv) then decide (quote.fv < other.fv)
  else false

def LogEvent.quoteOf (ticker : Ticker) : LogEvent F → Option (QuoteEvent F)
  | .quote named event => if named = ticker then some event else none
  | _ => none

def LogEvent.asFill : LogEvent F → Option (FillEvent F)
  | .fill event => some event
  | _ => none

variable (log : List (LogEvent F))

def quotesOf (ticker : Ticker) : List (QuoteEvent F) :=
  (log.filterMap (LogEvent.quoteOf ticker)).insertionSort fun quote other => !other.before quote

/-- The fills in the order they are processed in: by time, and as logged within a millisecond. -/
def fills : List (FillEvent F) :=
  (log.filterMap LogEvent.asFill).insertionSort fun fill other => fill.tsMs ≤ other.tsMs

/-- The last quote of a ticker up to some time. -/
def quoteAt (ticker : Ticker) (ts : Int) : Option (QuoteEvent F) :=
  match LowerBound.lowerBound (fun quote => decide (quote.tsMs ≤ ts)) (quotesOf log ticker) with
  | 0 => none
  | position + 1 => (quotesOf log ticker)[position]?

/-- The mid a fill is measured against: its own, or else the quote's. -/
def midAt (fill : FillEvent F) : Option F :=
  match fill.mid with
  | some mid => if mid == 0 then (quoteAt log fill.ticker fill.tsMs).map QuoteEvent.mid else some mid
  | none => (quoteAt log fill.ticker fill.tsMs).map QuoteEvent.mid

def predrift (fill : FillEvent F) : Option F :=
  match quoteAt log fill.ticker (fill.tsMs - kPickoffWindowMs), quoteAt log fill.ticker fill.tsMs with
  | some before, some nowQ => some (native nowQ.fv fill.side - native before.fv fill.side)
  | _, _ => none

structure Totals (F : Type) [Floating F] where
  entryEdge : F := 0
  drift : F := 0
  exitCost : F := 0

def Totals.total (totals : Totals F) : F := totals.entryEdge + totals.drift + totals.exitCost

structure Row (F : Type) where
  edge : Option F
  predrift : Option F
  pickedOff : Bool

structure Attribution (F : Type) [Floating F] where
  totals : Totals F := {}
  pickoffs : Nat := 0
  /-- Signed contracts of the Yes side. -/
  inventory : Ticker → F := fun _ => 0
  entryMid : Ticker → Option F := fun _ => none
  rows : List (Row F) := []

def FillEvent.signed (fill : FillEvent F) : F :=
  match fill.side with
  | .yes => fill.qty
  | .no => -fill.qty

/-- Edge against the mid, where there is one. -/
def edge (fill : FillEvent F) : Option F :=
  match midAt log fill with
  | some mid => if mid == 0 then none else some (native mid fill.side - (fill.price : F))
  | none => none

def Totals.addEdge (totals : Totals F) (fill : FillEvent F) : Option F → Totals F
  | none => totals
  | some edge =>
    let amount := edge * fill.qty / ((100 : Int) : F)
    if fill.isTaker then { totals with exitCost := totals.exitCost + amount }
    else { totals with entryEdge := totals.entryEdge + amount }

/-- Drift while holding: the inventory so far is settled at the new mid. -/
def Totals.addDrift (totals : Totals F) (inventory : F) (entryMid mid : Option F) : Totals F :=
  match mid, entryMid with
  | some mid, some entered =>
    if !(inventory == 0) then { totals with drift := totals.drift + inventory * (mid - entered) / ((100 : Int) : F) }
    else totals
  | _, _ => totals

def attributeFill (state : Attribution F) (fill : FillEvent F) : Attribution F :=
  let mid := midAt log fill
  let drifted := predrift log fill
  let pickedOff := drifted.any fun drift => decide (drift < -pickoffDriftCents)
  { totals := (state.totals.addEdge fill (edge log fill)).addDrift (state.inventory fill.ticker)
      (state.entryMid fill.ticker) mid
    pickoffs := if pickedOff then state.pickoffs + 1 else state.pickoffs
    inventory := Function.update state.inventory fill.ticker (state.inventory fill.ticker + fill.signed)
    entryMid := if mid.isSome then Function.update state.entryMid fill.ticker mid else state.entryMid
    rows := state.rows ++ [{ edge := edge log fill, predrift := drifted, pickedOff := pickedOff }] }

def attribution : Attribution F := (fills log).foldl (attributeFill log) {}

end PnlAttribution
end Kalshi
