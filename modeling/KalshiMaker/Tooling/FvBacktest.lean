import KalshiMaker.Engine.DepthPricing
import KalshiMaker.Engine.TradeTape

/-! The fair-value backtest: a grid of candidates, graded on each print against a later one. -/
namespace Kalshi

structure AnchorSpec (F : Type) [Floating F] where
  label : String
  useMicro : Bool := false
  weighting : DepthWeighting F := {}

structure FvBacktestConfig (F : Type) [Floating F] where
  anchors : List (AnchorSpec F)
  tapeWeights : List F
  tapeHalfLifeSeconds : List Int
  ownFillWeights : List F
  tapeWindowSeconds : Int := 600
  scoreHorizonSeconds : Int := 30

structure FvScore (F : Type) [Floating F] where
  candidate : String
  events : Nat := 0
  maeCents : F := 0
  biasCents : F := 0

/-- What the replay is fed, in the order recorded. -/
inductive BacktestEvent (F : Type) where
  | snapshot (snapshot : Orderbook)
  | delta (ticker : Ticker) (side : Side) (priceCents : Int) (delta : Quantity)
  | trade (trade : PublicTrade)
  | fill (fill : Fill F)

namespace FvBacktest

structure Accumulator (F : Type) [Floating F] where
  events : Nat := 0
  absErrorSum : F := 0
  signedErrorSum : F := 0

structure Candidate (F : Type) [Floating F] where
  name : String
  anchorIndex : Nat
  tapeWeight : F := 0
  /-- In seconds. -/
  halfLife : Int := 0
  tapeIndex : Nat := 0
  accumulator : Accumulator F := {}

structure PendingScore (F : Type) where
  deadline : TimePoint
  fairValues : List F

end FvBacktest

open FvBacktest

structure FvBacktest (F : Type) [Floating F] where
  config : FvBacktestConfig F
  candidates : List (Candidate F)
  tapes : List (TradeTape F)
  books : Ticker → Option LocalOrderbook := fun _ => none
  pendingByTicker : Ticker → List (PendingScore F) := fun _ => []

namespace FvBacktest

variable {F : Type} [Floating F]

def Accumulator.record (accumulator : Accumulator F) (errorCents : F) : Accumulator F where
  events := accumulator.events + 1
  absErrorSum := accumulator.absErrorSum + (if errorCents < 0 then -errorCents else errorCents)
  signedErrorSum := accumulator.signedErrorSum + errorCents

/-! ### The grid -/

/-- `shown` is the `{:g}` of `std::format`. -/
def blendName (shown : F → String) (label : String) (tapeWeight : F) (halfLife : Int) (ownWeight : F) : String :=
  label ++ "+tape(w=" ++ shown tapeWeight ++ ",h=" ++ toString halfLife ++ "s" ++
    (if 0 < ownWeight then ",own=" ++ shown ownWeight else "") ++ ")"

def buildCandidates (shown : F → String) (config : FvBacktestConfig F) : List (Candidate F) :=
  config.anchors.zipIdx.flatMap fun (anchor, anchorIndex) =>
    { name := anchor.label, anchorIndex } ::
      config.tapeWeights.flatMap fun tapeWeight =>
        if tapeWeight ≤ 0 then []
        else config.tapeHalfLifeSeconds.flatMap fun halfLife =>
          config.ownFillWeights.zipIdx.map fun (ownWeight, tapeIndex) =>
            { name := blendName shown anchor.label tapeWeight halfLife ownWeight
              anchorIndex
              tapeWeight
              halfLife
              tapeIndex }

def make (shown : F → String) (config : FvBacktestConfig F) : FvBacktest F where
  config
  candidates := buildCandidates shown config
  tapes := config.ownFillWeights.map fun ownFillWeight =>
    { config := { windowSeconds := config.tapeWindowSeconds, ownFillWeight } }

/-! ### The events -/

def onSnapshot (b : FvBacktest F) (snapshot : Orderbook) : FvBacktest F :=
  { b with books := Function.update b.books snapshot.ticker (some (LocalOrderbook.applySnapshot snapshot)) }

def onDelta (b : FvBacktest F) (ticker : Ticker) (side : Side) (priceCents : Int) (delta : Quantity) : FvBacktest F :=
  let book := (b.books ticker).getD {}
  { b with books := Function.update b.books ticker (some (book.applyDelta side priceCents delta)) }

def onFill (b : FvBacktest F) (fill : Fill F) : FvBacktest F :=
  { b with tapes := b.tapes.map fun tape => tape.recordOwnFill fill.tradeId }

/-- A due score adds its error to every candidate. -/
def settle (trade : PublicTrade) (candidates : List (Candidate F)) (due : PendingScore F) : List (Candidate F) :=
  candidates.zipWith
    (fun candidate fairValue =>
      { candidate with accumulator := candidate.accumulator.record (fairValue - (trade.yesPriceCents : F)) })
    due.fairValues

def isDue (trade : PublicTrade) (pending : PendingScore F) : Bool := decide (pending.deadline ≤ trade.timestamp)

def resolvePending (b : FvBacktest F) (trade : PublicTrade) : FvBacktest F :=
  let queue := b.pendingByTicker trade.marketTicker
  { b with
    candidates := (queue.takeWhile (isDue trade)).foldl (settle trade) b.candidates
    pendingByTicker := Function.update b.pendingByTicker trade.marketTicker (queue.dropWhile (isDue trade)) }

variable [Power F]

def fairValueOf (b : FvBacktest F) (candidate : Candidate F) (book : LocalOrderbook) (trade : PublicTrade) : F :=
  match b.config.anchors[candidate.anchorIndex]? with
  | none => 0
  | some anchor =>
    let anchorPrice :=
      if anchor.useMicro then book.microPriceCents else book.clearingPriceCents anchor.weighting
    if candidate.tapeWeight ≤ 0 then anchorPrice
    else
      match b.tapes[candidate.tapeIndex]? with
      | none => anchorPrice
      | some tape =>
        match tape.vwapCents trade.marketTicker candidate.halfLife trade.timestamp with
        | none => anchorPrice
        | some tapeVwap =>
          candidate.tapeWeight * tapeVwap + (((1 : Int) : F) - candidate.tapeWeight) * anchorPrice

def queueScores (b : FvBacktest F) (trade : PublicTrade) : FvBacktest F :=
  match b.books trade.marketTicker with
  | none => b
  | some book =>
    if book.bestBid.isNone || book.bestAsk.isNone then b
    else
      let pending : PendingScore F :=
        { deadline := trade.timestamp + b.config.scoreHorizonSeconds * nanosPerSecond
          fairValues := b.candidates.map fun candidate => b.fairValueOf candidate book trade }
      { b with
        pendingByTicker := Function.update b.pendingByTicker trade.marketTicker
          (b.pendingByTicker trade.marketTicker ++ [pending]) }

def onTrade (b : FvBacktest F) (trade : PublicTrade) : FvBacktest F :=
  let resolved := (b.queueScores trade).resolvePending trade
  { resolved with tapes := resolved.tapes.map fun tape => tape.recordTrade trade }

def step (b : FvBacktest F) : BacktestEvent F → FvBacktest F
  | .snapshot snapshot => b.onSnapshot snapshot
  | .delta ticker side priceCents delta => b.onDelta ticker side priceCents delta
  | .trade trade => b.onTrade trade
  | .fill fill => b.onFill fill

def run (b : FvBacktest F) (events : List (BacktestEvent F)) : FvBacktest F := events.foldl step b

omit [Power F] in
/-- Better scores first; equal ones keep their order. -/
def byMae (left right : FvScore F) : Prop := ¬ right.maeCents < left.maeCents

instance : DecidableRel (byMae (F := F)) :=
  fun left right => inferInstanceAs (Decidable (¬ right.maeCents < left.maeCents))

omit [Power F] in
def scores (b : FvBacktest F) : List (FvScore F) :=
  (b.candidates.map fun candidate =>
    let accumulator := candidate.accumulator
    if 0 < accumulator.events then
      { candidate := candidate.name
        events := accumulator.events
        maeCents := accumulator.absErrorSum / ((accumulator.events : Int) : F)
        biasCents := accumulator.signedErrorSum / ((accumulator.events : Int) : F) }
    else { candidate := candidate.name }).insertionSort byMae

end FvBacktest

end Kalshi
