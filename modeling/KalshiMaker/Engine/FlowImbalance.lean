import KalshiMaker.Core.Types

/-! Rolling window of our own fills per market, and the one-sided flow it shows. -/
namespace Kalshi

structure FlowImbalanceConfig (F : Type) [Floating F] where
  windowSeconds : Int := 300
  imbalanceRatioThreshold : F := ((2 : Int) : F)
  minFlowVolume : Int := 20

structure FlowEntry where
  time : TimePoint
  side : Side
  quantity : Quantity
  deriving DecidableEq, Repr

structure FlowImbalanceGuard (F : Type) [Floating F] where
  config : FlowImbalanceConfig F := {}
  fills : Ticker → List FlowEntry := fun _ => []

namespace FlowImbalanceGuard

variable {F : Type} [Floating F]

def cutoff (guard : FlowImbalanceGuard F) (now : TimePoint) : TimePoint :=
  now - guard.config.windowSeconds * nanosPerSecond

def recordFill (guard : FlowImbalanceGuard F) (ticker : Ticker) (side : Side) (quantity : Quantity)
    (time : TimePoint) : FlowImbalanceGuard F :=
  let entries := guard.fills ticker ++ [⟨time, side, quantity⟩]
  { guard with
    fills := fun other =>
      if other = ticker then entries.dropWhile fun entry => decide (entry.time < guard.cutoff time)
      else guard.fills other }

def windowedVolume (guard : FlowImbalanceGuard F) (ticker : Ticker) (now : TimePoint) (side : Side) :
    Quantity :=
  (guard.fills ticker).foldl
    (fun volume entry =>
      if entry.time < guard.cutoff now then volume
      else if entry.side = side then volume + entry.quantity else volume)
    {}

/-- The heavier side over the lighter, which counts for at least one contract. -/
def ratio (yesVolume noVolume : F) : F :=
  Floating.max yesVolume noVolume / Floating.max (Floating.min yesVolume noVolume) ((1 : Int) : F)

def imbalanceRatio (guard : FlowImbalanceGuard F) (ticker : Ticker) (now : TimePoint) : F :=
  let yesVolume : F := (guard.windowedVolume ticker now .yes).contracts
  let noVolume : F := (guard.windowedVolume ticker now .no).contracts
  if Floating.max yesVolume noVolume == 0 then ((1 : Int) : F) else ratio yesVolume noVolume

def isImbalanced (guard : FlowImbalanceGuard F) (ticker : Ticker) (now : TimePoint) : Bool :=
  let yesVolume := guard.windowedVolume ticker now .yes
  let noVolume := guard.windowedVolume ticker now .no
  if yesVolume + noVolume < Quantity.fromContracts guard.config.minFlowVolume then false
  else decide (guard.config.imbalanceRatioThreshold < ratio (yesVolume.contracts : F) noVolume.contracts)

/-- We recorded our side; the takers bought the other one. -/
def dominantTakerSide (guard : FlowImbalanceGuard F) (ticker : Ticker) (now : TimePoint) : Option Side :=
  if ¬ guard.isImbalanced ticker now then none
  else if guard.windowedVolume ticker now .no < guard.windowedVolume ticker now .yes then some .no
  else some .yes

end FlowImbalanceGuard

end Kalshi
