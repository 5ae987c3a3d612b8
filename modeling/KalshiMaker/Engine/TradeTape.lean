import KalshiMaker.Core.Types

/-! Rolling window of public prints per market and the decayed average price over it. -/
namespace Kalshi

structure TradeTapeConfig (F : Type) [Floating F] where
  windowSeconds : Int := 300
  ownFillWeight : F := 0

structure TradeTape (F : Type) [Floating F] where
  config : TradeTapeConfig F := {}
  printsByTicker : Ticker → List PublicTrade := fun _ => []
  ownTradeIds : List String := []

namespace TradeTape

variable {F : Type} [Floating F]

def cutoff (tape : TradeTape F) (now : TimePoint) : TimePoint :=
  now - tape.config.windowSeconds * nanosPerSecond

def recordTrade (tape : TradeTape F) (trade : PublicTrade) : TradeTape F :=
  let prints := tape.printsByTicker trade.marketTicker ++ [trade]
  { tape with
    printsByTicker := fun other =>
      if other = trade.marketTicker then
        prints.dropWhile fun print => decide (print.timestamp < tape.cutoff trade.timestamp)
      else tape.printsByTicker other }

def recordOwnFill (tape : TradeTape F) (tradeId : String) : TradeTape F :=
  if tradeId = "" then tape else { tape with ownTradeIds := tradeId :: tape.ownTradeIds }

def isInWindow (tape : TradeTape F) (print : PublicTrade) (now : TimePoint) : Bool :=
  decide (tape.cutoff now ≤ print.timestamp) && decide (print.timestamp ≤ now)

def weight (tape : TradeTape F) (print : PublicTrade) (halfLifeSeconds : Int) (now : TimePoint) : F :=
  let ageSeconds : F := ((now - print.timestamp : Int) : F) / ((nanosPerSecond : Int) : F)
  let weight := print.quantity.contracts * Floating.exp2 (-(ageSeconds / (halfLifeSeconds : F)))
  if print.tradeId ∈ tape.ownTradeIds then weight * tape.config.ownFillWeight else weight

def vwapCents (tape : TradeTape F) (ticker : Ticker) (halfLifeSeconds : Int) (now : TimePoint) :
    Option F :=
  let prints := (tape.printsByTicker ticker).filter fun print => tape.isInWindow print now
  let weightedPriceSum := prints.foldl
    (fun sum print => sum + tape.weight print halfLifeSeconds now * (print.yesPriceCents : F)) 0
  let weightSum := prints.foldl (fun sum print => sum + tape.weight print halfLifeSeconds now) 0
  if weightSum ≤ 0 then none else some (weightedPriceSum / weightSum)

def isCountable (tape : TradeTape F) (print : PublicTrade) (now : TimePoint) : Bool :=
  tape.isInWindow print now && !decide (print.tradeId ∈ tape.ownTradeIds)

def printCount (tape : TradeTape F) (ticker : Ticker) (now : TimePoint) : Int :=
  (tape.printsByTicker ticker).foldl (fun count print => if tape.isCountable print now then count + 1 else count) 0

/-- What takers bought in the window, on each side. -/
def takerVolumes (tape : TradeTape F) (ticker : Ticker) (now : TimePoint) : F × F :=
  let prints := (tape.printsByTicker ticker).filter fun print => tape.isCountable print now
  prints.foldl
    (fun (volumes : F × F) print =>
      if print.takerSide = .yes then (volumes.1 + print.quantity.contracts, volumes.2)
      else (volumes.1, volumes.2 + print.quantity.contracts))
    (0, 0)

def minoritySideRatio (tape : TradeTape F) (ticker : Ticker) (now : TimePoint) : Option F :=
  let volumes := tape.takerVolumes ticker now
  let totalVolume := volumes.1 + volumes.2
  if totalVolume ≤ 0 then none else some (Floating.min volumes.1 volumes.2 / totalVolume)

end TradeTape

end Kalshi
