import KalshiMaker.Engine.Orderbook

/-! The clearing price of a book: every level counts, less the farther it is from the mid. -/
namespace Kalshi

/-- `std::pow`, left open where the rest of the arithmetic is exact. -/
class Power (F : Type) where
  pow : F → F → F

/-- First order in the base at 1: a stand-in for closed runs with flat weights. -/
instance (priority := low) : Power ℚ where
  pow base exponent := 1 + exponent * (base - 1)

variable {F : Type} [Floating F]

structure DepthWeighting (F : Type) [Floating F] where
  decayPerCent : F := ((1 : Int) : F)
  /-- 0 takes all levels. -/
  maxLevels : Int := 0

/-- The levels in front of the loop's break. -/
def DepthWeighting.used (weighting : DepthWeighting F) (levels : List Level) : List Level :=
  if 0 < weighting.maxLevels then levels.take weighting.maxLevels.toNat else levels

structure SideDepth (F : Type) [Floating F] where
  weightTotal : F := 0
  weightedPriceSum : F := 0

/-- The YES price of a level of a side. -/
def Level.yesPrice (side : Side) (level : Level) : Int :=
  match side with
  | .yes => level.priceCents
  | .no => complementPrice level.priceCents

namespace LocalOrderbook

variable [Power F]

def distanceCents (mid : F) (side : Side) (level : Level) : F :=
  match side with
  | .yes => mid - (level.yesPrice .yes : F)
  | .no => (level.yesPrice .no : F) - mid

def depthWeight (weighting : DepthWeighting F) (mid : F) (side : Side) (level : Level) : F :=
  level.quantity.contracts * Power.pow weighting.decayPerCent (distanceCents mid side level)

def accumulateSide (weighting : DepthWeighting F) (mid : F) (side : Side) (levels : List Level) : SideDepth F :=
  (weighting.used levels).foldl
    (fun depth level =>
      let weight := depthWeight weighting mid side level
      { weightTotal := depth.weightTotal + weight
        weightedPriceSum := depth.weightedPriceSum + weight * (level.yesPrice side : F) })
    {}

def clearingPriceCents (book : LocalOrderbook) (weighting : DepthWeighting F) : F :=
  if book.state.yes.isEmpty || book.state.no.isEmpty then book.microPriceCents
  else
    let mid : F := book.midPriceCents
    let bidDepth := accumulateSide weighting mid .yes book.state.yes
    let askDepth := accumulateSide weighting mid .no book.state.no
    if bidDepth.weightTotal ≤ 0 ∨ askDepth.weightTotal ≤ 0 then book.microPriceCents
    else
      let bidAvgPrice := bidDepth.weightedPriceSum / bidDepth.weightTotal
      let askAvgPrice := askDepth.weightedPriceSum / askDepth.weightTotal
      (bidAvgPrice * askDepth.weightTotal + askAvgPrice * bidDepth.weightTotal) /
        (bidDepth.weightTotal + askDepth.weightTotal)

end LocalOrderbook

end Kalshi
