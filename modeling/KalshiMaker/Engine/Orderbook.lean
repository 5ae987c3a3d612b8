import KalshiMaker.Core.Types

/-! The local mirror of one market's order book. Both sides are kept in descending price. -/
namespace Kalshi

structure LocalOrderbook where
  state : Orderbook := { ticker := "" }
  deriving DecidableEq, Repr

namespace LocalOrderbook

variable {F : Type} [Floating F]

def byPriceDescending (left right : Level) : Prop := right.priceCents ≤ left.priceCents

instance : DecidableRel byPriceDescending :=
  fun left right => inferInstanceAs (Decidable (right.priceCents ≤ left.priceCents))

def applySnapshot (snap : Orderbook) : LocalOrderbook :=
  ⟨{ snap with
      yes := snap.yes.insertionSort byPriceDescending
      no := snap.no.insertionSort byPriceDescending }⟩

/-- The levels in front of `std::lower_bound` for a price, on a descending side. -/
def above (priceCents : Int) (level : Level) : Bool := decide (priceCents < level.priceCents)

/-- One side after a signed increment at a price: `find_level`, then either the level
found is changed or erased, or a positive increment is put at `insertion_point`. -/
def shiftLevel (levels : List Level) (priceCents : Int) (delta : Quantity) : List Level :=
  let front := levels.takeWhile (above priceCents)
  match levels.dropWhile (above priceCents) with
  | existing :: rest =>
    if existing.priceCents = priceCents then
      let quantity := existing.quantity + delta
      if quantity ≤ {} then front ++ rest else front ++ { existing with quantity } :: rest
    else if delta.isPositive then front ++ ⟨priceCents, delta⟩ :: existing :: rest
    else levels
  | [] => if delta.isPositive then front ++ [⟨priceCents, delta⟩] else levels

def levels (book : LocalOrderbook) : Side → List Level
  | .yes => book.state.yes
  | .no => book.state.no

def applyDelta (book : LocalOrderbook) (side : Side) (priceCents : Int) (delta : Quantity) :
    LocalOrderbook :=
  match side with
  | .yes => ⟨{ book.state with yes := shiftLevel book.state.yes priceCents delta }⟩
  | .no => ⟨{ book.state with no := shiftLevel book.state.no priceCents delta }⟩

def bestBid (book : LocalOrderbook) : Option Level := book.state.yes.head?

def bestAsk (book : LocalOrderbook) : Option Level :=
  book.state.no.head?.map fun bestNo => ⟨complementPrice bestNo.priceCents, bestNo.quantity⟩

def midPriceCents (book : LocalOrderbook) : F :=
  match book.bestBid, book.bestAsk with
  | some bid, some ask => ((bid.priceCents : F) + (ask.priceCents : F)) / ((2 : Int) : F)
  | _, _ => 0

def microPriceCents (book : LocalOrderbook) : F :=
  match book.bestBid, book.bestAsk with
  | some bid, some ask =>
    let bidQty : F := bid.quantity.contracts
    let askQty : F := ask.quantity.contracts
    let totalQty := bidQty + askQty
    if totalQty ≤ 0 then book.midPriceCents
    else ((bid.priceCents : F) * askQty + (ask.priceCents : F) * bidQty) / totalQty
  | _, _ => 0

end LocalOrderbook

end Kalshi
