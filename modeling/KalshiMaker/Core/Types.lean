import KalshiMaker.Core.Floating
import Mathlib.Data.List.Sort

/-! Quantities, orders, fills and prices. Machine integers are unbounded here. -/
namespace Kalshi

abbrev Ticker := String

abbrev OrderId := String

/-- A clock reading, in nanoseconds since the clock's epoch. -/
abbrev TimePoint := Int

def nanosPerSecond : Int := 1000000000

def nanosPerMilli : Int := 1000000

/-- A contract count as a whole number of centi-contracts. -/
structure Quantity where
  centi : Int := 0
  deriving DecidableEq, Repr

namespace Quantity

def kCentiPerContract : Int := 100

def fromContracts (contracts : Int) : Quantity := ⟨contracts * kCentiPerContract⟩

def isZero (q : Quantity) : Bool := q.centi == 0

def isPositive (q : Quantity) : Bool := decide (0 < q.centi)

instance : Neg Quantity := ⟨fun q => ⟨-q.centi⟩⟩

instance : Add Quantity := ⟨fun p q => ⟨p.centi + q.centi⟩⟩

instance : Sub Quantity := ⟨fun p q => ⟨p.centi - q.centi⟩⟩

instance : LT Quantity := ⟨fun p q => p.centi < q.centi⟩

instance : LE Quantity := ⟨fun p q => p.centi ≤ q.centi⟩

instance : DecidableLT Quantity := fun p q => inferInstanceAs (Decidable (p.centi < q.centi))

instance : DecidableLE Quantity := fun p q => inferInstanceAs (Decidable (p.centi ≤ q.centi))

def abs (q : Quantity) : Quantity := if q.isPositive || q.isZero then q else -q

def min (lhs rhs : Quantity) : Quantity := if lhs < rhs then lhs else rhs

@[simp] theorem neg_centi (q : Quantity) : (-q).centi = -q.centi := rfl

@[simp] theorem add_centi (p q : Quantity) : (p + q).centi = p.centi + q.centi := rfl

@[simp] theorem sub_centi (p q : Quantity) : (p - q).centi = p.centi - q.centi := rfl

theorem lt_iff (p q : Quantity) : p < q ↔ p.centi < q.centi := Iff.rfl

theorem le_iff (p q : Quantity) : p ≤ q ↔ p.centi ≤ q.centi := Iff.rfl

@[simp] theorem fromContracts_centi (n : Int) : (fromContracts n).centi = n * 100 := rfl

@[simp] theorem isPositive_iff (q : Quantity) : q.isPositive = true ↔ 0 < q.centi := by
  simp [isPositive]

@[simp] theorem isZero_iff (q : Quantity) : q.isZero = true ↔ q.centi = 0 := by
  simp [isZero]

theorem ext_centi {p q : Quantity} (same : p.centi = q.centi) : p = q := by
  cases p; cases q; simpa using same

@[simp] theorem min_centi (p q : Quantity) :
    (min p q).centi = Min.min p.centi q.centi := by
  unfold min
  simp only [lt_iff]
  split <;> omega

@[simp] theorem abs_centi (q : Quantity) : q.abs.centi = |q.centi| := by
  unfold abs
  simp only [Bool.or_eq_true, isPositive_iff, isZero_iff]
  split
  next forward => exact (abs_of_nonneg (by omega)).symm
  next backward => exact (abs_of_nonpos (by omega)).symm

variable {F : Type} [Floating F]

def contracts (q : Quantity) : F := (q.centi : F) / ((kCentiPerContract : Int) : F)

/-- Two digits of a number below 100: `{:02d}`. -/
def twoDigits (n : Nat) : String := if n < 10 then "0" ++ toString n else toString n

def toFpString (q : Quantity) : String :=
  let sign := if q.centi < 0 then "-" else ""
  let magnitude := q.centi.natAbs
  sign ++ toString (magnitude / 100) ++ "." ++ twoDigits (magnitude % 100)

variable (F) in
/-- `none` where `std::stod` throws. -/
def fromFpString (fixedPoint : String) : Option Quantity :=
  (Floating.stod fixedPoint : Option F).map fun value =>
    ⟨Floating.round (value * ((kCentiPerContract : Int) : F))⟩

end Quantity

inductive Side where
  | yes
  | no
  deriving DecidableEq, Repr

def Side.opposite : Side → Side
  | .yes => .no
  | .no => .yes

@[simp] theorem Side.opposite_opposite (side : Side) : side.opposite.opposite = side := by
  cases side <;> rfl

theorem Side.eq_opposite_of_ne {side other : Side} (different : side ≠ other) : side = other.opposite := by
  cases side <;> cases other <;> first | rfl | exact absurd rfl different

/-- A quantity as seen from a side: positive where fills of that side take it further. -/
def Side.toward : Side → Int → Int
  | .yes, n => n
  | .no, n => -n

inductive OrderStatus where
  | open
  | partiallyFilled
  | filled
  | cancelled
  deriving DecidableEq, Repr

inductive OrderType where
  | limit
  | market
  deriving DecidableEq, Repr

structure Level where
  priceCents : Int
  quantity : Quantity
  deriving DecidableEq, Repr

structure Orderbook where
  ticker : Ticker
  yes : List Level := []
  no : List Level := []
  deriving DecidableEq, Repr

structure Order where
  id : OrderId
  marketTicker : Ticker
  side : Side
  priceCents : Int
  quantity : Quantity
  filledQuantity : Quantity := {}
  status : OrderStatus := .open
  type : OrderType := .limit
  createdAt : TimePoint := 0
  averageFillPriceCents : Int := 0
  deriving DecidableEq, Repr

def Order.remainingQuantity (order : Order) : Quantity := order.quantity - order.filledQuantity

def Order.isActive (order : Order) : Bool :=
  order.status == .open || order.status == .partiallyFilled

structure Fill (F : Type) where
  tradeId : String
  orderId : OrderId
  marketTicker : Ticker
  side : Side
  priceCents : Int
  quantity : Quantity
  feeCents : F
  isTaker : Bool
  timestamp : TimePoint
  deriving DecidableEq

structure PublicTrade where
  tradeId : String
  marketTicker : Ticker
  yesPriceCents : Int
  quantity : Quantity
  takerSide : Side
  timestamp : TimePoint
  deriving DecidableEq, Repr

def kMinPriceCents : Int := 1

def kMaxPriceCents : Int := 99

def kPriceBasis : Int := 100

def isValidPrice (priceCents : Int) : Bool :=
  decide (kMinPriceCents ≤ priceCents) && decide (priceCents ≤ kMaxPriceCents)

def complementPrice (priceCents : Int) : Int := kPriceBasis - priceCents

@[simp] theorem isValidPrice_iff (price : Int) :
    isValidPrice price = true ↔ 1 ≤ price ∧ price ≤ 99 := by
  simp only [isValidPrice, Bool.and_eq_true, decide_eq_true_eq]
  exact Iff.rfl

@[simp] theorem complementPrice_complementPrice (price : Int) :
    complementPrice (complementPrice price) = price := by
  simp [complementPrice]

end Kalshi
