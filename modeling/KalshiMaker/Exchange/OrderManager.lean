import KalshiMaker.Core.Types
import KalshiMaker.Lib.Fifo
import Mathlib.Data.List.AList
import Mathlib.Logic.Function.Basic

/-! The order registry and the fill accounting of the order manager. Its requests to the exchange
are in `KalshiMaker.Engine.Desk`. -/
namespace Kalshi

abbrev OrderMap := AList fun _ : OrderId => Order

def kContractMaxCents : Int := 100

structure Lot where
  priceCents : Int
  remaining : Quantity
  deriving DecidableEq, Repr

instance : Fifo.Divisible Lot Int where
  amount lot := lot.remaining.centi
  resize lot k := { lot with remaining := ⟨k⟩ }
  amount_resize _ _ := rfl
  resize_amount _ := rfl
  resize_resize _ _ _ := rfl

structure ExposureDecomposition (F : Type) where
  spreadCaptureCents : F
  netInventory : Quantity
  eWinCents : F
  eLossCents : F
  deriving DecidableEq

/-- A map read only through a default is a total function here. `lots .yes` is `yes_lots_`. -/
structure OrderManager (F : Type) where
  openOrders : OrderMap := ∅
  netPosition : Ticker → Quantity := fun _ => {}
  realizedSpread : Ticker → F
  feesPaid : Ticker → F
  lots : Side → Ticker → List Lot := fun _ _ => []
  seenFills : List String := []

variable {F : Type} [Floating F]

namespace OrderManager

def empty : OrderManager F := { realizedSpread := fun _ => 0, feesPaid := fun _ => 0 }

def fillKey (fill : Fill F) : String :=
  if fill.tradeId ≠ "" then fill.tradeId else fill.orderId ++ "@" ++ toString fill.timestamp

/-- The two `ensure`s at the head of `record_fill`. -/
def checkFill (fill : Fill F) : Except String Unit :=
  if ¬ isValidPrice fill.priceCents then .error "fill price outside [1,99]"
  else if ¬ fill.quantity.isPositive then .error "fill quantity must be positive"
  else .ok ()

/-- The matching loop: what is left of the incoming quantity, the spread with what each match
adds, and the opposing lots. A front lot only survives a match that used the quantity up, so
the loop ends there. -/
def matchLots (priceCents : Int) : Quantity → F → List Lot → Quantity × F × List Lot
  | remaining, spread, [] => (remaining, spread, [])
  | remaining, spread, front :: rest =>
    if remaining.isPositive then
      let matched := Quantity.min remaining front.remaining
      let spread :=
        spread + ((kContractMaxCents - priceCents - front.priceCents : Int) : F) * matched.contracts
      let left := front.remaining - matched
      if left.isZero then matchLots priceCents (remaining - matched) spread rest
      else (remaining - matched, spread, { front with remaining := left } :: rest)
    else (remaining, spread, front :: rest)

/-- The filled order leaves the registry when nothing of it remains. -/
def fillOrder (orders : OrderMap) (fill : Fill F) : OrderMap :=
  match orders.lookup fill.orderId with
  | none => orders
  | some order =>
    let filledQuantity := order.filledQuantity + fill.quantity
    if order.quantity ≤ filledQuantity then orders.erase fill.orderId
    else orders.insert fill.orderId { order with filledQuantity, status := .partiallyFilled }

/-- A new fill. -/
def bookFill (om : OrderManager F) (fill : Fill F) : OrderManager F :=
  let ticker := fill.marketTicker
  let matching := matchLots fill.priceCents fill.quantity (om.realizedSpread ticker)
    (om.lots fill.side.opposite ticker)
  let opposing := matching.2.2
  let same := om.lots fill.side ticker ++
    (if matching.1.isPositive then [⟨fill.priceCents, matching.1⟩] else [])
  let signed := if fill.side = .yes then fill.quantity else -fill.quantity
  { openOrders := fillOrder om.openOrders fill
    netPosition := Function.update om.netPosition ticker (om.netPosition ticker + signed)
    realizedSpread := Function.update om.realizedSpread ticker matching.2.1
    feesPaid := Function.update om.feesPaid ticker (om.feesPaid ticker + fill.feeCents)
    lots := fun side other =>
      if other = ticker then if side = fill.side then same else opposing else om.lots side other
    seenFills := fillKey fill :: om.seenFills }

/-- What recording a fill that passes its checks comes to: whether it was new, and the state
after it. -/
def recorded (om : OrderManager F) (fill : Fill F) : Bool × OrderManager F :=
  if fillKey fill ∈ om.seenFills then (false, om) else (true, om.bookFill fill)

def realizedPnl (om : OrderManager F) (ticker : Ticker) : F :=
  om.realizedSpread ticker - om.feesPaid ticker

def markLots (mark : Int) (lots : List Lot) (unrealized : F) : F :=
  lots.foldl (fun sum lot => sum + ((mark - lot.priceCents : Int) : F) * lot.remaining.contracts)
    unrealized

def unrealizedPnl (om : OrderManager F) (ticker : Ticker) (yesMidCents : Int) : F :=
  markLots (kContractMaxCents - yesMidCents) (om.lots .no ticker)
    (markLots yesMidCents (om.lots .yes ticker) 0)

def costLots (lots : List Lot) (cost : F) : F :=
  lots.foldl (fun sum lot => sum + (lot.priceCents : F) * lot.remaining.contracts) cost

def positionCost (om : OrderManager F) (ticker : Ticker) : F :=
  costLots (om.lots .no ticker) (costLots (om.lots .yes ticker) 0)

def sumQuantity (lots : List Lot) : Quantity :=
  lots.foldl (fun sum lot => sum + lot.remaining) {}

def exposureDecomposition (om : OrderManager F) (ticker : Ticker) : ExposureDecomposition F :=
  let yesQty := sumQuantity (om.lots .yes ticker)
  let noQty := sumQuantity (om.lots .no ticker)
  let heldQty := if noQty ≤ yesQty then yesQty else noQty
  let heldCost : F :=
    if noQty ≤ yesQty then costLots (om.lots .yes ticker) 0 else costLots (om.lots .no ticker) 0
  { spreadCaptureCents := om.realizedSpread ticker
    netInventory := yesQty - noQty
    eWinCents := heldQty.contracts * (kContractMaxCents : F) - heldCost
    eLossCents := -heldCost }

def isOpenOn (om : OrderManager F) (ticker : Ticker) (id : OrderId) : Bool :=
  (om.openOrders.lookup id).any fun order => order.marketTicker == ticker

/-- Ids of the open orders on a market. -/
def openOn (om : OrderManager F) (ticker : Ticker) : List OrderId :=
  om.openOrders.keys.filter (om.isOpenOn ticker)

/-- The registry after an accepted amend. -/
def amended (om : OrderManager F) (orderId newId : OrderId) (newPriceCents : Int) : OrderManager F :=
  match om.openOrders.lookup orderId with
  | none => om
  | some order =>
    { om with
      openOrders := (om.openOrders.erase orderId).insert newId
        { order with id := newId, priceCents := newPriceCents } }

def cancelled (om : OrderManager F) (orderId : OrderId) : OrderManager F :=
  { om with openOrders := om.openOrders.erase orderId }

def placed (om : OrderManager F) (order : Order) : OrderManager F :=
  { om with openOrders := om.openOrders.insert order.id order }

omit [Floating F] in
theorem checkFill_eq_ok_iff (fill : Fill F) : checkFill fill = .ok () ↔
    isValidPrice fill.priceCents = true ∧ fill.quantity.isPositive = true := by
  unfold checkFill
  cases isValidPrice fill.priceCents <;> cases fill.quantity.isPositive <;> simp

omit [Floating F] in
theorem isOpenOn_iff (om : OrderManager F) (ticker : Ticker) (id : OrderId) :
    om.isOpenOn ticker id = true ↔ ∃ order, om.openOrders.lookup id = some order ∧
      order.marketTicker = ticker := by
  simp only [isOpenOn, Option.any_eq_true, beq_iff_eq]

omit [Floating F] in
theorem mem_openOn (om : OrderManager F) (ticker : Ticker) (id : OrderId) :
    id ∈ om.openOn ticker ↔ ∃ order, om.openOrders.lookup id = some order ∧
      order.marketTicker = ticker := by
  rw [openOn, List.mem_filter, isOpenOn_iff, and_iff_right_iff_imp]
  rintro ⟨order, found, _⟩
  exact AList.mem_keys.mp (AList.lookup_isSome.mp (by simp [found]))

omit [Floating F] in
theorem placed_lookup (om : OrderManager F) (order : Order) (id : OrderId) :
    (om.placed order).openOrders.lookup id =
      if id = order.id then some order else om.openOrders.lookup id := by
  unfold placed
  split
  next same => rw [same, AList.lookup_insert]
  next other => exact AList.lookup_insert_ne other

omit [Floating F] in
theorem cancelled_lookup (om : OrderManager F) (orderId id : OrderId) :
    (om.cancelled orderId).openOrders.lookup id =
      if id = orderId then none else om.openOrders.lookup id := by
  unfold cancelled
  split
  next same => rw [same, AList.lookup_erase]
  next other => exact AList.lookup_erase_ne other

omit [Floating F] in
/-- An amend of an open order moves it to its new id. -/
theorem amended_lookup {om : OrderManager F} {orderId newId : OrderId} {price : Int} {order : Order}
    (found : om.openOrders.lookup orderId = some order) (id : OrderId) :
    (om.amended orderId newId price).openOrders.lookup id =
      if id = newId then some { order with id := newId, priceCents := price }
      else if id = orderId then none else om.openOrders.lookup id := by
  unfold amended
  rw [found]
  dsimp only
  split
  next same => rw [same, AList.lookup_insert]
  next other =>
    rw [AList.lookup_insert_ne other]
    split
    next same => rw [same, AList.lookup_erase]
    next older => exact AList.lookup_erase_ne older

omit [Floating F] in
/-- An amend of an order that is not tracked changes nothing here. -/
theorem amended_untracked {om : OrderManager F} {orderId newId : OrderId} {price : Int}
    (untracked : om.openOrders.lookup orderId = none) : om.amended orderId newId price = om := by
  unfold amended
  rw [untracked]

omit [Floating F] in
/-- An amend touches the registry only. -/
theorem amended_books (om : OrderManager F) (orderId newId : OrderId) (price : Int) :
    ∃ openOrders, om.amended orderId newId price = { om with openOrders } := by
  unfold amended
  split <;> exact ⟨_, rfl⟩

omit [Floating F] in
theorem amended_netPosition (om : OrderManager F) (orderId newId : OrderId) (price : Int) :
    (om.amended orderId newId price).netPosition = om.netPosition := by
  obtain ⟨openOrders, books⟩ := om.amended_books orderId newId price
  rw [books]

/-- The net position after a fill. -/
theorem bookFill_netPosition (om : OrderManager F) (fill : Fill F) (ticker : Ticker) :
    ((om.bookFill fill).netPosition ticker).centi = (om.netPosition ticker).centi +
      if ticker = fill.marketTicker then fill.side.toward fill.quantity.centi else 0 := by
  unfold bookFill
  by_cases here : ticker = fill.marketTicker
  · subst here
    simp only [Function.update_self, ↓reduceIte, Quantity.add_centi]
    cases fill.side <;> simp [Side.toward]
  · simp [here]

@[simp] theorem bookFill_seenFills (om : OrderManager F) (fill : Fill F) :
    (om.bookFill fill).seenFills = fillKey fill :: om.seenFills := rfl

omit [Floating F] in
/-- Where an id is found after a fill: there before, under the same ticker, side and price. -/
theorem fillOrder_lookup {orders : OrderMap} {fill : Fill F} {id : OrderId} {order : Order}
    (found : (fillOrder orders fill).lookup id = some order) :
    ∃ before, orders.lookup id = some before ∧ order.marketTicker = before.marketTicker ∧
      order.side = before.side ∧ order.priceCents = before.priceCents ∧ order.id = before.id := by
  unfold fillOrder at found
  cases h : orders.lookup fill.orderId with
  | none =>
    rw [h] at found
    exact ⟨order, found, rfl, rfl, rfl, rfl⟩
  | some before =>
    simp only [h] at found
    split at found
    · by_cases same : id = fill.orderId
      · subst same
        rw [AList.lookup_erase] at found
        cases found
      · exact ⟨order, by rwa [AList.lookup_erase_ne same] at found, rfl, rfl, rfl, rfl⟩
    · by_cases same : id = fill.orderId
      · subst same
        rw [AList.lookup_insert] at found
        cases found
        exact ⟨before, h, rfl, rfl, rfl, rfl⟩
      · exact ⟨order, by rwa [AList.lookup_insert_ne same] at found, rfl, rfl, rfl, rfl⟩

omit [Floating F] in
theorem fillOrder_lookup_self {orders : OrderMap} {fill : Fill F} {order : Order}
    (found : orders.lookup fill.orderId = some order) :
    (fillOrder orders fill).lookup fill.orderId =
      if order.quantity ≤ order.filledQuantity + fill.quantity then none
      else some { order with filledQuantity := order.filledQuantity + fill.quantity, status := .partiallyFilled } := by
  unfold fillOrder
  rw [found]
  dsimp only
  split
  · exact AList.lookup_erase _ _
  · exact AList.lookup_insert _

omit [Floating F] in
/-- A fill leaves every order but its own as it was. -/
theorem fillOrder_lookup_ne (orders : OrderMap) (fill : Fill F) {id : OrderId} (other : id ≠ fill.orderId) :
    (fillOrder orders fill).lookup id = orders.lookup id := by
  unfold fillOrder
  cases orders.lookup fill.orderId with
  | none => rfl
  | some before =>
    dsimp only
    split
    · exact AList.lookup_erase_ne other
    · exact AList.lookup_insert_ne other

omit [Floating F] in
/-- An order that stays open after a fill has something left to fill. -/
theorem fillOrder_left {orders : OrderMap} {fill : Fill F} {id : OrderId} {order : Order}
    (left : ∀ id order, orders.lookup id = some order → 0 < order.remainingQuantity.centi)
    (found : (fillOrder orders fill).lookup id = some order) : 0 < order.remainingQuantity.centi := by
  by_cases own : id = fill.orderId
  · subst own
    cases before : orders.lookup fill.orderId with
    | none =>
      have untouched : fillOrder orders fill = orders := by
        unfold fillOrder
        rw [before]
      rw [untouched] at found
      exact left _ order found
    | some other =>
      rw [fillOrder_lookup_self before] at found
      split at found
      · cases found
      next short =>
        cases found
        rw [Quantity.le_iff] at short
        simp only [Order.remainingQuantity, Quantity.sub_centi, Quantity.add_centi] at short ⊢
        omega
  · rw [fillOrder_lookup_ne _ _ own] at found
    exact left id order found

end OrderManager

end Kalshi
