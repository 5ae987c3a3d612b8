import KalshiMaker.Exchange.WireFormat
import KalshiMaker.Lib.Keyed
import Mathlib.Data.List.DropRight
import Mathlib.Data.List.Infix

/-! The paper exchange: resting orders kept in memory behind the HTTP interface. -/
namespace Kalshi

open Effect

structure PaperTransport (F : Type) where
  openOrders : List Order := []
  fills : List (Fill F) := []
  nextId : Nat := 1

namespace PaperTransport

variable {F : Type}

def kPaperOrderTsMs : Int := 1735689600000

def paperId (n : Nat) : OrderId := "paper-" ++ toString n

def nextOrderId (paper : PaperTransport F) : OrderId := paperId paper.nextId

def statusName : OrderStatus → String
  | .open => "resting"
  | .partiallyFilled => "partially_filled"
  | .filled => "filled"
  | .cancelled => "canceled"

def orderToJson (order : Order) : Json :=
  .obj
    [("order_id", .str order.id),
     ("ticker", .str order.marketTicker),
     ("side", .str (if order.side = .yes then "yes" else "no")),
     ("count", .str order.quantity.toFpString),
     ("filled_count", .str order.filledQuantity.toFpString),
     ("type", .str (if order.type = .limit then "limit" else "market")),
     ("created_time", .str "2025-01-01T00:00:00Z"),
     ("yes_price", .int (if order.side = .yes then order.priceCents else 0)),
     ("no_price", .int (if order.side = .yes then 0 else order.priceCents)),
     ("status", .str (statusName order.status))]

def urlEndsWithOrders (url : String) : Bool := "/orders".toList.isSuffixOf url.toList

def get (paper : PaperTransport F) (url : String) : HttpResponse where
  statusCode := 200
  json := some <|
    if urlEndsWithOrders url then .obj [("orders", .arr (paper.openOrders.map orderToJson))]
    else if "/orderbook".toList <:+: url.toList then
      .obj [("orderbook_fp", .obj [("yes_dollars", .arr []), ("no_dollars", .arr [])])]
    else .obj []

/-- The text behind the last slash. -/
def lastSegment (text : String) : String := String.ofList (text.toList.rtakeWhile fun c => c != '/')

def delete (paper : PaperTransport F) (url : String) : PaperTransport F :=
  if '/' ∈ url.toList then
    { paper with openOrders := paper.openOrders.eraseP fun order => order.id == lastSegment url }
  else paper

def acceptance (orderId : OrderId) : HttpResponse where
  statusCode := 201
  json := some <| .obj
    [("order_id", .str orderId), ("fill_count", .str "0.00"), ("ts_ms", .int kPaperOrderTsMs)]

def accept (paper : PaperTransport F) (order : Order) (now : TimePoint) : PaperTransport F :=
  { paper with
    openOrders := paper.openOrders ++ [{ order with id := paper.nextOrderId, createdAt := now }]
    nextId := paper.nextId + 1 }

/-- The test of `simulate_fill`'s search. -/
def fillable (orderId : OrderId) (order : Order) : Bool :=
  order.id == orderId && order.status != .filled && order.status != .cancelled

def afterFill (order : Order) (quantity : Quantity) : Order :=
  let filledQuantity := order.filledQuantity + quantity
  { order with
    filledQuantity
    status := if filledQuantity = order.quantity then .filled else .partiallyFilled }

variable [Floating F]

def parseCount (F : Type) [Floating F] (count : String) : Except String Int :=
  orThrow "stod" ((Floating.stod count : Option F).map Floating.round)

/-- The order that the body of a create request describes. -/
def readOrder (F : Type) [Floating F] (request : Json) : Except String Order := do
  let ticker ← (← request.at "ticker").getStr
  let v2Side ← (← request.at "side").getStr
  let yesPriceCents ← parseDollarsToCents F (← (← request.at "price").getStr)
  let quantity ← parseCount F (← (← request.at "count").getStr)
  let tif ← request.valueStr "time_in_force" "good_till_canceled"
  let side : Side := if v2Side = "bid" then .yes else .no
  return {
    id := ""
    marketTicker := ticker
    side
    priceCents := if side = .yes then yesPriceCents else complementPrice yesPriceCents
    quantity := Quantity.fromContracts quantity
    type := if tif = "immediate_or_cancel" then .market else .limit }

/-- The fill of an order that `simulate_fill` has found. -/
def filled (paper : PaperTransport F) (order : Order) (quantity : Quantity) (now : TimePoint) :
    PaperTransport F :=
  let after := afterFill order quantity
  { openOrders :=
      if after.status = .filled then paper.openOrders.eraseP (fillable order.id)
      else paper.openOrders.replaceF fun other => if fillable order.id other then some after else none
    fills := paper.fills ++
      [{ tradeId := "paper-trade-" ++ toString paper.nextId
         orderId := order.id
         marketTicker := order.marketTicker
         side := order.side
         priceCents := order.priceCents
         quantity
         feeCents := 0
         isTaker := false
         timestamp := now }]
    nextId := paper.nextId + 1 }

/-! ### The resting orders by id -/

def order? (paper : PaperTransport F) (id : OrderId) : Option Order := Keyed.lookup Order.id id paper.openOrders

omit [Floating F] in
theorem order?_accept {paper : PaperTransport F} (new : paper.nextOrderId ∉ paper.openOrders.map Order.id)
    (order : Order) (now : TimePoint) (id : OrderId) :
    (paper.accept order now).order? id =
      if paper.nextOrderId = id then some { order with id := paper.nextOrderId, createdAt := now }
      else paper.order? id := by
  have accepted : Order.id { order with id := paper.nextOrderId, createdAt := now } ∉
      paper.openOrders.map Order.id := new
  exact Keyed.lookup_append accepted id

omit [Floating F] in
theorem order?_delete {paper : PaperTransport F} (distinct : Keyed.Distinct Order.id paper.openOrders)
    {url : String} (slash : '/' ∈ url.toList) (id : OrderId) :
    (paper.delete url).order? id = if id = lastSegment url then none else paper.order? id := by
  rw [delete, if_pos slash]
  exact Keyed.lookup_eraseP distinct (fun order _ => beq_iff_eq) id

omit [Floating F] in
theorem delete_fills (paper : PaperTransport F) (url : String) : (paper.delete url).fills = paper.fills := by
  unfold delete
  split <;> rfl

omit [Floating F] in
theorem delete_nextId (paper : PaperTransport F) (url : String) : (paper.delete url).nextId = paper.nextId := by
  unfold delete
  split <;> rfl

theorem fillable_iff {order : Order} (active : order.isActive = true) (orderId : OrderId) :
    fillable orderId order = true ↔ order.id = orderId := by
  unfold Order.isActive at active
  unfold fillable
  cases h : order.status <;> simp_all

theorem afterFill_filled (order : Order) (quantity : Quantity) :
    (afterFill order quantity).status = .filled ↔ order.filledQuantity + quantity = order.quantity := by
  unfold afterFill
  by_cases full : order.filledQuantity + quantity = order.quantity <;> simp [full]

/-- A fill changes its own order, and takes it off the book once nothing of it remains. -/
theorem order?_filled {paper : PaperTransport F} (distinct : Keyed.Distinct Order.id paper.openOrders)
    (active : ∀ order ∈ paper.openOrders, order.isActive = true) {order : Order}
    (found : paper.order? order.id = some order) (quantity : Quantity) (now : TimePoint) (id : OrderId) :
    (paper.filled order quantity now).order? id =
      if id = order.id then
        if order.filledQuantity + quantity = order.quantity then none else some (afterFill order quantity)
      else paper.order? id := by
  have tests : ∀ other ∈ paper.openOrders, fillable order.id other = true ↔ other.id = order.id :=
    fun other member => fillable_iff (active other member) order.id
  unfold filled order?
  -- a full order leaves the book, a part filled one is replaced in its place
  by_cases full : order.filledQuantity + quantity = order.quantity
  · rw [if_pos full]
    dsimp only
    rw [if_pos ((afterFill_filled order quantity).mpr full)]
    exact Keyed.lookup_eraseP distinct tests id
  · rw [if_neg full]
    dsimp only
    rw [if_neg fun filled => full ((afterFill_filled order quantity).mp filled)]
    rw [Keyed.lookup_replaceF (b := afterFill order quantity) (j := order.id) ?_ rfl id]
    · split
      next same =>
        rw [same, show Keyed.lookup Order.id order.id paper.openOrders = some order from found,
          Option.map_some]
      next => rfl
    · intro other member
      simp only [tests other member]

/-- What a fill leaves on the book was there before, or is what it left of its own order. -/
theorem mem_filled {paper : PaperTransport F} {order : Order} {quantity : Quantity} {now : TimePoint} {other : Order}
    (member : other ∈ (paper.filled order quantity now).openOrders) :
    other ∈ paper.openOrders ∨
      other = afterFill order quantity ∧ order.filledQuantity + quantity ≠ order.quantity := by
  unfold filled at member
  dsimp only at member
  split at member
  · exact .inl (List.mem_of_mem_eraseP member)
  next partly =>
    have kept := fun full => partly ((afterFill_filled order quantity).mpr full)
    rcases List.exists_or_eq_self_of_replaceF
      (fun other => if fillable order.id other then some (afterFill order quantity) else none) paper.openOrders
      with same | ⟨found, after, front, back, _, chosen, whole, replaced⟩
    · exact .inl (same ▸ member)
    · rw [replaced, List.mem_append, List.mem_cons] at member
      split at chosen
      · cases chosen
        rw [whole, List.mem_append, List.mem_cons]
        rcases member with member | member | member
        · exact .inl (.inl member)
        · exact .inr ⟨member, kept⟩
        · exact .inl (.inr (.inr member))
      · cases chosen

/-! ### Time stamps -/

omit [Floating F] in
/-- The paper exchange without the readings of the clock that it has stamped on orders and fills. -/
def unstamped (paper : PaperTransport F) : PaperTransport F :=
  { paper with
    openOrders := paper.openOrders.map fun order => { order with createdAt := 0 }
    fills := paper.fills.map fun fill => { fill with timestamp := 0 } }

omit [Floating F] in
theorem accept_unstamped (paper : PaperTransport F) (order : Order) (now : TimePoint) :
    (paper.accept order now).unstamped = (paper.unstamped.accept order 0) := by
  simp [accept, unstamped, nextOrderId]

omit [Floating F] in
theorem delete_unstamped (paper : PaperTransport F) (url : String) :
    (paper.delete url).unstamped = paper.unstamped.delete url := by
  unfold delete
  by_cases slash : '/' ∈ url.toList
  · rw [if_pos slash, if_pos slash]
    simp only [unstamped, List.eraseP_map]
    rfl
  · rw [if_neg slash, if_neg slash]

omit [Floating F] in
theorem find_unstamped (paper : PaperTransport F) (orderId : OrderId) :
    paper.unstamped.openOrders.find? (fillable orderId) =
      (paper.openOrders.find? (fillable orderId)).map fun order => { order with createdAt := 0 } := by
  unfold unstamped
  rw [List.find?_map]
  rfl

omit [Floating F] in
theorem map_replaceF {α β : Type} (g : α → β) {p : α → Option α} {q : β → Option β}
    (same : ∀ a, (p a).map g = q (g a)) (as : List α) : (as.replaceF p).map g = (as.map g).replaceF q := by
  induction as with
  | nil => rfl
  | cons a as ih =>
    have here := same a
    cases found : p a with
    | none =>
      rw [found] at here
      simp [List.replaceF, found, ← here, ih]
    | some b =>
      rw [found] at here
      simp [List.replaceF, found, ← here]

theorem filled_unstamped (paper : PaperTransport F) (order : Order) (quantity : Quantity) (now : TimePoint) :
    (paper.filled order quantity now).unstamped =
      paper.unstamped.filled { order with createdAt := 0 } quantity 0 := by
  have status : (afterFill { order with createdAt := 0 } quantity).status = (afterFill order quantity).status := rfl
  unfold filled
  dsimp only
  rw [status]
  by_cases full : (afterFill order quantity).status = .filled
  · rw [if_pos full, if_pos full]
    simp only [unstamped, List.eraseP_map, List.map_append]
    rfl
  · rw [if_neg full, if_neg full]
    unfold unstamped
    dsimp only
    rw [map_replaceF (q := fun other => if fillable order.id other then
      some (afterFill { order with createdAt := 0 } quantity) else none), List.map_append]
    · rfl
    · intro other
      change Option.map _ (if fillable order.id other then _ else _) = if fillable order.id other then _ else _
      split <;> rfl

/-! ### Ids and URLs -/

/-- The exchange's own ids have no slash. -/
theorem lastSegment_paperId (k : Nat) : lastSegment (paperId k) = paperId k := by
  have plain : ∀ c ∈ (paperId k).toList, (c != '/') = true := by
    intro c member
    rw [paperId, String.toList_append, List.mem_append, Nat.toString_eq_repr, Nat.toList_repr] at member
    rcases member with member | member
    · have all : ∀ c ∈ "paper-".toList, (c != '/') = true := by simp
      exact all c member
    · have digit : c.isDigit = true := Nat.isDigit_of_mem_toDigits (by omega) (by omega) member
      have other : c ≠ '/' := by
        rintro rfl
        exact absurd digit (by decide)
      simpa using other
  rw [lastSegment, List.rtakeWhile_eq_self_iff.mpr plain, String.ofList_toList]

/-- What follows a slash decides the last segment. -/
theorem lastSegment_slash (path text : String) : lastSegment (path ++ "/" ++ text) = lastSegment text := by
  have reversed : (path ++ "/" ++ text).toList.reverse = text.toList.reverse ++ '/' :: path.toList.reverse := by
    simp [String.toList_append, show "/".toList = ['/'] from rfl]
  unfold lastSegment List.rtakeWhile
  rw [reversed, List.takeWhile_append]
  split
  next whole =>
    have all := (List.takeWhile_prefix (l := text.toList.reverse) fun c => c != '/').eq_of_length whole
    rw [List.takeWhile_cons_of_neg (by simp), List.append_nil, all]
  next => rfl

section

variable [Elementary ℚ]

/-- The paper exchange reads the body of a create or amend request back as it was meant, a count to
the nearest contract. -/
theorem readOrder_orderFields (ticker : Ticker) (side : Side) (priceCents : Int) (count : Quantity) (tif : String)
    (more : List (String × Json)) :
    readOrder ℚ (.obj (RestClient.orderFields ticker side priceCents count tif ++ more)) =
      .ok {
        id := ""
        marketTicker := ticker
        side
        priceCents
        quantity := Quantity.fromContracts (Floating.round ((count.centi : ℚ) / 100))
        type := if tif = "immediate_or_cancel" then .market else .limit } := by
  have counted : parseCount ℚ count.toFpString = .ok (Floating.round ((count.centi : ℚ) / 100)) := by
    unfold parseCount
    rw [stod_toFpString]
    rfl
  cases side <;>
    simp [readOrder, RestClient.orderFields, Json.at, Json.find?, Json.getStr, Json.valueStr, bind, Except.bind,
      pure, Except.pure, counted, parseDollars_formatDollars, complementPrice]

theorem round_fromContracts (n : Int) : Floating.round (((Quantity.fromContracts n).centi : ℚ) / 100) = n := by
  have whole : ((Quantity.fromContracts n).centi : ℚ) / 100 = (n : ℚ) := by
    rw [Quantity.fromContracts_centi]
    push_cast
    ring
  rw [whole, round_intCast]

end

end PaperTransport

/-- The paper exchange and the rest of the outside: its clocks and its order of hash maps. -/
structure PaperWorld (F Y : Type) where
  paper : PaperTransport F
  rest : Y

namespace PaperWorld

open PaperTransport

variable {F Y : Type} [Floating F] (world : Host Y)

/-- The URL of a request is not looked at. -/
def post (request : Json) (x : PaperWorld F Y) : Except String HttpResponse × PaperWorld F Y :=
  match readOrder F request with
  | .error what => (.error what, x)
  | .ok order =>
    let now := world.systemNow x.rest
    (.ok (acceptance x.paper.nextOrderId), { paper := x.paper.accept order now.1, rest := now.2 })

def simulateFill (orderId : OrderId) (fillQuantity : Int) (x : PaperWorld F Y) : Bool × PaperWorld F Y :=
  match x.paper.openOrders.find? (fillable orderId) with
  | none => (false, x)
  | some order =>
    let actualFill := Quantity.min (Quantity.fromContracts fillQuantity) order.remainingQuantity
    let now := world.systemNow x.rest
    (true, { paper := x.paper.filled order actualFill now.1, rest := now.2 })

def host : Host (PaperWorld F Y) where
  get url x := (.ok (x.paper.get url), x)
  post _ request x := x.post world request
  delete url x := (.ok { statusCode := 200, body := "{}", json := some (.obj []) },
    { x with paper := x.paper.delete url })
  steadyNow x := ((world.steadyNow x.rest).1, { x with rest := (world.steadyNow x.rest).2 })
  systemNow x := ((world.systemNow x.rest).1, { x with rest := (world.systemNow x.rest).2 })
  arrange x keys := world.arrange x.rest keys
  arrange_perm x keys := world.arrange_perm x.rest keys

end PaperWorld

end Kalshi
