import KalshiMaker.Net.Host

/-! Order requests of the REST client. Signing and rate limiting add no field to a request and are
left out. -/
namespace Kalshi

open Effect

def checkResponse (resp : HttpResponse) : Except String Unit :=
  if 200 ≤ resp.statusCode ∧ resp.statusCode ≤ 299 then .ok ()
  else .error ("HTTP " ++ toString resp.statusCode ++ ": " ++ resp.body)

def HttpResponse.parse (resp : HttpResponse) : Except String Json :=
  match resp.json with
  | some json => .ok json
  | none => .error "parse error"

/-- Cents as a dollar amount with four decimals: 52 is "0.5200". -/
def formatDollars (cents : Int) : String :=
  let sign := if cents < 0 then "-" else ""
  let magnitude := cents.natAbs
  sign ++ toString (magnitude / 100) ++ "." ++ Quantity.twoDigits (magnitude % 100) ++ "00"

def orThrow {α : Type} (what : String) : Option α → Except String α
  | some a => .ok a
  | none => .error what

section

variable (F : Type) [Floating F]

def parseDollarsToCents (dollars : String) : Except String Int :=
  orThrow "stod" ((Floating.stod dollars : Option F).map fun value =>
    Floating.round (value * ((100 : Int) : F)))

def parseFpCount (fpStr : String) : Except String Quantity :=
  orThrow "stod" (Quantity.fromFpString F fpStr)

/-- The order that `place_order` reconstructs from its arguments and the minimal response. -/
def placedOrder (resp : HttpResponse) (ticker : Ticker) (side : Side) (priceCents : Int)
    (count : Quantity) (type : OrderType) : Except String Order := do
  checkResponse resp
  let json ← resp.parse
  let filledQty ← parseFpCount F (← (← json.at "fill_count").getStr)
  let status : OrderStatus :=
    if count ≤ filledQty then .filled
    else if type = .market then .cancelled
    else if filledQty.isPositive then .partiallyFilled
    else .open
  let tsMs ← (← json.at "ts_ms").getInt
  let avgStr ← json.valueStr "average_fill_price" ""
  let avgFillCents ←
    if avgStr = "" then pure 0
    else do
      let avgYesCents ← parseDollarsToCents F avgStr
      pure (if side = .yes then avgYesCents else complementPrice avgYesCents)
  let id ← (← json.at "order_id").getStr
  return {
    id
    marketTicker := ticker
    side
    priceCents
    quantity := count
    filledQuantity := filledQty
    status
    type
    createdAt := tsMs * nanosPerMilli
    averageFillPriceCents := avgFillCents }

end

structure RestClient where
  baseUrl : String

namespace RestClient

variable {X : Type} (rest : RestClient) (host : Host X)

def ordersUrl : String := rest.baseUrl ++ "/portfolio/events/orders"

/-- The fields an order body has in every request: the V2 side and prices are those of YES. -/
def orderFields (ticker : Ticker) (side : Side) (priceCents : Int) (count : Quantity) (tif : String) :
    List (String × Json) :=
  [("ticker", .str ticker),
   ("side", .str (if side = .yes then "bid" else "ask")),
   ("price", .str (formatDollars (if side = .yes then priceCents else kPriceBasis - priceCents))),
   ("count", .str count.toFpString),
   ("time_in_force", .str tif),
   ("self_trade_prevention_type", .str "taker_at_cross")]

variable (F : Type) [Floating F] in
def placeOrder (ticker : Ticker) (side : Side) (priceCents : Int) (count : Quantity)
    (type : OrderType) : Eff X String Order := do
  let tif := if type = .market then "immediate_or_cancel" else "good_till_canceled"
  let resting : List (String × Json) :=
    if type = .market then [] else [("post_only", .bool true), ("cancel_order_on_pause", .bool true)]
  let body := Json.obj (orderFields ticker side priceCents count tif ++ resting)
  let resp ← Host.request (host.post rest.ordersUrl body)
  Eff.ofExcept (placedOrder F resp ticker side priceCents count type)

/-- Selling YES closes a long position, buying it a short one. -/
def closeSide (netPosition : Quantity) : Side := if netPosition.isPositive then .no else .yes

variable (F : Type) [Floating F] in
/-- An immediate-or-cancel order at the highest price, which fills at the resting one. -/
def flatten (ticker : Ticker) (netPosition : Quantity) : Eff X String Order :=
  if netPosition.isZero then
    pure { id := "", marketTicker := "", side := .yes, priceCents := 0, quantity := {} }
  else rest.placeOrder host F ticker (closeSide netPosition) kMaxPriceCents netPosition.abs .market

def cancelOrder (orderId : OrderId) : Eff X String Bool := do
  let resp ← Host.request (host.delete (rest.ordersUrl ++ "/" ++ orderId))
  pure (decide (200 ≤ resp.statusCode ∧ resp.statusCode ≤ 299))

/-- The id an amend response names; the old id where it names none, `none` where the exchange
refused or the response is malformed. -/
def amendedId (resp : HttpResponse) (orderId : OrderId) : Option OrderId :=
  let read : Except String OrderId := do
    checkResponse resp
    let json ← resp.parse
    json.valueStr "order_id" orderId
  read.toOption

def amendOrder (orderId : OrderId) (ticker : Ticker) (side : Side) (newPriceCents : Int)
    (count : Quantity) : Eff X String (Option OrderId) := do
  let body := Json.obj
    (orderFields ticker side newPriceCents count "good_till_canceled" ++ [("post_only", .bool true)])
  let resp ← Host.request (host.post (rest.ordersUrl ++ "/" ++ orderId ++ "/amend") body)
  pure (amendedId resp orderId)

/-- The body of the order that closes a position. -/
def flattenBody (ticker : Ticker) (netPosition : Quantity) : Json :=
  .obj (orderFields ticker (closeSide netPosition) kMaxPriceCents netPosition.abs "immediate_or_cancel")

/-- A placed order carries the arguments of the request. -/
theorem placedOrder_fields {F : Type} [Floating F] {resp : HttpResponse} {ticker : Ticker} {side : Side}
    {price : Int} {count : Quantity} {type : OrderType} {order : Order}
    (returned : placedOrder F resp ticker side price count type = .ok order) :
    order.marketTicker = ticker ∧ order.side = side ∧ order.priceCents = price ∧
      order.quantity = count := by
  simp only [placedOrder, bind, Except.bind, pure, Except.pure] at returned
  repeat' split at returned
  all_goals first
    | cases returned; exact ⟨rfl, rfl, rfl, rfl⟩
    | cases returned

variable {F : Type} [Floating F]

/-- Placing either yields an order with the requested fields or throws. -/
theorem placeOrder_cases (ticker : Ticker) (side : Side) (price : Int) (count : Quantity)
    (type : OrderType) (x : X) :
    ∃ x', (∃ order, rest.placeOrder host F ticker side price count type x = (.ok order, x') ∧
        order.marketTicker = ticker ∧ order.side = side ∧ order.priceCents = price ∧
        order.quantity = count) ∨
      (∃ what, rest.placeOrder host F ticker side price count type x =
        (.error (.exception what), x')) := by
  simp only [placeOrder, Eff.bind_apply]
  rcases Host.request_cases (host.post rest.ordersUrl _) x with ⟨resp, h⟩ | ⟨what, h⟩
  · rw [h, Eff.andThen_ok]
    cases placed : placedOrder F resp ticker side price count type with
    | ok order => exact ⟨_, .inl ⟨order, rfl, placedOrder_fields placed⟩⟩
    | error what => exact ⟨_, .inr ⟨what, rfl⟩⟩
  · rw [h, Eff.andThen_error]
    exact ⟨_, .inr ⟨what, rfl⟩⟩

theorem cancelOrder_cases (orderId : OrderId) (x : X) :
    ∃ x', (∃ success, rest.cancelOrder host orderId x = (.ok success, x')) ∨
      (∃ what, rest.cancelOrder host orderId x = (.error (.exception what), x')) := by
  simp only [cancelOrder, Eff.bind_apply]
  rcases Host.request_cases (host.delete (rest.ordersUrl ++ "/" ++ orderId)) x with ⟨resp, h⟩ | ⟨what, h⟩
  · rw [h, Eff.andThen_ok]
    exact ⟨_, .inl ⟨_, rfl⟩⟩
  · rw [h, Eff.andThen_error]
    exact ⟨_, .inr ⟨what, rfl⟩⟩

theorem amendOrder_cases (orderId : OrderId) (ticker : Ticker) (side : Side) (price : Int)
    (count : Quantity) (x : X) :
    ∃ x', (∃ newId, rest.amendOrder host orderId ticker side price count x = (.ok newId, x')) ∨
      (∃ what, rest.amendOrder host orderId ticker side price count x =
        (.error (.exception what), x')) := by
  simp only [amendOrder, Eff.bind_apply]
  rcases Host.request_cases (host.post (rest.ordersUrl ++ "/" ++ orderId ++ "/amend") _) x
    with ⟨resp, h⟩ | ⟨what, h⟩
  · rw [h, Eff.andThen_ok]
    exact ⟨_, .inl ⟨_, rfl⟩⟩
  · rw [h, Eff.andThen_error]
    exact ⟨_, .inr ⟨what, rfl⟩⟩

end RestClient

end Kalshi
