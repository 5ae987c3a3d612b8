import KalshiMaker.Engine.Orderbook
import KalshiMaker.Engine.FlowImbalance
import KalshiMaker.Engine.TradeTape
import KalshiMaker.Exchange.RestClient
import KalshiMaker.Strategy.Quoting

/-! The state of the trading process, and the order manager's requests to the exchange. -/
namespace Kalshi

open Effect

abbrev OrderbookMap := AList fun _ : Ticker => LocalOrderbook

abbrev PnlMap (F : Type) := AList fun _ : Ticker => F

structure TradingSession (F : Type) where
  tickers : List Ticker
  errorCooldownMs : Int := 500
  cooldownUntil : Ticker → Option TimePoint := fun _ => none
  lastBookUpdate : Ticker → Option TimePoint := fun _ => none
  seededAt : Ticker → Option TimePoint := fun _ => none
  feedDead : Ticker → Bool := fun _ => false
  obMap : OrderbookMap := ∅
  priorPnl : PnlMap F := ∅

/-- A call on the order manager and what came of it. A request that threw has no reply. -/
inductive Call (F : Type) where
  | place (ticker : Ticker) (side : Side) (priceCents quantity : Int) (placed : Option OrderId)
  | amend (orderId : OrderId) (ticker : Ticker) (side : Side) (newPriceCents : Int) (count : Quantity)
      (newId : Option OrderId)
  | cancel (orderId : OrderId) (success : Bool)
  | recordFill (fill : Fill F) (new : Bool)

/-- The market a call sends an order for. -/
def Call.sentOn {F : Type} : Call F → Option Ticker
  | .place ticker _ _ _ _ => some ticker
  | .amend _ ticker _ _ _ _ => some ticker
  | .cancel _ _ | .recordFill _ _ => none

/-- The ids the exchange gives out: one for a placed order, one for an amend that changes the id. -/
def Call.issued {F : Type} : Call F → List OrderId
  | .place _ _ _ _ placed => placed.toList
  | .amend orderId _ _ _ _ newId => newId.toList.filter fun id => id != orderId
  | .cancel _ _ | .recordFill _ _ => []

/-- `tickers` are the tracked markets at the moment of the call. -/
structure Entry (F : Type) where
  call : Call F
  tickers : List Ticker

def issuedIds {F : Type} (calls : List (Entry F)) : List OrderId := calls.flatMap fun entry => entry.call.issued

/-- One look of the quoter at a book: the book it was handed, the live orders of its own it
subtracts, and what it prices off. -/
structure PricedBook where
  ticker : Ticker
  book : LocalOrderbook
  resting : List Order
  visible : LocalOrderbook
  deriving DecidableEq, Repr

/-- What reaches the analytics tap and the PnL listener. -/
inductive Emission (F : Type) where
  | quoteDecision (ticker : Ticker) (mid micro fairVal : F) (bid ask : Int) (inventory : F)
      (imbalanced : Bool)
  | fill (fill : Fill F) (midCents netPosition : F)
  | persist (totals : PnlMap F)

/-- `calls`, `priced` and `emitted` only ever grow and are never read by the program: they keep
what happened, oldest first. -/
structure Desk (F X : Type) [Floating F] where
  orderMgr : OrderManager F := .empty
  riskMgr : RiskManager F := {}
  quoter : Quoter F
  flowGuard : Option (FlowImbalanceGuard F) := none
  tradeTape : Option (TradeTape F) := none
  session : TradingSession F
  analytics : Bool := false
  pnlListener : Bool := false
  outside : X
  calls : List (Entry F) := []
  priced : List PricedBook := []
  emitted : List (Emission F) := []

/-- The exchange client and what it runs on. -/
structure Venue (X : Type) where
  rest : RestClient
  host : Host X

variable {F X : Type} [Floating F]

def ensure {σ : Type} (condition : Bool) (what : String) : Eff σ String Unit :=
  if condition then pure () else Eff.abort what

namespace Desk

def called (s : Desk F X) (call : Call F) (outside : X) : Desk F X :=
  { s with outside, calls := s.calls ++ [⟨call, s.session.tickers⟩] }

def withOrders (s : Desk F X) (orderMgr : OrderManager F) : Desk F X := { s with orderMgr }

/-- Send a request and keep the call with its reply. -/
def issue {α : Type} (request : Eff X String α) (call : Option α → Call F) : Eff (Desk F X) String α :=
  fun s => ((request s.outside).1, s.called (call (request s.outside).1.toOption) (request s.outside).2)

def steadyNow (venue : Venue X) : Eff (Desk F X) String TimePoint :=
  Eff.onPart Desk.outside (fun s x => { s with outside := x }) (Host.clock venue.host.steadyNow)

def systemNow (venue : Venue X) : Eff (Desk F X) String TimePoint :=
  Eff.onPart Desk.outside (fun s x => { s with outside := x }) (Host.clock venue.host.systemNow)

def mapSession (f : TradingSession F → TradingSession F) : Eff (Desk F X) String Unit :=
  Eff.modify fun s => { s with session := f s.session }

def mapQuoter (f : Quoter F → Quoter F) : Eff (Desk F X) String Unit :=
  Eff.modify fun s => { s with quoter := f s.quoter }

def mapOrders (f : OrderManager F → OrderManager F) : Eff (Desk F X) String Unit :=
  Eff.modify fun s => { s with orderMgr := f s.orderMgr }

def mapRisk (f : RiskManager F → RiskManager F) : Eff (Desk F X) String Unit :=
  Eff.modify fun s => { s with riskMgr := f s.riskMgr }

def emit (emission : Emission F) : Eff (Desk F X) String Unit :=
  Eff.modify fun s => { s with emitted := s.emitted ++ [emission] }

end Desk

namespace OrderManager

open Desk

variable (venue : Venue X)

def place (ticker : Ticker) (side : Side) (priceCents quantity : Int) :
    Eff (Desk F X) String Order := do
  ensure (isValidPrice priceCents) "order price outside [1,99]"
  ensure (decide (0 < quantity)) "order quantity must be positive"
  let order ← issue
    (venue.rest.placeOrder venue.host F ticker side priceCents (Quantity.fromContracts quantity) .limit)
    fun reply => .place ticker side priceCents quantity (reply.map Order.id)
  mapOrders fun om => om.placed order
  pure order

def cancel (orderId : OrderId) : Eff (Desk F X) String Bool := do
  let success ← issue (venue.rest.cancelOrder venue.host orderId)
    fun reply => .cancel orderId (reply.getD false)
  if success then mapOrders fun om => om.cancelled orderId
  pure success

/-- A failed cancel, rejected or thrown, does not keep the others from being sent. -/
def cancelBestEffort (orderId : OrderId) : Eff (Desk F X) String Unit :=
  Eff.tryCatch (do let _ ← cancel venue orderId) fun _ => pure ()

def cancelAll (ticker : Ticker) : Eff (Desk F X) String Unit := do
  let s ← Eff.get
  let toCancel := (venue.host.arrange s.outside s.orderMgr.openOrders.keys).filter
    (s.orderMgr.isOpenOn ticker)
  Eff.forEach toCancel (cancelBestEffort venue)

def amend (orderId : OrderId) (ticker : Ticker) (side : Side) (newPriceCents : Int) (count : Quantity) :
    Eff (Desk F X) String (Option OrderId) := do
  let newId ← issue (venue.rest.amendOrder venue.host orderId ticker side newPriceCents count)
    fun reply => .amend orderId ticker side newPriceCents count reply.join
  match newId with
  | some newId => mapOrders fun om => om.amended orderId newId newPriceCents
  | none => pure ()
  pure newId

def recordFill (fill : Fill F) : Eff (Desk F X) String Bool := do
  match checkFill fill with
  | .error what => Eff.abort what
  | .ok () => do
    let s ← Eff.get
    let recorded := s.orderMgr.recorded fill
    Eff.modify fun s => (s.called (.recordFill fill recorded.1) s.outside).withOrders recorded.2
    pure recorded.1

/-! ### What a request does to the desk -/

theorem place_cases (ticker : Ticker) (side : Side) (price quantity : Int) (s : Desk F X) :
    (∃ what, place venue ticker side price quantity s = (.error (.abort what), s)) ∨
    (∃ order x, place venue ticker side price quantity s =
        (.ok order, (s.called (.place ticker side price quantity (some order.id)) x).withOrders
          (s.orderMgr.placed order)) ∧
      order.marketTicker = ticker ∧ order.side = side ∧ order.priceCents = price ∧
      order.quantity = Quantity.fromContracts quantity) ∨
    (∃ what x, place venue ticker side price quantity s =
      (.error (.exception what), s.called (.place ticker side price quantity none) x)) := by
  unfold place ensure
  -- the two ensures come before the request, so a failed one leaves no call
  cases isValidPrice price with
  | false => exact .inl ⟨_, rfl⟩
  | true =>
    cases decide (0 < quantity) with
    | false => exact .inl ⟨_, rfl⟩
    | true =>
      right
      obtain ⟨x, ⟨order, placed, on, on', at', counted⟩ | ⟨what, failed⟩⟩ :=
        venue.rest.placeOrder_cases venue.host (F := F) ticker side price
          (Quantity.fromContracts quantity) .limit s.outside
      · left
        refine ⟨order, x, ?_, on, on', at', counted⟩
        simp [issue, placed, mapOrders, called, withOrders, Except.toOption]
      · right
        refine ⟨what, x, ?_⟩
        simp [issue, failed, called, Except.toOption]

theorem cancel_cases (orderId : OrderId) (s : Desk F X) :
    (∃ x, cancel venue orderId s =
      (.ok true, (s.called (.cancel orderId true) x).withOrders (s.orderMgr.cancelled orderId))) ∨
    (∃ x, cancel venue orderId s = (.ok false, s.called (.cancel orderId false) x)) ∨
    (∃ what x, cancel venue orderId s =
      (.error (.exception what), s.called (.cancel orderId false) x)) := by
  unfold cancel
  obtain ⟨x, ⟨success, answered⟩ | ⟨what, failed⟩⟩ :=
    venue.rest.cancelOrder_cases venue.host orderId s.outside
  · cases success with
    | true => exact .inl ⟨x, by simp [issue, answered, mapOrders, called, withOrders, Except.toOption]⟩
    | false => exact .inr (.inl ⟨x, by simp [issue, answered, called, Except.toOption]⟩)
  · exact .inr (.inr ⟨what, x, by simp [issue, failed, called, Except.toOption]⟩)

theorem amend_cases (orderId : OrderId) (ticker : Ticker) (side : Side) (price : Int) (count : Quantity)
    (s : Desk F X) :
    (∃ newId x, amend venue orderId ticker side price count s =
      (.ok (some newId), (s.called (.amend orderId ticker side price count (some newId)) x).withOrders
        (s.orderMgr.amended orderId newId price))) ∨
    (∃ x, amend venue orderId ticker side price count s =
      (.ok none, s.called (.amend orderId ticker side price count none) x)) ∨
    (∃ what x, amend venue orderId ticker side price count s =
      (.error (.exception what), s.called (.amend orderId ticker side price count none) x)) := by
  unfold amend
  obtain ⟨x, ⟨newId, answered⟩ | ⟨what, failed⟩⟩ :=
    venue.rest.amendOrder_cases venue.host orderId ticker side price count s.outside
  · cases newId with
    | some newId => exact .inl ⟨newId, x, by simp [issue, answered, mapOrders, called, withOrders, Except.toOption]⟩
    | none => exact .inr (.inl ⟨x, by simp [issue, answered, called, Except.toOption]⟩)
  · exact .inr (.inr ⟨what, x, by simp [issue, failed, called, Except.toOption]⟩)

theorem recordFill_cases (fill : Fill F) (s : Desk F X) :
    (∃ what, recordFill fill s = (.error (.abort what), s) ∧ checkFill fill ≠ .ok ()) ∨
    (recordFill fill s = (.ok (s.orderMgr.recorded fill).1,
        (s.called (.recordFill fill (s.orderMgr.recorded fill).1) s.outside).withOrders
          (s.orderMgr.recorded fill).2) ∧ checkFill fill = .ok ()) := by
  unfold recordFill
  cases checkFill fill with
  | error what => exact .inl ⟨what, rfl, nofun⟩
  | ok _ => exact .inr ⟨rfl, rfl⟩

end OrderManager

end Kalshi
