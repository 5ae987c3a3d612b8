import KalshiMaker.Engine.Process
import KalshiMaker.Strategy.QuoterWalk

/-! The ledger of a run: what the process holds at the exchange, in its risk bits and in its quote
slots, and the steps it moves by. Books, clocks and prices are forgotten. -/
namespace Kalshi

open Effect

/-- A slot is an order id, empty where nothing is quoted, and the YES price quoted. -/
structure Ledger (F : Type) [Floating F] where
  tickers : List Ticker
  orderMgr : OrderManager F
  riskMgr : RiskManager F
  slots : Ticker → Side → OrderId × Int
  calls : List (Entry F)

variable {F X : Type} [Floating F]

def Desk.ledger (s : Desk F X) : Ledger F where
  tickers := s.session.tickers
  orderMgr := s.orderMgr
  riskMgr := s.riskMgr
  slots ticker side :=
    ((s.quoter.ownQuotes ticker side).orderId, (s.quoter.ownQuotes ticker side).quotedCents)
  calls := s.calls

namespace Ledger

def order? (L : Ledger F) (id : OrderId) : Option Order := L.orderMgr.openOrders.lookup id

def called (L : Ledger F) (call : Call F) : Ledger F := { L with calls := L.calls ++ [⟨call, L.tickers⟩] }

def setSlot (L : Ledger F) (ticker : Ticker) (side : Side) (slot : OrderId × Int) : Ledger F :=
  { L with slots := Function.update L.slots ticker (Function.update (L.slots ticker) side slot) }

def withOrders (L : Ledger F) (orderMgr : OrderManager F) : Ledger F := { L with orderMgr }

@[simp] theorem order?_called (L : Ledger F) (call : Call F) (id : OrderId) :
    (L.called call).order? id = L.order? id := rfl

@[simp] theorem order?_setSlot (L : Ledger F) (ticker : Ticker) (side : Side) (slot : OrderId × Int)
    (id : OrderId) : (L.setSlot ticker side slot).order? id = L.order? id := rfl

@[simp] theorem order?_withOrders (L : Ledger F) (om : OrderManager F) (id : OrderId) :
    (L.withOrders om).order? id = om.openOrders.lookup id := rfl

@[simp] theorem slots_called (L : Ledger F) (call : Call F) : (L.called call).slots = L.slots := rfl

@[simp] theorem slots_withOrders (L : Ledger F) (om : OrderManager F) :
    (L.withOrders om).slots = L.slots := rfl

@[simp] theorem calls_setSlot (L : Ledger F) (ticker : Ticker) (side : Side) (slot : OrderId × Int) :
    (L.setSlot ticker side slot).calls = L.calls := rfl

@[simp] theorem calls_withOrders (L : Ledger F) (om : OrderManager F) :
    (L.withOrders om).calls = L.calls := rfl

theorem setSlot_slots (L : Ledger F) (ticker t : Ticker) (side d : Side) (slot : OrderId × Int) :
    (L.setSlot ticker side slot).slots t d = if t = ticker ∧ d = side then slot else L.slots t d := by
  unfold setSlot
  by_cases onTicker : t = ticker
  · subst onTicker
    by_cases onSide : d = side
    · subst onSide
      simp
    · simp [onSide]
  · simp [onTicker]

/-- What one request of the quoter on a market does. -/
inductive QuoteStep (ticker : Ticker) (L : Ledger F) : Ledger F → Prop where
  | placed {side : Side} {desired quantity : Int} {order : Order}
      (vacant : (L.slots ticker side).1 = "")
      (passed : L.riskMgr.checkOrder ticker side ((legOf side).orderPrice desired) quantity = true)
      (on : order.marketTicker = ticker) (sided : order.side = side)
      (priced : order.priceCents = (legOf side).orderPrice desired) :
      QuoteStep ticker L <|
        ((L.called (.place ticker side ((legOf side).orderPrice desired) quantity (some order.id))).withOrders
          (L.orderMgr.placed order)).setSlot ticker side (order.id, desired)
  | placeFailed {side : Side} {price quantity : Int}
      (passed : L.riskMgr.checkOrder ticker side price quantity = true) :
      QuoteStep ticker L (L.called (.place ticker side price quantity none))
  | amended {side : Side} {desired quantity : Int} {newId : OrderId}
      (held : (L.slots ticker side).1 ≠ "")
      (passed : L.riskMgr.checkOrder ticker side ((legOf side).orderPrice desired) quantity = true) :
      QuoteStep ticker L <|
        ((L.called (.amend (L.slots ticker side).1 ticker side ((legOf side).orderPrice desired)
          (Quantity.fromContracts quantity) (some newId))).withOrders
            (L.orderMgr.amended (L.slots ticker side).1 newId ((legOf side).orderPrice desired))).setSlot
              ticker side (newId, desired)
  | amendFailed {side : Side} {orderId : OrderId} {price quantity : Int}
      (passed : L.riskMgr.checkOrder ticker side price quantity = true) :
      QuoteStep ticker L <|
        L.called (.amend orderId ticker side price (Quantity.fromContracts quantity) none)
  | released {side : Side} :
      QuoteStep ticker L <|
        ((L.called (.cancel (L.slots ticker side).1 true)).withOrders
          (L.orderMgr.cancelled (L.slots ticker side).1)).setSlot ticker side ("", (L.slots ticker side).2)
  | forgotten {side : Side} (untracked : L.order? (L.slots ticker side).1 = none) :
      QuoteStep ticker L <|
        (L.called (.cancel (L.slots ticker side).1 false)).setSlot ticker side ("", (L.slots ticker side).2)
  | kept {orderId : OrderId} : QuoteStep ticker L (L.called (.cancel orderId false))

end Ledger

/-- A post-only order rests unfilled: no answer to a placement reports a fill. -/
def Venue.PostOnly (F : Type) [Floating F] (venue : Venue X) : Prop :=
  ∀ ticker side price count x order x',
    venue.rest.placeOrder venue.host F ticker side price count .limit x = (.ok order, x') →
    order.filledQuantity = {}

/-- The ledger, and what sizes the orders of the quoter. -/
structure Posture (F : Type) [Floating F] where
  ledger : Ledger F
  config : QuoterConfig F

def Desk.posture (s : Desk F X) : Posture F := ⟨s.ledger, s.quoter.config⟩

/-- The slot on the other side is empty, or the desired price does not meet it. -/
def Posture.Apart (u : Posture F) (ticker : Ticker) (side : Side) (desired : Int) : Prop :=
  (u.ledger.slots ticker side.opposite).1 = "" ∨
    (legOf side).crosses desired (u.ledger.slots ticker side.opposite).2 = false

open Ledger in
/-- One request of the quoter on a side, with what it was checked against: the aim of the update, the
slot on the other side, and the risk manager. -/
inductive Request (venue : Venue X) (aim : Quoter.Aim) (ticker : Ticker) (side : Side) (u : Posture F) :
    Posture F → Prop where
  | placed {desired : Int} {order : Order} (wanted : aim side = some desired)
      (apart : u.Apart ticker side desired) (vacant : (u.ledger.slots ticker side).1 = "")
      (passed : u.ledger.riskMgr.checkOrder ticker side ((legOf side).orderPrice desired)
        u.config.quoteSize = true)
      (on : order.marketTicker = ticker) (sided : order.side = side)
      (priced : order.priceCents = (legOf side).orderPrice desired)
      (counted : order.quantity = Quantity.fromContracts u.config.quoteSize) (positive : 0 < u.config.quoteSize)
      (unfilled : venue.PostOnly F → order.filledQuantity = {}) :
      Request venue aim ticker side u
        ⟨((u.ledger.called (.place ticker side ((legOf side).orderPrice desired) u.config.quoteSize
            (some order.id))).withOrders (u.ledger.orderMgr.placed order)).setSlot ticker side
              (order.id, desired), u.config⟩
  | placeFailed {desired : Int} (wanted : aim side = some desired) (apart : u.Apart ticker side desired)
      (vacant : (u.ledger.slots ticker side).1 = "")
      (passed : u.ledger.riskMgr.checkOrder ticker side ((legOf side).orderPrice desired)
        u.config.quoteSize = true) :
      Request venue aim ticker side u
        ⟨u.ledger.called (.place ticker side ((legOf side).orderPrice desired) u.config.quoteSize none), u.config⟩
  | amended {desired : Int} {newId : OrderId} (wanted : aim side = some desired)
      (apart : u.Apart ticker side desired) (held : (u.ledger.slots ticker side).1 ≠ "")
      (passed : u.ledger.riskMgr.checkOrder ticker side ((legOf side).orderPrice desired)
        u.config.quoteSize = true) :
      Request venue aim ticker side u
        ⟨((u.ledger.called (.amend (u.ledger.slots ticker side).1 ticker side
            ((legOf side).orderPrice desired) (Quantity.fromContracts u.config.quoteSize)
            (some newId))).withOrders (u.ledger.orderMgr.amended (u.ledger.slots ticker side).1 newId
              ((legOf side).orderPrice desired))).setSlot ticker side (newId, desired), u.config⟩
  | amendFailed {desired : Int} (wanted : aim side = some desired) (apart : u.Apart ticker side desired)
      (held : (u.ledger.slots ticker side).1 ≠ "")
      (passed : u.ledger.riskMgr.checkOrder ticker side ((legOf side).orderPrice desired)
        u.config.quoteSize = true) :
      Request venue aim ticker side u
        ⟨u.ledger.called (.amend (u.ledger.slots ticker side).1 ticker side
          ((legOf side).orderPrice desired) (Quantity.fromContracts u.config.quoteSize) none), u.config⟩
  | released :
      Request venue aim ticker side u
        ⟨((u.ledger.called (.cancel (u.ledger.slots ticker side).1 true)).withOrders
            (u.ledger.orderMgr.cancelled (u.ledger.slots ticker side).1)).setSlot ticker side
              ("", (u.ledger.slots ticker side).2), u.config⟩
  | forgotten (untracked : u.ledger.order? (u.ledger.slots ticker side).1 = none) :
      Request venue aim ticker side u
        ⟨(u.ledger.called (.cancel (u.ledger.slots ticker side).1 false)).setSlot ticker side
            ("", (u.ledger.slots ticker side).2), u.config⟩
  | kept :
      Request venue aim ticker side u
        ⟨u.ledger.called (.cancel (u.ledger.slots ticker side).1 false), u.config⟩

namespace Request

open Ledger

variable {venue : Venue X} {aim : Quoter.Aim} {ticker : Ticker} {side : Side} {u v : Posture F}

theorem quoteStep (request : Request venue aim ticker side u v) : QuoteStep ticker u.ledger v.ledger := by
  cases request with
  | placed _ _ vacant passed on sided priced _ _ _ => exact .placed vacant passed on sided priced
  | placeFailed _ _ _ passed => exact .placeFailed passed
  | amended _ _ held passed => exact .amended held passed
  | amendFailed _ _ _ passed => exact .amendFailed passed
  | released => exact .released
  | forgotten untracked => exact .forgotten untracked
  | kept => exact .kept

theorem config (request : Request venue aim ticker side u v) : v.config = u.config := by
  cases request <;> rfl

/-- A request leaves the slot on the other side alone. -/
theorem other_slot (request : Request venue aim ticker side u v) :
    v.ledger.slots ticker side.opposite = u.ledger.slots ticker side.opposite := by
  have apart : ¬ (ticker = ticker ∧ side.opposite = side) := by
    cases side <;> exact fun same => nomatch same.2
  cases request with
  | placed _ _ _ _ _ _ _ _ _ _ | amended _ _ _ _ | released | forgotten _ =>
    exact (setSlot_slots _ _ _ _ _ _).trans (if_neg apart)
  | placeFailed _ _ _ _ | amendFailed _ _ _ _ | kept => rfl

theorem apart (request : Request venue aim ticker side u v) {desired : Int}
    (apart : u.Apart ticker side desired) : v.Apart ticker side desired := by
  unfold Posture.Apart
  rw [request.other_slot]
  exact apart

end Request

namespace Desk

@[simp] theorem ledger_called (s : Desk F X) (call : Call F) (x : X) :
    (s.called call x).ledger = s.ledger.called call := rfl

@[simp] theorem ledger_withOrders (s : Desk F X) (om : OrderManager F) :
    (s.withOrders om).ledger = s.ledger.withOrders om := rfl

end Desk

/-! ### The quoter on one market -/

namespace Quoter

open Desk Ledger Eff Relation

variable (venue : Venue X)

/-- A move of the quoter that changes no slot's order or price. -/
theorem ledger_updateSlot (ticker : Ticker) (side : Side) (f : QuoteSlot → QuoteSlot) (s : Desk F X) :
    (updateSlot ticker side f s).2.ledger = s.ledger.setSlot ticker side
      ((f (s.quoter.ownQuotes ticker side)).orderId, (f (s.quoter.ownQuotes ticker side)).quotedCents) := by
  simp only [updateSlot, mapQuoter, modify_apply, ledger, Ledger.setSlot, Quoter.setSlot, Ledger.mk.injEq,
    true_and, and_true]
  funext t d
  by_cases onTicker : t = ticker
  · subst onTicker
    by_cases onSide : d = side
    · subst onSide
      simp
    · simp [Function.update_of_ne onSide]
  · simp [Function.update_of_ne onTicker]

theorem setSlot_self (L : Ledger F) (ticker : Ticker) (side : Side) :
    L.setSlot ticker side (L.slots ticker side) = L := by
  simp [Ledger.setSlot]

theorem setFadePending_quiet (ticker : Ticker) (side : Side) (fadePending : Bool) (s : Desk F X) :
    (setFadePending ticker side fadePending s).2.ledger = s.ledger := by
  rw [setFadePending, ledger_updateSlot]
  exact setSlot_self s.ledger ticker side

theorem posture_updateSlot (ticker : Ticker) (side : Side) (f : QuoteSlot → QuoteSlot) (s : Desk F X) :
    (updateSlot ticker side f s).2.posture = ⟨s.ledger.setSlot ticker side
      ((f (s.quoter.ownQuotes ticker side)).orderId, (f (s.quoter.ownQuotes ticker side)).quotedCents),
      s.quoter.config⟩ := by
  rw [posture, ledger_updateSlot]
  rfl

/-- An order is sent at the price aimed at, and not into the slot on the other side. -/
def Clear (aim : Aim) (ticker : Ticker) (side : Side) (desired : Int) (u : Posture F) : Prop :=
  aim side = some desired ∧ u.Apart ticker side desired

theorem ensure_ok {σ : Type} {condition : Bool} {what : String} {s s' : σ} {result : Unit}
    (finished : ensure condition what s = (.ok result, s')) : condition = true := by
  cases condition with
  | true => rfl
  | false => cases finished

theorem place_admits {ticker : Ticker} {side : Side} {price quantity : Int} {s s' : Desk F X} {order : Order}
    (ran : OrderManager.place venue ticker side price quantity s = (.ok order, s')) :
    0 < quantity ∧ (venue.PostOnly F → order.filledQuantity = {}) := by
  unfold OrderManager.place at ran
  obtain ⟨_, s₁, _, ran⟩ := bind_ok ran
  obtain ⟨_, s₂, positive, ran⟩ := bind_ok ran
  obtain ⟨placed, s₃, issued, ran⟩ := bind_ok ran
  obtain ⟨_, s₄, _, ran⟩ := bind_ok ran
  cases ran
  have answered := congrArg Prod.fst issued
  refine ⟨of_decide_eq_true (ensure_ok positive), fun postOnly => ?_⟩
  exact postOnly _ _ _ _ _ _ _ (Prod.ext answered rfl)

theorem enter_leads {aim : Aim} {side : Side} {ticker : Ticker} {desired : Int} {now : TimePoint}
    {s : Desk F X} (vacant : (s.quoter.ownQuotes ticker side).orderId = "")
    (clear : Clear aim ticker side desired s.posture) :
    Leads posture (Request venue aim ticker side) (enter venue (legOf side) ticker desired now) s := by
  unfold enter
  simp only [legOf_side]
  refine Leads.bind (Leads.quiet rfl) ?_
  rintro s₀ _ ⟨⟩
  refine Leads.ite (fun passed => ?_) (fun _ => Leads.quiet rfl)
  unfold Leads
  rw [bind_apply]
  rcases OrderManager.place_cases venue ticker side ((legOf side).orderPrice desired)
      s.quoter.config.quoteSize s with ⟨what, h⟩ | ⟨order, x, h, on, sided, priced, counted⟩ | ⟨what, x, h⟩
  · rw [h]
    exact .refl
  · rw [h, andThen_ok, fillSlot, posture_updateSlot]
    obtain ⟨positive, unfilled⟩ := place_admits venue h
    exact .single (.placed clear.1 clear.2 vacant passed on sided priced counted positive unfilled)
  · rw [h]
    exact .single (.placeFailed clear.1 clear.2 vacant passed)

theorem amendInPlace_leads {aim : Aim} {side : Side} {ticker : Ticker} {desired : Int} {now : TimePoint}
    {wouldCross : Bool} {s : Desk F X} (held : (s.quoter.ownQuotes ticker side).orderId ≠ "")
    (clear : wouldCross = false → Clear aim ticker side desired s.posture) :
    Leads posture (Request venue aim ticker side)
      (amendInPlace venue (legOf side) ticker desired now wouldCross) s := by
  unfold amendInPlace
  simp only [legOf_side]
  refine Leads.bind (Leads.quiet rfl) ?_
  rintro s₀ _ ⟨⟩
  refine Leads.ite (fun permitted => ?_) (fun _ => Leads.quiet rfl)
  obtain ⟨apart, passed⟩ := (Bool.and_eq_true _ _).mp permitted
  obtain ⟨wanted, clear⟩ := clear (Bool.not_eq_true' _ ▸ apart)
  unfold Leads
  rw [bind_apply]
  -- an amend that failed or was refused leaves the slot with its old order
  rcases OrderManager.amend_cases venue (s.quoter.ownQuotes ticker side).orderId ticker side
      ((legOf side).orderPrice desired) (Quantity.fromContracts s.quoter.config.quoteSize) s
    with ⟨newId, x, h⟩ | ⟨x, h⟩ | ⟨what, x, h⟩
  · rw [h]
    simp only [andThen_ok, bind_apply, andThen_pure_state]
    rw [fillSlot, posture_updateSlot]
    exact .single (.amended wanted clear held passed)
  · rw [h]
    exact .single (.amendFailed wanted clear held passed)
  · rw [h]
    exact .single (.amendFailed wanted clear held passed)

theorem releaseSlot_leads (aim : Aim) (ticker : Ticker) (side : Side) (s : Desk F X) :
    Leads posture (Request venue aim ticker side) (releaseSlot venue ticker side) s := by
  unfold releaseSlot releaseOrder
  refine Leads.bind (Leads.quiet rfl) ?_
  rintro s₀ _ ⟨⟩
  unfold Leads
  simp only [bind_apply]
  rcases OrderManager.cancel_cases venue (s.quoter.ownQuotes ticker side).orderId s
    with ⟨x, h⟩ | ⟨x, h⟩ | ⟨what, x, h⟩
  · rw [h]
    simp only [andThen_ok, ↓reduceIte, pure_apply, bind_apply, andThen_pure_state]
    rw [clearSlot, posture_updateSlot]
    exact .single .released
  · rw [h]
    simp only [andThen_ok, Bool.false_eq_true, ↓reduceIte, bind_apply, get_apply, pure_apply]
    -- a rejected cancel gives the slot up only where the order is no longer tracked
    split
    next untracked =>
      rw [bind_apply, andThen_pure_state, clearSlot, posture_updateSlot]
      exact .single (.forgotten (Option.isNone_iff_eq_none.mp untracked))
    next => exact .single .kept
  · rw [h]
    exact .single .kept

theorem posture_guided (ticker : Ticker) (aim : Aim) :
    Guided venue ticker (posture (X := X)) (Request (F := F) venue aim ticker) (Clear aim ticker) where
  still := ⟨fun _ => rfl, fun _ => rfl, fun _ _ => rfl, fun _ _ _ => rfl⟩
  fade side fadePending s := by
    rw [posture, setFadePending_quiet]
    rfl
  enter := enter_leads venue
  amend := amendInPlace_leads venue
  release := releaseSlot_leads venue aim ticker
  keeps request := And.imp_right request.apart

/-- An update is a chain of requests towards one aim, passive on the visible book. -/
theorem update_requests (ticker : Ticker) (book : LocalOrderbook) (s : Desk F X) :
    ∃ aim, Aimed s ticker (s.bookWithoutOwnQuotes ticker book) aim ∧
      ReflTransGen (fun u v => ∃ side, Request venue aim ticker side u v) s.posture
        (update venue ticker book s).2.posture := by
  refine update_guided (posture_guided venue ticker) (fun aim side desired s' aimed apart => ⟨aimed, ?_⟩) book s
  unfold wouldCross at apart
  rcases Bool.and_eq_false_iff.mp apart with empty | clear
  · exact .inl (bne_eq_false_iff_eq.mp empty)
  · exact .inr clear

theorem update_leads (ticker : Ticker) (book : LocalOrderbook) (s : Desk F X) :
    Leads ledger (QuoteStep ticker) (update venue ticker book) s := by
  obtain ⟨_, _, chain⟩ := update_requests venue ticker book s
  exact ReflTransGen.lift Posture.ledger (fun _ _ ⟨_, request⟩ => request.quoteStep) _ _ chain

end Quoter

end Kalshi
