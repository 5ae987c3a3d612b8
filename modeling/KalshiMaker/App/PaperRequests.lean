import KalshiMaker.App.Backtest
import KalshiMaker.Engine.Steps

/-! The order manager's requests as the paper exchange answers them. -/
namespace Kalshi

open Effect Eff Desk Relation PaperTransport TradingSession

variable [Elementary ℚ] {Y : Type} (world : Host Y) (rest : RestClient)

/-- A limit order before the exchange has given it an id. -/
def newOrder (ticker : Ticker) (side : Side) (priceCents : Int) (quantity : Quantity) : Order where
  id := ""
  marketTicker := ticker
  side
  priceCents
  quantity

/-- The order as the order manager registers it. -/
def placedOnPaper (order : Order) (id : OrderId) : Order :=
  { order with id, createdAt := kPaperOrderTsMs * nanosPerMilli }

/-- The outside once the paper exchange has taken an order in. -/
def PaperWorld.accepting (x : PaperWorld ℚ Y) (order : Order) : PaperWorld ℚ Y where
  paper := x.paper.accept order (world.systemNow x.rest).1
  rest := (world.systemNow x.rest).2

theorem post_orderFields (ticker : Ticker) (side : Side) (price : Int) (count : Quantity)
    (more : List (String × Json)) (url : String) (x : PaperWorld ℚ Y) :
    (PaperWorld.host world).post url
        (.obj (RestClient.orderFields ticker side price count "good_till_canceled" ++ more)) x =
      (.ok (acceptance x.paper.nextOrderId), x.accepting world (newOrder ticker side price
        (Quantity.fromContracts (Floating.round ((count.centi : ℚ) / 100))))) := by
  change PaperWorld.post world _ x = _
  unfold PaperWorld.post
  rw [readOrder_orderFields]
  rfl

omit [Elementary ℚ] in
theorem zero_toFpString : "0.00" = Quantity.toFpString {} := by decide +kernel

theorem placedOrder_acceptance (ticker : Ticker) (side : Side) (price : Int) {quantity : Int}
    (positive : 0 < quantity) (id : OrderId) :
    placedOrder ℚ (acceptance id) ticker side price (Quantity.fromContracts quantity) .limit =
      .ok (placedOnPaper (newOrder ticker side price (Quantity.fromContracts quantity)) id) := by
  have unfilled : parseFpCount ℚ "0.00" = .ok {} := by
    rw [parseFpCount, zero_toFpString, fromFpString_toFpString]
    rfl
  have more : ¬ Quantity.fromContracts quantity ≤ {} := by
    rw [Quantity.le_iff, Quantity.fromContracts_centi]
    simp only [not_le]
    omega
  simp [placedOrder, acceptance, checkResponse, HttpResponse.parse, Json.at, Json.find?, Json.getStr, Json.getInt,
    Json.valueStr, bind, Except.bind, pure, Except.pure, unfilled, more, placedOnPaper, newOrder]

theorem placeOrder_paper (ticker : Ticker) (side : Side) (price : Int) {quantity : Int} (positive : 0 < quantity)
    (x : PaperWorld ℚ Y) :
    rest.placeOrder (PaperWorld.host world) ℚ ticker side price (Quantity.fromContracts quantity) .limit x =
      (.ok (placedOnPaper (newOrder ticker side price (Quantity.fromContracts quantity)) x.paper.nextOrderId),
        x.accepting world (newOrder ticker side price (Quantity.fromContracts quantity))) := by
  simp only [RestClient.placeOrder, bind_apply, Host.request, reduceCtorEq, ↓reduceIte]
  rw [post_orderFields, round_fromContracts]
  simp only [ofExcept_ok, andThen_ok, placedOrder_acceptance ticker side price positive]

theorem amendOrder_paper (orderId : OrderId) (ticker : Ticker) (side : Side) (price : Int) (count : Quantity)
    (x : PaperWorld ℚ Y) :
    rest.amendOrder (PaperWorld.host world) orderId ticker side price count x =
      (.ok (some x.paper.nextOrderId), x.accepting world (newOrder ticker side price
        (Quantity.fromContracts (Floating.round ((count.centi : ℚ) / 100))))) := by
  simp only [RestClient.amendOrder, bind_apply, Host.request]
  rw [post_orderFields]
  rfl

theorem cancelOrder_paper (orderId : OrderId) (x : PaperWorld ℚ Y) :
    rest.cancelOrder (PaperWorld.host world) orderId x =
      (.ok true, { x with paper := x.paper.delete (rest.ordersUrl ++ "/" ++ orderId) }) := rfl

/-! ### On the desk -/

variable (s : Desk ℚ (PaperWorld ℚ Y))

/-- An order the checks refuse never leaves; any other one is accepted under the next id. -/
theorem place_paper (ticker : Ticker) (side : Side) (price quantity : Int) :
    (∃ what, OrderManager.place (paperVenue rest world) ticker side price quantity s =
        (.error (.abort what), s)) ∨
    (isValidPrice price = true ∧ 0 < quantity ∧
      OrderManager.place (paperVenue rest world) ticker side price quantity s =
        let order := newOrder ticker side price (Quantity.fromContracts quantity)
        let placed := placedOnPaper order s.outside.paper.nextOrderId
        (.ok placed, (s.called (.place ticker side price quantity (some placed.id))
          (s.outside.accepting world order)).withOrders (s.orderMgr.placed placed))) := by
  unfold OrderManager.place ensure
  cases valid : isValidPrice price with
  | false => exact .inl ⟨_, rfl⟩
  | true =>
    by_cases positive : 0 < quantity
    · right
      refine ⟨rfl, positive, ?_⟩
      have placed := placeOrder_paper world rest ticker side price positive s.outside
      simp [positive, issue, paperVenue, placed, mapOrders, called, withOrders, Except.toOption]
    · exact .inl ⟨_, by simp [positive]; rfl⟩

theorem amend_paper (orderId : OrderId) (ticker : Ticker) (side : Side) (price : Int) (count : Quantity) :
    OrderManager.amend (paperVenue rest world) orderId ticker side price count s =
      let newId := s.outside.paper.nextOrderId
      let added := newOrder ticker side price (Quantity.fromContracts (Floating.round ((count.centi : ℚ) / 100)))
      (.ok (some newId), (s.called (.amend orderId ticker side price count (some newId))
        (s.outside.accepting world added)).withOrders (s.orderMgr.amended orderId newId price)) := by
  have amended := amendOrder_paper world rest orderId ticker side price count s.outside
  unfold OrderManager.amend
  simp [issue, paperVenue, amended, mapOrders, called, withOrders, Except.toOption]

theorem cancel_paper (orderId : OrderId) :
    OrderManager.cancel (paperVenue rest world) orderId s =
      (.ok true, (s.called (.cancel orderId true) { s.outside with
        paper := s.outside.paper.delete (rest.ordersUrl ++ "/" ++ orderId) }).withOrders
          (s.orderMgr.cancelled orderId)) := by
  unfold OrderManager.cancel
  simp [issue, paperVenue, cancelOrder_paper, mapOrders, called, withOrders, Except.toOption]

/-! ### Frames -/

section

variable {world rest} {υ : Type} {view : Desk ℚ (PaperWorld ℚ Y) → υ} {R : υ → υ → Prop}

/-- What the quoter preserves on a view, and every print, each frame preserves. -/
theorem handleFrame_keeps (P : υ → Prop) (reacts : Reacts (paperVenue rest world) view fun _ => R)
    (preserved : ∀ u v, R u v → P u → P v)
    (adopted : ∀ s ticker, P (view s) → P (view { s with session := s.session.adopt ticker }))
    (printed : ∀ print s, P (view s) → P (view (simulateMakerFills world print s).2))
    (taped : ∀ s tradeTape, view { s with tradeTape } = view s) (frame : Frame) {s : Desk ℚ (PaperWorld ℚ Y)}
    (holds : P (view s)) : P (view (handleFrame world rest frame s).2) := by
  cases frame with
  | snapshot snapshot =>
    have unfolded : handleFrame world rest (.snapshot snapshot) s =
        (if s.session.isTracked snapshot.ticker then onSnapshot (paperVenue rest world) snapshot
        else addMarket (paperVenue rest world) snapshot) s := rfl
    rw [unfolded]
    split
    · exact chain_invariant P preserved (markTicked_leads reacts snapshot.ticker _ s) holds
    · rw [addMarket_eq]
      exact chain_invariant P preserved (seedOrderbook_leads reacts snapshot _) (adopted s _ holds)
  | delta ticker side priceCents qty =>
    refine chain_invariant P preserved ?_ holds
    exact (onDelta_leads reacts ticker side priceCents qty s).mono fun _ _ step => step.2
  | trade print =>
    have done := printed print s holds
    have unfolded : handleFrame world rest (.trade print) s =
        andThen (fun _ => onTrade print) (simulateMakerFills world print s) := rfl
    rw [unfolded]
    cases ran : simulateMakerFills world print s with
    | mk r t =>
      rw [ran] at done
      cases r with
      | error stop => exact done
      | ok filled =>
        rw [andThen_ok]
        unfold onTrade
        rw [modify_apply, taped]
        exact done

end

theorem injectFrame_cases (p : Process ℚ (PaperWorld ℚ Y)) (frame : Frame) :
    p.alive = false ∧ p.injectFrame world rest frame = p ∨
      p.alive = true ∧ (p.injectFrame world rest frame).desk = (handleFrame world rest frame p.desk).2 := by
  unfold Process.injectFrame
  cases p.alive with
  | false => exact .inl ⟨rfl, rfl⟩
  | true =>
    right
    cases handleFrame world rest frame p.desk with
    | mk r desk => rcases r with (_ | _) | _ <;> exact ⟨rfl, rfl⟩

end Kalshi
