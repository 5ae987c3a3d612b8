import KalshiMaker.Engine.Steps
import KalshiMaker.Net.ScriptedHost

/-! The order manager as a mirror of the orders resting at the exchange, with fill messages in flight. -/
namespace Kalshi

open Effect Eff Desk Relation TradingSession

variable {F X : Type} [Floating F]

/-- The session, the exchange, and what is under way from the one to the other. `ids` and `trades` are
the order and trade ids that the exchange has given out. -/
structure Mirror (F X : Type) [Floating F] where
  desk : Desk F X
  resting : OrderId → Option Order := fun _ => none
  flight : List (Fill F) := []
  ids : List OrderId := []
  trades : List String := []

namespace Mirror

/-- A post-only limit order as the exchange enters it. -/
def entered (quoteSize : Int) (id : OrderId) (ticker : Ticker) (side : Side) (priceCents : Int) : Order where
  id
  marketTicker := ticker
  side
  priceCents
  quantity := Quantity.fromContracts quoteSize

/-- What is left on the exchange's book of an order after an execution. -/
def afterExecution (order : Order) (quantity : Quantity) : Option Order :=
  let filledQuantity := order.filledQuantity + quantity
  if order.quantity ≤ filledQuantity then none else some { order with filledQuantity }

variable (venue : Venue X) (quoteSize : Int)

/-- One step of the session, of the exchange, or of the wire between them. Each order sent is for
`quoteSize` contracts; `permitted` says which new ids an amend may be answered with. -/
inductive Step (permitted : Mirror F X → OrderId → OrderId → Prop) (m : Mirror F X) : Mirror F X → Prop where
  | placed {ticker : Ticker} {side : Side} {price : Int} {order : Order}
      (tracked : ticker ∈ m.desk.session.tickers)
      (reply : (OrderManager.place venue ticker side price quoteSize m.desk).1 = .ok order)
      (unfilled : order.filledQuantity = {}) (fresh : order.id ∉ m.ids) :
      Step permitted m
        { m with
          desk := (OrderManager.place venue ticker side price quoteSize m.desk).2
          resting := Function.update m.resting order.id (some (entered quoteSize order.id ticker side price))
          ids := order.id :: m.ids }
  | placeFailed {ticker : Ticker} {side : Side} {price : Int} {stop : Stop String}
      (reply : (OrderManager.place venue ticker side price quoteSize m.desk).1 = .error stop) :
      Step permitted m { m with desk := (OrderManager.place venue ticker side price quoteSize m.desk).2 }
  | amended {id newId : OrderId} {price : Int} {order : Order} (found : m.resting id = some order)
      (room : order.filledQuantity < Quantity.fromContracts quoteSize)
      (reply : (OrderManager.amend venue id order.marketTicker order.side price
        (Quantity.fromContracts quoteSize) m.desk).1 = .ok (some newId))
      (issued : newId = id ∨ newId ∉ m.ids) (allowed : permitted m id newId) :
      Step permitted m
        { m with
          desk := (OrderManager.amend venue id order.marketTicker order.side price
            (Quantity.fromContracts quoteSize) m.desk).2
          resting := Function.update (Function.update m.resting id none) newId
            (some { order with id := newId, priceCents := price, quantity := Quantity.fromContracts quoteSize })
          ids := newId :: m.ids }
  | amendFailed {id : OrderId} {ticker : Ticker} {side : Side} {price : Int}
      (reply : ∀ newId, (OrderManager.amend venue id ticker side price
        (Quantity.fromContracts quoteSize) m.desk).1 ≠ .ok (some newId)) :
      Step permitted m
        { m with desk := (OrderManager.amend venue id ticker side price
            (Quantity.fromContracts quoteSize) m.desk).2 }
  | cancelled {id : OrderId} {order : Order} (found : m.resting id = some order)
      (reply : (OrderManager.cancel venue id m.desk).1 = .ok true) :
      Step permitted m
        { m with
          desk := (OrderManager.cancel venue id m.desk).2
          resting := Function.update m.resting id none }
  | cancelFailed {id : OrderId} (reply : (OrderManager.cancel venue id m.desk).1 ≠ .ok true) :
      Step permitted m { m with desk := (OrderManager.cancel venue id m.desk).2 }
  | executed {order : Order} {fill : Fill F} (found : m.resting fill.orderId = some order)
      (market : fill.marketTicker = order.marketTicker) (sided : fill.side = order.side)
      (priced : fill.priceCents = order.priceCents) (valid : OrderManager.checkFill fill = .ok ())
      (within : fill.quantity ≤ order.remainingQuantity) (named : fill.tradeId ≠ "")
      (fresh : fill.tradeId ∉ m.trades) :
      Step permitted m
        { m with
          resting := Function.update m.resting fill.orderId (afterExecution order fill.quantity)
          flight := m.flight ++ [fill]
          trades := fill.tradeId :: m.trades }
  | delivered {before after : List (Fill F)} {fill : Fill F} (next : m.flight = before ++ fill :: after) :
      Step permitted m { m with desk := (onFill fill m.desk).2, flight := before ++ after }
  | elsewhere {desk : Desk F X} (orders : desk.orderMgr = m.desk.orderMgr)
      (tracks : desk.session.tickers = m.desk.session.tickers) : Step permitted m { m with desk }

/-- An amend is answered with a new id only while no fill message of the order is in flight. -/
def Settled (m : Mirror F X) (id newId : OrderId) : Prop := newId = id ∨ ∀ fill ∈ m.flight, fill.orderId ≠ id

/-- What both sides know of an order. -/
def terms (order : Order) : Ticker × Side × Int × Quantity :=
  (order.marketTicker, order.side, order.priceCents, order.remainingQuantity)

/-- The order manager has the orders that rest at the exchange, with what remains of them. -/
def Mirrored (m : Mirror F X) : Prop :=
  ∀ id, (m.desk.orderMgr.openOrders.lookup id).map terms = (m.resting id).map terms

/-! ### What a request does to the registry -/

theorem place_ok {ticker : Ticker} {side : Side} {price : Int} {s : Desk F X} {order : Order}
    (reply : (OrderManager.place venue ticker side price quoteSize s).1 = .ok order) :
    (OrderManager.place venue ticker side price quoteSize s).2.orderMgr = s.orderMgr.placed order ∧
      (OrderManager.place venue ticker side price quoteSize s).2.session = s.session ∧
      order.marketTicker = ticker ∧ order.side = side ∧ order.priceCents = price ∧
      order.quantity = Quantity.fromContracts quoteSize := by
  rcases OrderManager.place_cases venue ticker side price quoteSize s
    with ⟨what, h⟩ | ⟨other, x, h, on, sided, priced, counted⟩ | ⟨what, x, h⟩
  · rw [h] at reply
    cases reply
  · rw [h] at reply ⊢
    cases reply
    exact ⟨rfl, rfl, on, sided, priced, counted⟩
  · rw [h] at reply
    cases reply

theorem place_positive {ticker : Ticker} {side : Side} {price : Int} {s : Desk F X} {order : Order}
    (reply : (OrderManager.place venue ticker side price quoteSize s).1 = .ok order) : 0 < quoteSize := by
  by_contra nothing
  unfold OrderManager.place ensure at reply
  cases valid : isValidPrice price <;> simp [valid, nothing] at reply

theorem place_failed {ticker : Ticker} {side : Side} {price : Int} {s : Desk F X} {stop : Stop String}
    (reply : (OrderManager.place venue ticker side price quoteSize s).1 = .error stop) :
    (OrderManager.place venue ticker side price quoteSize s).2.orderMgr = s.orderMgr ∧
      (OrderManager.place venue ticker side price quoteSize s).2.session = s.session := by
  rcases OrderManager.place_cases venue ticker side price quoteSize s
    with ⟨what, h⟩ | ⟨other, x, h, _⟩ | ⟨what, x, h⟩
  · rw [h]
    exact ⟨rfl, rfl⟩
  · rw [h] at reply
    cases reply
  · rw [h]
    exact ⟨rfl, rfl⟩

variable {venue} in
theorem amend_ok {id newId : OrderId} {ticker : Ticker} {side : Side} {price : Int} {count : Quantity}
    {s : Desk F X} (reply : (OrderManager.amend venue id ticker side price count s).1 = .ok (some newId)) :
    (OrderManager.amend venue id ticker side price count s).2.orderMgr = s.orderMgr.amended id newId price ∧
      (OrderManager.amend venue id ticker side price count s).2.session = s.session := by
  rcases OrderManager.amend_cases venue id ticker side price count s
    with ⟨other, x, h⟩ | ⟨x, h⟩ | ⟨what, x, h⟩
  · rw [h] at reply ⊢
    cases reply
    exact ⟨rfl, rfl⟩
  · rw [h] at reply
    cases reply
  · rw [h] at reply
    cases reply

variable {venue} in
theorem amend_failed {id : OrderId} {ticker : Ticker} {side : Side} {price : Int} {count : Quantity}
    {s : Desk F X} (reply : ∀ newId, (OrderManager.amend venue id ticker side price count s).1 ≠ .ok (some newId)) :
    (OrderManager.amend venue id ticker side price count s).2.orderMgr = s.orderMgr ∧
      (OrderManager.amend venue id ticker side price count s).2.session = s.session := by
  rcases OrderManager.amend_cases venue id ticker side price count s
    with ⟨other, x, h⟩ | ⟨x, h⟩ | ⟨what, x, h⟩
  · exact absurd (by rw [h]) (reply other)
  · rw [h]
    exact ⟨rfl, rfl⟩
  · rw [h]
    exact ⟨rfl, rfl⟩

variable {venue} in
theorem cancel_ok {id : OrderId} {s : Desk F X} (reply : (OrderManager.cancel venue id s).1 = .ok true) :
    (OrderManager.cancel venue id s).2.orderMgr = s.orderMgr.cancelled id ∧
      (OrderManager.cancel venue id s).2.session = s.session := by
  rcases OrderManager.cancel_cases venue id s with ⟨x, h⟩ | ⟨x, h⟩ | ⟨what, x, h⟩
  · rw [h]
    exact ⟨rfl, rfl⟩
  · rw [h] at reply
    cases reply
  · rw [h] at reply
    cases reply

variable {venue} in
theorem cancel_failed {id : OrderId} {s : Desk F X} (reply : (OrderManager.cancel venue id s).1 ≠ .ok true) :
    (OrderManager.cancel venue id s).2.orderMgr = s.orderMgr ∧
      (OrderManager.cancel venue id s).2.session = s.session := by
  rcases OrderManager.cancel_cases venue id s with ⟨x, h⟩ | ⟨x, h⟩ | ⟨what, x, h⟩
  · exact absurd (by rw [h]) reply
  · rw [h]
    exact ⟨rfl, rfl⟩
  · rw [h]
    exact ⟨rfl, rfl⟩

/-! ### What is in flight -/

/-- How much of an order is executed in messages not yet delivered. -/
def pending (flight : List (Fill F)) (id : OrderId) : Int :=
  (flight.map fun fill => if fill.orderId = id then fill.quantity.centi else 0).sum

omit [Floating F] in
@[simp] theorem pending_nil (id : OrderId) : pending ([] : List (Fill F)) id = 0 := rfl

omit [Floating F] in
theorem pending_append (first second : List (Fill F)) (id : OrderId) :
    pending (first ++ second) id = pending first id + pending second id := by
  simp [pending]

omit [Floating F] in
theorem pending_cons (fill : Fill F) (flight : List (Fill F)) (id : OrderId) :
    pending (fill :: flight) id = (if fill.orderId = id then fill.quantity.centi else 0) + pending flight id := by
  simp [pending]

omit [Floating F] in
/-- A message that has arrived, and what is still under way of each order. -/
theorem pending_take {before after flight : List (Fill F)} {fill : Fill F} (next : flight = before ++ fill :: after)
    (id : OrderId) :
    pending flight id = (if fill.orderId = id then fill.quantity.centi else 0) + pending (before ++ after) id := by
  rw [next, pending_append, pending_append, pending_cons]
  omega

omit [Floating F] in
theorem pending_none {flight : List (Fill F)} {id : OrderId} (none : ∀ fill ∈ flight, fill.orderId ≠ id) :
    pending flight id = 0 := by
  induction flight with
  | nil => rfl
  | cons fill flight ih =>
    rw [pending_cons, if_neg (none fill (by simp)), ih fun other member => none other (by simp [member]), add_zero]

omit [Floating F] in
theorem pending_nonneg {flight : List (Fill F)} (positive : ∀ fill ∈ flight, 0 < fill.quantity.centi) (id : OrderId) :
    0 ≤ pending flight id := by
  induction flight with
  | nil => exact le_rfl
  | cons fill flight ih =>
    have first := positive fill (by simp)
    have rest := ih fun other member => positive other (by simp [member])
    rw [pending_cons]
    split <;> omega

/-- An order as the order manager and as the exchange have it, with so much of it in flight. -/
def Tallies (mine theirs : Option Order) (due : Int) : Prop :=
  match mine, theirs with
  | some own, some order => own.marketTicker = order.marketTicker ∧ own.side = order.side ∧
      own.priceCents = order.priceCents ∧ own.quantity = order.quantity ∧
      own.filledQuantity.centi + due = order.filledQuantity.centi ∧
      order.filledQuantity.centi < order.quantity.centi
  | some own, none => own.filledQuantity.centi + due = own.quantity.centi ∧ 0 < due
  | none, some _ => False
  | none, none => True

/-- The messages in flight are of new executions on tracked markets, under ids that were given out. -/
structure Wired (flight : List (Fill F)) (seen trades ids tickers : List String) : Prop where
  known : ∀ fill ∈ flight, fill.orderId ∈ ids ∧ fill.tradeId ∈ trades ∧ fill.marketTicker ∈ tickers
  valid : ∀ fill ∈ flight, OrderManager.checkFill fill = .ok () ∧ fill.tradeId ≠ ""
  unseen : ∀ fill ∈ flight, fill.tradeId ∉ seen
  distinct : (flight.map Fill.tradeId).Nodup
  recorded : ∀ key ∈ seen, key ∈ trades

omit [Floating F] in
theorem Wired.more_ids {flight : List (Fill F)} {seen trades ids tickers : List String}
    (wired : Wired flight seen trades ids tickers) (id : OrderId) : Wired flight seen trades (id :: ids) tickers where
  known fill member := ⟨List.mem_cons_of_mem _ (wired.known fill member).1, (wired.known fill member).2⟩
  valid := wired.valid
  unseen := wired.unseen
  distinct := wired.distinct
  recorded := wired.recorded

omit [Floating F] in
theorem Wired.pending_fresh {flight : List (Fill F)} {seen trades ids tickers : List String}
    (wired : Wired flight seen trades ids tickers) {id : OrderId} (fresh : id ∉ ids) : pending flight id = 0 := by
  refine pending_none fun fill member same => fresh ?_
  rw [← same]
  exact (wired.known fill member).1

omit [Floating F] in
theorem Wired.positive {flight : List (Fill F)} {seen trades ids tickers : List String}
    (wired : Wired flight seen trades ids tickers) : ∀ fill ∈ flight, 0 < fill.quantity.centi := by
  intro fill member
  have valid := (wired.valid fill member).1
  unfold OrderManager.checkFill at valid
  split at valid
  · cases valid
  · split at valid
    · cases valid
    next positive => exact (Quantity.isPositive_iff _).mp (not_not.mp positive)

/-- What every step keeps, as long as no amend gives up an id with fills of it in flight. -/
structure Sound (m : Mirror F X) : Prop where
  tallies : ∀ id, Tallies (m.desk.orderMgr.openOrders.lookup id) (m.resting id) (pending m.flight id)
  book : ∀ id order, m.resting id = some order →
    order.quantity = Quantity.fromContracts quoteSize ∧ order.marketTicker ∈ m.desk.session.tickers ∧ id ∈ m.ids
  mine : ∀ id, m.desk.orderMgr.openOrders.lookup id ≠ none → id ∈ m.ids
  wired : Wired m.flight m.desk.orderMgr.seenFills m.trades m.ids m.desk.session.tickers

variable {quoteSize}

/-- A step that moves the desk only, and leaves its registry and its markets alone. -/
theorem Sound.aside {m : Mirror F X} (sound : m.Sound quoteSize) {desk : Desk F X}
    (orders : desk.orderMgr = m.desk.orderMgr) (tracks : desk.session.tickers = m.desk.session.tickers) :
    ({ m with desk } : Mirror F X).Sound quoteSize := by
  constructor
  · simpa only [orders] using sound.tallies
  · simpa only [tracks] using sound.book
  · simpa only [orders] using sound.mine
  · simpa only [orders, tracks] using sound.wired

/-- An entry of an updated book is the new one or an old one. -/
theorem update_eq_some {book : OrderId → Option Order} {id other : OrderId} {entry : Option Order} {order : Order}
    (found : Function.update book id entry other = some order) :
    other = id ∧ entry = some order ∨ other ≠ id ∧ book other = some order := by
  by_cases same : other = id
  · subst same
    rw [Function.update_self] at found
    exact .inl ⟨rfl, found⟩
  · rw [Function.update_of_ne same] at found
    exact .inr ⟨same, found⟩

theorem Sound.placed {m : Mirror F X} (sound : m.Sound quoteSize) (positive : 0 < quoteSize) {desk : Desk F X}
    {order : Order} (orders : desk.orderMgr = m.desk.orderMgr.placed order) (session : desk.session = m.desk.session)
    (tracked : order.marketTicker ∈ m.desk.session.tickers)
    (counted : order.quantity = Quantity.fromContracts quoteSize)
    (unfilled : order.filledQuantity = {}) (fresh : order.id ∉ m.ids) :
    ({ m with
      desk
      resting := Function.update m.resting order.id
        (some (entered quoteSize order.id order.marketTicker order.side order.priceCents))
      ids := order.id :: m.ids } : Mirror F X).Sound quoteSize := by
  have lookup := OrderManager.placed_lookup m.desk.orderMgr order
  constructor
  · intro id
    dsimp only
    rw [orders, lookup]
    -- a fresh id has nothing in flight, so the new order tallies with all of it open
    by_cases own : id = order.id
    · subst own
      rw [if_pos rfl, Function.update_self, sound.wired.pending_fresh fresh]
      refine ⟨rfl, rfl, rfl, counted, by simp [unfilled, entered], ?_⟩
      simp only [entered, Quantity.fromContracts_centi]
      omega
    · rw [if_neg own, Function.update_of_ne own]
      exact sound.tallies id
  · intro id other found
    dsimp only
    rw [session]
    rcases update_eq_some found with ⟨rfl, entry⟩ | ⟨_, before⟩
    · cases entry
      exact ⟨rfl, tracked, List.mem_cons_self⟩
    · obtain ⟨sized, on, known⟩ := sound.book id other before
      exact ⟨sized, on, List.mem_cons_of_mem _ known⟩
  · intro id opened
    dsimp only at opened ⊢
    rw [orders, lookup] at opened
    split at opened
    next own => exact List.mem_cons.mpr (.inl own)
    next => exact List.mem_cons_of_mem _ (sound.mine id opened)
  · simp only [orders, session]
    exact sound.wired.more_ids order.id

/-- An amend moves the order to its new id on both sides, with nothing of it in flight. -/
theorem Sound.amended {m : Mirror F X} (sound : m.Sound quoteSize) {desk : Desk F X} {id newId : OrderId}
    {price : Int} {order : Order} (found : m.resting id = some order)
    (orders : desk.orderMgr = m.desk.orderMgr.amended id newId price) (session : desk.session = m.desk.session)
    (room : order.filledQuantity < Quantity.fromContracts quoteSize) (issued : newId = id ∨ newId ∉ m.ids)
    (settled : m.Settled id newId) :
    ({ m with
      desk
      resting := Function.update (Function.update m.resting id none) newId
        (some { order with id := newId, priceCents := price, quantity := Quantity.fromContracts quoteSize })
      ids := newId :: m.ids } : Mirror F X).Sound quoteSize := by
  have tally := sound.tallies id
  obtain ⟨sized, on, known⟩ := sound.book id order found
  rw [found] at tally
  cases mine : m.desk.orderMgr.openOrders.lookup id with
  | none =>
    rw [mine] at tally
    exact tally.elim
  | some own =>
    rw [mine] at tally
    obtain ⟨sameMarket, sameSide, _, sameSize, filled, _⟩ := tally
    have lookup : ∀ other, (m.desk.orderMgr.amended id newId price).openOrders.lookup other = _ :=
      OrderManager.amended_lookup mine
    -- under a new id nothing is in flight yet, and by the settling nothing is under the old one
    have due : pending m.flight newId = pending m.flight id := by
      rcases issued with rfl | fresh
      · rfl
      · rcases settled with rfl | quiet
        · rfl
        · rw [sound.wired.pending_fresh fresh, pending_none quiet]
    have seen : (m.desk.orderMgr.amended id newId price).seenFills = m.desk.orderMgr.seenFills := by
      unfold OrderManager.amended
      rw [mine]
    constructor
    · intro other
      dsimp only
      rw [orders, lookup]
      by_cases new : other = newId
      · subst new
        rw [if_pos rfl, Function.update_self, due]
        exact ⟨sameMarket, sameSide, rfl, sameSize.trans sized, filled, room⟩
      · rw [if_neg new, Function.update_of_ne new]
        by_cases old : other = id
        · subst old
          rw [if_pos rfl, Function.update_self]
          trivial
        · rw [if_neg old, Function.update_of_ne old]
          exact sound.tallies other
    · intro other entry present
      dsimp only
      rw [session]
      rcases update_eq_some present with ⟨rfl, ⟨⟩⟩ | ⟨_, before⟩
      · exact ⟨rfl, on, List.mem_cons_self⟩
      · rcases update_eq_some before with ⟨rfl, ⟨⟩⟩ | ⟨_, before⟩
        obtain ⟨sized, on, known⟩ := sound.book other entry before
        exact ⟨sized, on, List.mem_cons_of_mem _ known⟩
    · intro other opened
      dsimp only at opened ⊢
      rw [orders, lookup] at opened
      split at opened
      next new => exact List.mem_cons.mpr (.inl new)
      next =>
        split at opened
        next => exact absurd rfl opened
        next => exact List.mem_cons_of_mem _ (sound.mine other opened)
    · simp only [orders, session, seen]
      exact sound.wired.more_ids newId

theorem Sound.cancelled {m : Mirror F X} (sound : m.Sound quoteSize) {desk : Desk F X} {id : OrderId}
    (orders : desk.orderMgr = m.desk.orderMgr.cancelled id) (session : desk.session = m.desk.session) :
    ({ m with desk, resting := Function.update m.resting id none } : Mirror F X).Sound quoteSize := by
  have lookup := OrderManager.cancelled_lookup m.desk.orderMgr id
  constructor
  · intro other
    dsimp only
    rw [orders, lookup]
    -- the cancelled order is gone on both sides, and nothing is owed for what is in flight of it
    by_cases own : other = id
    · subst own
      rw [if_pos rfl, Function.update_self]
      trivial
    · rw [if_neg own, Function.update_of_ne own]
      exact sound.tallies other
  · intro other entry found
    dsimp only
    rw [session]
    rcases update_eq_some found with ⟨_, ⟨⟩⟩ | ⟨_, before⟩
    exact sound.book other entry before
  · intro other opened
    dsimp only at opened ⊢
    rw [orders, lookup] at opened
    split at opened
    · exact absurd rfl opened
    · exact sound.mine other opened
  · simp only [orders, session]
    exact sound.wired

theorem Sound.executed {m : Mirror F X} (sound : m.Sound quoteSize) {order : Order} {fill : Fill F}
    (found : m.resting fill.orderId = some order) (market : fill.marketTicker = order.marketTicker)
    (valid : OrderManager.checkFill fill = .ok ()) (within : fill.quantity ≤ order.remainingQuantity)
    (named : fill.tradeId ≠ "") (fresh : fill.tradeId ∉ m.trades) :
    ({ m with
      resting := Function.update m.resting fill.orderId (afterExecution order fill.quantity)
      flight := m.flight ++ [fill]
      trades := fill.tradeId :: m.trades } : Mirror F X).Sound quoteSize := by
  obtain ⟨sized, on, known⟩ := sound.book fill.orderId order found
  have wired : Wired (m.flight ++ [fill]) m.desk.orderMgr.seenFills (fill.tradeId :: m.trades) m.ids
      m.desk.session.tickers := by
    constructor
    · intro other member
      rcases List.mem_append.mp member with before | last
      · obtain ⟨id, trade, tracked⟩ := sound.wired.known other before
        exact ⟨id, List.mem_cons_of_mem _ trade, tracked⟩
      · rw [List.mem_singleton.mp last]
        exact ⟨known, List.mem_cons_self, market ▸ on⟩
    · intro other member
      rcases List.mem_append.mp member with before | last
      · exact sound.wired.valid other before
      · rw [List.mem_singleton.mp last]
        exact ⟨valid, named⟩
    · intro other member
      rcases List.mem_append.mp member with before | last
      · exact sound.wired.unseen other before
      · rw [List.mem_singleton.mp last]
        exact fun seen => fresh (sound.wired.recorded _ seen)
    · rw [List.map_append]
      refine sound.wired.distinct.append (List.nodup_singleton _) ?_
      simp only [List.map_cons, List.map_nil, List.disjoint_singleton, List.mem_map, not_exists, not_and]
      exact fun other member same => fresh (same ▸ (sound.wired.known other member).2.1)
    · exact fun key seen => List.mem_cons_of_mem _ (sound.wired.recorded key seen)
  refine ⟨fun id => ?_, fun id other present => ?_, sound.mine, wired⟩
  · dsimp only
    rw [pending_append, pending_cons, pending_nil, add_zero]
    -- what the exchange takes off the order goes into flight
    by_cases own : id = fill.orderId
    · subst own
      have tally := sound.tallies fill.orderId
      have positive := wired.positive fill (by simp)
      have due := pending_nonneg sound.wired.positive fill.orderId
      rw [Function.update_self, if_pos rfl]
      rw [found] at tally
      simp only [Quantity.le_iff, Order.remainingQuantity, Quantity.sub_centi] at within
      cases mine : m.desk.orderMgr.openOrders.lookup fill.orderId with
      | none =>
        rw [mine] at tally
        exact tally.elim
      | some own =>
        rw [mine] at tally
        obtain ⟨sameMarket, sameSide, samePrice, sameSize, filled, _⟩ := tally
        have sameCenti := congrArg Quantity.centi sameSize
        unfold afterExecution
        dsimp only
        split
        next full =>
          simp only [Quantity.le_iff, Quantity.add_centi] at full
          simp only [Tallies]
          omega
        next partly =>
          simp only [Quantity.le_iff, Quantity.add_centi] at partly
          refine ⟨sameMarket, sameSide, samePrice, sameSize, ?_, ?_⟩
          · simp only [Quantity.add_centi]
            omega
          · simp only [Quantity.add_centi]
            omega
    · rw [Function.update_of_ne own, if_neg (Ne.symm own)]
      rw [add_zero]
      exact sound.tallies id
  · rcases update_eq_some present with ⟨rfl, entry⟩ | ⟨_, before⟩
    · unfold afterExecution at entry
      dsimp only at entry
      split at entry
      · cases entry
      · cases entry
        exact ⟨sized, on, known⟩
    · exact sound.book id other before

theorem Sound.delivered {m : Mirror F X} (sound : m.Sound quoteSize) {before after : List (Fill F)} {fill : Fill F}
    (next : m.flight = before ++ fill :: after) :
    ({ m with desk := (onFill fill m.desk).2, flight := before ++ after } : Mirror F X).Sound quoteSize := by
  have among : fill ∈ m.flight := by simp [next]
  obtain ⟨known, traded, tracked⟩ := sound.wired.known fill among
  obtain ⟨valid, named⟩ := sound.wired.valid fill among
  have new : OrderManager.fillKey fill ∉ m.desk.orderMgr.seenFills := by
    rw [OrderManager.fillKey, if_pos named]
    exact sound.wired.unseen fill among
  obtain ⟨_, orders, tracks⟩ := onFill_tracked tracked valid new
  have stays : ∀ other ∈ before ++ after, other ∈ m.flight := by
    intro other member
    rw [next]
    rcases List.mem_append.mp member with front | back
    · exact List.mem_append_left _ front
    · exact List.mem_append_right _ (List.mem_cons_of_mem _ back)
  have positive := sound.wired.positive
  constructor
  · intro id
    dsimp only
    rw [orders]
    have tally := sound.tallies id
    rw [pending_take next] at tally
    have rest := pending_nonneg (fun other member => positive other (stays other member)) id
    change Tallies ((OrderManager.fillOrder m.desk.orderMgr.openOrders fill).lookup id) _ _
    -- what leaves the flight is taken off our order
    by_cases own : fill.orderId = id
    · subst own
      rw [if_pos rfl] at tally
      cases mine : m.desk.orderMgr.openOrders.lookup fill.orderId with
      | none =>
        rw [mine] at tally
        rw [show (OrderManager.fillOrder m.desk.orderMgr.openOrders fill).lookup fill.orderId = none by
          unfold OrderManager.fillOrder
          rw [mine]
          exact mine]
        cases theirs : m.resting fill.orderId with
        | none => trivial
        | some order =>
          rw [theirs] at tally
          exact tally.elim
      | some own =>
        rw [mine] at tally
        rw [OrderManager.fillOrder_lookup_self mine]
        cases theirs : m.resting fill.orderId with
        | none =>
          rw [theirs] at tally
          split
          next => trivial
          next short =>
            simp only [Quantity.le_iff, Quantity.add_centi, Tallies] at short tally ⊢
            omega
        | some order =>
          rw [theirs] at tally
          obtain ⟨sameMarket, sameSide, samePrice, sameSize, filled, left⟩ := tally
          have sameCenti := congrArg Quantity.centi sameSize
          split
          next full =>
            simp only [Quantity.le_iff, Quantity.add_centi] at full
            omega
          next =>
            refine ⟨sameMarket, sameSide, samePrice, sameSize, ?_, left⟩
            simp only [Quantity.add_centi]
            omega
    · rw [if_neg own, zero_add] at tally
      rw [OrderManager.fillOrder_lookup_ne _ _ (Ne.symm own)]
      exact tally
  · intro id order found
    dsimp only
    rw [tracks]
    exact sound.book id order found
  · intro id opened
    dsimp only at opened ⊢
    rw [orders] at opened
    cases found : (m.desk.orderMgr.bookFill fill).openOrders.lookup id with
    | none => exact absurd found opened
    | some order =>
      obtain ⟨earlier, was, _⟩ := OrderManager.fillOrder_lookup found
      exact sound.mine id (by simp [was])
  · dsimp only
    rw [tracks, orders]
    have apart := sound.wired.distinct
    rw [next, List.map_append, List.map_cons] at apart
    constructor
    · exact fun other member => sound.wired.known other (stays other member)
    · exact fun other member => sound.wired.valid other (stays other member)
    · intro other member seen
      rcases List.mem_cons.mp seen with same | seen
      · rw [OrderManager.fillKey, if_pos named] at same
        have middle := (List.nodup_middle.mp apart)
        rw [← List.map_append] at middle
        exact (List.nodup_cons.mp middle).1 (same ▸ List.mem_map_of_mem member)
      · exact sound.wired.unseen other (stays other member) seen
    · have middle := (List.nodup_middle.mp apart)
      rw [← List.map_append] at middle
      exact (List.nodup_cons.mp middle).2
    · intro key seen
      rcases List.mem_cons.mp seen with same | seen
      · rw [same, OrderManager.fillKey, if_pos named]
        exact traded
      · exact sound.wired.recorded key seen

variable {venue}

theorem step_sound {m m' : Mirror F X} (step : Step venue quoteSize Settled m m') (sound : m.Sound quoteSize) :
    m'.Sound quoteSize := by
  cases step with
  | @placed ticker side price order tracked reply unfilled fresh =>
    obtain ⟨orders, session, on, sided, priced, counted⟩ := place_ok venue quoteSize reply
    subst on sided priced
    exact sound.placed (place_positive venue quoteSize reply) orders session tracked counted unfilled fresh
  -- a request that fails leaves both sides as they were
  | placeFailed reply =>
    obtain ⟨orders, session⟩ := place_failed venue quoteSize reply
    exact sound.aside orders (congrArg TradingSession.tickers session)
  | amended found room reply issued allowed =>
    obtain ⟨orders, session⟩ := amend_ok reply
    exact sound.amended found orders session room issued allowed
  | amendFailed reply =>
    obtain ⟨orders, session⟩ := amend_failed reply
    exact sound.aside orders (congrArg TradingSession.tickers session)
  | cancelled found reply =>
    obtain ⟨orders, session⟩ := cancel_ok reply
    exact sound.cancelled orders session
  | cancelFailed reply =>
    obtain ⟨orders, session⟩ := cancel_failed reply
    exact sound.aside orders (congrArg TradingSession.tickers session)
  | executed found market _ _ valid within named fresh => exact sound.executed found market valid within named fresh
  | delivered next => exact sound.delivered next
  | elsewhere orders tracks => exact sound.aside orders tracks

theorem Sound.mirrored {m : Mirror F X} (sound : m.Sound quoteSize) (arrived : m.flight = []) : m.Mirrored := by
  intro id
  have tally := sound.tallies id
  rw [arrived, pending_nil] at tally
  cases mine : m.desk.orderMgr.openOrders.lookup id with
  | none =>
    cases theirs : m.resting id with
    | none => rfl
    | some order =>
      rw [mine, theirs] at tally
      exact tally.elim
  | some own =>
    cases theirs : m.resting id with
    | none =>
      rw [mine, theirs] at tally
      exact absurd tally.2 (lt_irrefl 0)
    | some order =>
      rw [mine, theirs] at tally
      obtain ⟨sameMarket, sameSide, samePrice, sameSize, filled, _⟩ := tally
      have remaining : own.remainingQuantity = order.remainingQuantity := by
        refine Quantity.ext_centi ?_
        simp only [Order.remainingQuantity, Quantity.sub_centi, sameSize]
        omega
      simp [terms, sameMarket, sameSide, samePrice, remaining]

/-- A session at start-up, and an exchange without orders of it. -/
def start (session : TradingSession F) (config : QuoterConfig F) (limits : RiskLimits F) (outside : X)
    (flowGuard : Option (FlowImbalanceGuard F)) (tradeTape : Option (TradeTape F)) (analytics pnlListener : Bool) :
    Mirror F X where
  desk := (Process.start session config limits outside flowGuard tradeTape analytics pnlListener).desk

theorem start_sound (session : TradingSession F) (config : QuoterConfig F) (limits : RiskLimits F) (outside : X)
    (flowGuard : Option (FlowImbalanceGuard F)) (tradeTape : Option (TradeTape F)) (analytics pnlListener : Bool) :
    (start session config limits outside flowGuard tradeTape analytics pnlListener).Sound quoteSize := by
  constructor
  · exact fun _ => trivial
  · intro id order found
    cases found
  · exact fun _ absent => absurd rfl absent
  · exact ⟨nofun, nofun, nofun, List.nodup_nil, nofun⟩

end Mirror

/-- If no id is given up while fills under it are in flight, the open orders are those resting at the
exchange once all messages have arrived. -/
theorem open_orders_mirror (venue : Venue X) (quoteSize : Int) (session : TradingSession F) (config : QuoterConfig F)
    (limits : RiskLimits F) (outside : X) (flowGuard : Option (FlowImbalanceGuard F))
    (tradeTape : Option (TradeTape F)) (analytics pnlListener : Bool) {m : Mirror F X}
    (run : ReflTransGen (Mirror.Step venue quoteSize Mirror.Settled)
      (Mirror.start session config limits outside flowGuard tradeTape analytics pnlListener) m)
    (arrived : m.flight = []) : m.Mirrored := by
  have sound : m.Sound quoteSize := by
    refine chain_invariant (Mirror.Sound quoteSize) (fun _ _ step => Mirror.step_sound step) run ?_
    exact Mirror.start_sound session config limits outside flowGuard tradeTape analytics pnlListener
  exact sound.mirrored arrived

namespace Mirror

/-! ### A fill and an amend of one order -/

def raceVenue : Venue Script := ⟨⟨"exchange"⟩, Script.host⟩

def raceStart : Mirror ℚ Script := start { tickers := ["M"] } {} {} {} none none false false

def racePlaced : Mirror ℚ Script where
  desk := (OrderManager.place raceVenue "M" .yes 40 10 raceStart.desk).2
  resting := Function.update raceStart.resting "order-1" (some (entered 10 "order-1" "M" .yes 40))
  ids := ["order-1"]

def raceFill : Fill ℚ where
  tradeId := "trade"
  orderId := "order-1"
  marketTicker := "M"
  side := .yes
  priceCents := 40
  quantity := ⟨400⟩
  feeCents := 0
  isTaker := false
  timestamp := 0

def raceExecuted : Mirror ℚ Script :=
  { racePlaced with
    resting := Function.update racePlaced.resting "order-1"
      (afterExecution (entered 10 "order-1" "M" .yes 40) ⟨400⟩)
    flight := [raceFill]
    trades := ["trade"] }

theorem race_executed (permitted : Mirror ℚ Script → OrderId → OrderId → Prop) :
    ReflTransGen (Step raceVenue 10 permitted) raceStart raceExecuted := by
  have placed : Step raceVenue 10 permitted raceStart racePlaced :=
    @Step.placed _ _ _ raceVenue 10 permitted raceStart "M" .yes 40 (entered 10 "order-1" "M" .yes 40) (by decide)
      (by decide +kernel) rfl (by decide)
  have executed : Step raceVenue 10 permitted racePlaced raceExecuted :=
    @Step.executed _ _ _ raceVenue 10 permitted racePlaced (entered 10 "order-1" "M" .yes 40) raceFill
      (by decide +kernel) rfl rfl rfl (by decide +kernel) (by decide +kernel) (by decide) (by decide)
  exact .tail (.single placed) executed

/-- The exchange's entry of the order once 4 of its 10 contracts are filled. -/
def racePartly : Order := { entered 10 "order-1" "M" .yes 40 with filledQuantity := ⟨400⟩ }

/-- An amend of the order to 41, answered with a new id. -/
def raceAmend (m : Mirror ℚ Script) : Mirror ℚ Script :=
  { m with
    desk := (OrderManager.amend raceVenue "order-1" "M" .yes 41 (Quantity.fromContracts 10) m.desk).2
    resting := Function.update (Function.update m.resting "order-1" none) "order-2"
      (some { racePartly with id := "order-2", priceCents := 41, quantity := Quantity.fromContracts 10 })
    ids := "order-2" :: m.ids }

def raceDeliver (m : Mirror ℚ Script) : Mirror ℚ Script :=
  { m with desk := (onFill raceFill m.desk).2, flight := [] }

theorem race_delivered {permitted : Mirror ℚ Script → OrderId → OrderId → Prop} {m : Mirror ℚ Script}
    (only : m.flight = [raceFill]) : Step raceVenue 10 permitted m (raceDeliver m) :=
  @Step.delivered _ _ _ raceVenue 10 permitted m [] [] raceFill only

end Mirror

/-- The message arrives before the amend. -/
theorem open_orders_mirror_fill_first :
    (Mirror.raceAmend (Mirror.raceDeliver Mirror.raceExecuted)).Mirrored := by
  refine open_orders_mirror Mirror.raceVenue 10 { tickers := ["M"] } {} {} {} none none false false ?_ rfl
  refine .tail (.tail (Mirror.race_executed Mirror.Settled) (Mirror.race_delivered rfl)) ?_
  exact @Mirror.Step.amended _ _ _ Mirror.raceVenue 10 Mirror.Settled (Mirror.raceDeliver Mirror.raceExecuted)
    "order-1" "order-2" 41 Mirror.racePartly (by decide +kernel) (by decide +kernel) (by decide +kernel)
    (.inr (by decide +kernel)) (.inr (by decide +kernel))

/-- The message arrives after the amend, under the id given up: 6 contracts rest at the exchange, and
the order manager has 10. -/
theorem fill_under_old_id_lost :
    ∃ m : Mirror ℚ Script, ReflTransGen (Mirror.Step Mirror.raceVenue 10 fun _ _ _ => True) Mirror.raceStart m ∧
      m.flight = [] ∧ ¬ m.Mirrored ∧
      (m.resting "order-2").map Order.remainingQuantity = some ⟨600⟩ ∧
      (m.desk.orderMgr.openOrders.lookup "order-2").map Order.remainingQuantity = some ⟨1000⟩ := by
  refine ⟨Mirror.raceDeliver (Mirror.raceAmend Mirror.raceExecuted), ?_, rfl, fun mirrored => ?_, by decide +kernel,
    by decide +kernel⟩
  · refine .tail (.tail (Mirror.race_executed fun _ _ _ => True) ?_) (Mirror.race_delivered rfl)
    exact @Mirror.Step.amended _ _ _ Mirror.raceVenue 10 (fun _ _ _ => True) Mirror.raceExecuted
      "order-1" "order-2" 41 Mirror.racePartly (by decide +kernel) (by decide +kernel) (by decide +kernel)
      (.inr (by decide +kernel)) trivial
  · have both := mirrored "order-2"
    revert both
    decide +kernel

end Kalshi
