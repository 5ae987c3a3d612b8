import KalshiMaker.Engine.Steps
import KalshiMaker.Net.ScriptedHost

/-! Every quote slot that is not empty holds an open order, with the slot's market, side and price. -/
namespace Kalshi

open Effect Eff Relation

variable {F X : Type} [Floating F]

namespace Ledger

/-- Open orders carry ids the exchange gave out. -/
def Issued (L : Ledger F) : Prop := ∀ id order, L.order? id = some order → id ∈ issuedIds L.calls

omit [Floating F] in
theorem issuedIds_append (first second : List (Entry F)) :
    issuedIds (first ++ second) = issuedIds first ++ issuedIds second := List.flatMap_append

theorem issued_called {L : Ledger F} {call : Call F} {id : OrderId}
    (issued : id ∈ issuedIds L.calls ∨ id ∈ call.issued) : id ∈ issuedIds (L.called call).calls := by
  unfold called
  rw [issuedIds_append, List.mem_append]
  exact issued.imp_right fun issued => by simpa [issuedIds] using issued

/-- A step that opens no order keeps the open ids issued. -/
theorem Issued.of_shrunk {L L' : Ledger F} (issued : L.Issued) (later : List (Entry F))
    (calls : L'.calls = L.calls ++ later)
    (shrunk : ∀ id order, L'.order? id = some order → ∃ before, L.order? id = some before) : L'.Issued := by
  intro id order found
  obtain ⟨before, was⟩ := shrunk id order found
  rw [calls, issuedIds_append]
  exact List.mem_append_left _ (issued id before was)

theorem order_of_recorded {L : Ledger F} {fill : Fill F} {id : OrderId} {order : Order}
    (found : (L.recorded fill).order? id = some order) :
    ∃ before, L.order? id = some before ∧ order.marketTicker = before.marketTicker ∧
      order.side = before.side ∧ order.priceCents = before.priceCents := by
  obtain ⟨before, was, on, sided, priced, _⟩ := OrderManager.fillOrder_lookup found
  exact ⟨before, was, on, sided, priced⟩

theorem order_of_cancels {L : Ledger F} {cancels : List (OrderId × Bool)} {id : OrderId} {order : Order}
    (found : (L.afterCancels cancels).order? id = some order) :
    L.order? id = some order ∧ (id, true) ∉ cancels := by
  have lookup := L.orderMgr.afterCancels_lookup cancels id
  rw [show (L.orderMgr.afterCancels cancels).openOrders.lookup id = some order from found] at lookup
  split at lookup
  · cases lookup
  next opened => exact ⟨lookup.symm, opened⟩

theorem quoteStep_issued {ticker : Ticker} {L L' : Ledger F} (step : QuoteStep ticker L L')
    (issued : L.Issued) : L'.Issued := by
  cases step with
  | @placed side desired quantity order _ _ _ _ _ =>
    intro id found h
    refine issued_called ?_
    rw [order?_setSlot, order?_withOrders, OrderManager.placed_lookup] at h
    split at h
    next same => exact .inr (by simp [Call.issued, same])
    next => exact .inl (issued id found h)
  | @amended side desired quantity newId held _ =>
    intro id found h
    refine issued_called ?_
    rw [order?_setSlot, order?_withOrders] at h
    cases was : L.order? (L.slots ticker side).1 with
    | none =>
      rw [OrderManager.amended_untracked was] at h
      exact .inl (issued id found h)
    | some order =>
      rw [OrderManager.amended_lookup was] at h
      by_cases new : id = newId
      · subst new
        by_cases same : id = (L.slots ticker side).1
        · exact .inl (same ▸ issued _ order was)
        · exact .inr (by simp [Call.issued, same])
      · rw [if_neg new] at h
        split at h
        · cases h
        · exact .inl (issued id found h)
  | @released side =>
    refine issued.of_shrunk [_] rfl fun id order h => ?_
    rw [order?_setSlot, order?_withOrders, OrderManager.cancelled_lookup] at h
    split at h
    · cases h
    · exact ⟨order, h⟩
  | placeFailed _ | amendFailed _ | forgotten _ | kept =>
    exact issued.of_shrunk [_] rfl fun id order h => ⟨order, h⟩

theorem step_issued {L L' : Ledger F} {action : Action F} (step : Step L action L') (issued : L.Issued) :
    L'.Issued := by
  have cancelled : ∀ cancels, (L.afterCancels cancels).Issued := fun cancels =>
    issued.of_shrunk _ rfl fun id order h => ⟨order, (order_of_cancels h).1⟩
  cases step with
  | quote step => exact quoteStep_issued step issued
  | fill _ _ _ =>
    refine issued.of_shrunk _ (by rw [forgetFilled_calls]; rfl) fun id order h => ?_
    rw [order?, forgetFilled_orderMgr] at h
    obtain ⟨before, was, _⟩ := order_of_recorded h
    exact ⟨before, was⟩
  | flatten _ _ =>
    refine issued.of_shrunk [_] rfl fun id order h => ?_
    obtain ⟨before, was, _⟩ := order_of_recorded h
    exact ⟨before, was⟩
  | refill | reflatten => exact issued.of_shrunk [_] rfl fun id order h => ⟨order, h⟩
  | sweepAll _ => exact cancelled _
  | sweep _ => exact cancelled _
  | cancel => exact cancelled _
  | raise _ | clear | resume | track _ | untrack _ _ _ | forget _ => exact issued

omit [Floating F] in
/-- Calls are only added, and so are ids. -/
theorem issuedIds_sublist {before after later : List (Entry F)} (calls : after = before ++ later) :
    (issuedIds before).Sublist (issuedIds after) := by
  rw [calls, issuedIds_append]
  exact List.sublist_append_left _ _

theorem not_issued_before {L : Ledger F} {call : Call F} {id : OrderId}
    (fresh : (issuedIds (L.called call).calls).Nodup) (new : id ∈ call.issued) :
    id ∉ issuedIds L.calls := by
  rw [called, issuedIds_append] at fresh
  exact fun old => List.disjoint_of_nodup_append fresh old (by simpa [issuedIds] using new)

def Agrees (L : Ledger F) : Prop :=
  ∀ ticker side, (L.slots ticker side).1 ≠ "" → ∃ order, L.order? (L.slots ticker side).1 = some order ∧
    order.marketTicker = ticker ∧ order.side = side ∧
    order.priceCents = (legOf side).orderPrice (L.slots ticker side).2

/-- No two slots hold one id. -/
theorem Agrees.injective {L : Ledger F} (agrees : L.Agrees) {t t' : Ticker} {d d' : Side}
    (held : (L.slots t d).1 ≠ "") (same : (L.slots t d).1 = (L.slots t' d').1) : t = t' ∧ d = d' := by
  obtain ⟨order, found, on, sided, _⟩ := agrees t d held
  obtain ⟨order', found', on', sided', _⟩ := agrees t' d' (same ▸ held)
  rw [same, found'] at found
  cases found
  exact ⟨on.symm.trans on', sided.symm.trans sided'⟩

theorem quoteStep_agrees {ticker : Ticker} {L L' : Ledger F} (step : QuoteStep ticker L L')
    (issued : L.Issued) (fresh : (issuedIds L'.calls).Nodup) (agrees : L.Agrees) : L'.Agrees := by
  cases step with
  | @placed side desired quantity order _ _ on sided priced =>
    have new : order.id ∉ issuedIds L.calls := not_issued_before fresh (by simp [Call.issued])
    intro t d held
    rw [setSlot_slots, slots_withOrders, slots_called] at held ⊢
    rw [order?_setSlot, order?_withOrders, OrderManager.placed_lookup]
    split at held
    next here =>
      rw [if_pos here, if_pos rfl]
      exact ⟨order, rfl, here.1 ▸ on, here.2 ▸ sided, here.2 ▸ priced⟩
    next elsewhere =>
      obtain ⟨other, found, rest⟩ := agrees t d held
      have different : (L.slots t d).1 ≠ order.id := fun same => new (same ▸ issued _ other found)
      rw [if_neg elsewhere, if_neg different]
      exact ⟨other, found, rest⟩
  | @amended side desired quantity newId held _ =>
    obtain ⟨order, found, on, sided, _⟩ := agrees ticker side held
    intro t d held'
    rw [setSlot_slots, slots_withOrders, slots_called] at held' ⊢
    rw [order?_setSlot, order?_withOrders, OrderManager.amended_lookup found]
    split at held'
    next here =>
      rw [if_pos here, if_pos rfl]
      exact ⟨_, rfl, here.1 ▸ on, here.2 ▸ sided, here.2 ▸ rfl⟩
    next elsewhere =>
      obtain ⟨other, found', rest⟩ := agrees t d held'
      have notOld : (L.slots t d).1 ≠ (L.slots ticker side).1 := fun same =>
        elsewhere (agrees.injective held' same)
      have notNew : (L.slots t d).1 ≠ newId := by
        intro same
        have new : newId ∉ issuedIds L.calls :=
          not_issued_before fresh (by simp [Call.issued, ← same, notOld])
        exact new (same ▸ issued _ other found')
      rw [if_neg elsewhere, if_neg notNew, if_neg notOld]
      exact ⟨other, found', rest⟩
  | @released side =>
    intro t d held
    rw [setSlot_slots, slots_withOrders, slots_called] at held ⊢
    rw [order?_setSlot, order?_withOrders, OrderManager.cancelled_lookup]
    split at held
    next here => exact absurd rfl held
    next elsewhere =>
      have different : (L.slots t d).1 ≠ (L.slots ticker side).1 := fun same =>
        elsewhere (agrees.injective held same)
      rw [if_neg elsewhere, if_neg different]
      exact agrees t d held
  | @forgotten side _ =>
    intro t d held
    rw [setSlot_slots, slots_called] at held ⊢
    rw [order?_setSlot, order?_called]
    split at held
    next here => exact absurd rfl held
    next elsewhere =>
      rw [if_neg elsewhere]
      exact agrees t d held
  | placeFailed _ | amendFailed _ | kept => exact agrees

/-- What an action must not do: a fill of an open order names the order's market, and orders that
others placed are not the ones quoted. -/
def Tolerates (L : Ledger F) : Action F → Prop
  | .fill fill => ∀ order, L.order? fill.orderId = some order → order.marketTicker = fill.marketTicker
  | .flatten fill => ∀ ticker side, (L.slots ticker side).1 ≠ "" → (L.slots ticker side).1 ≠ fill.orderId
  | .cancel id => ∀ ticker side, (L.slots ticker side).1 ≠ "" → (L.slots ticker side).1 ≠ id
  | _ => True

/-- A slot that does not hold the filled order agrees after the fill as before. -/
theorem order?_recorded_ne (L : Ledger F) (fill : Fill F) {id : OrderId} (other : id ≠ fill.orderId) :
    (L.recorded fill).order? id = L.order? id :=
  OrderManager.fillOrder_lookup_ne L.orderMgr.openOrders fill other

theorem fill_agrees {L : Ledger F} {fill : Fill F} (tolerates : L.Tolerates (.fill fill))
    (agrees : L.Agrees) : ((L.recorded fill).forgetFilled fill.marketTicker fill.orderId).Agrees := by
  intro t d held
  rw [forgetFilled_slots] at held ⊢
  rw [order?_forgetFilled]
  split at held
  next => exact absurd rfl held
  next kept =>
    rw [if_neg kept]
    obtain ⟨order, found, on, sided, priced⟩ := agrees t d held
    by_cases filled : (L.slots t d).1 = fill.orderId
    · -- the slot's own order is filled in part: a full fill would have emptied the slot
      have here : t = fill.marketTicker := on.symm.trans (tolerates order (filled ▸ found))
      cases remaining : (L.recorded fill).order? fill.orderId with
      | none => exact absurd ⟨remaining, here, filled⟩ kept
      | some order' =>
        obtain ⟨before, was, on', sided', priced'⟩ := order_of_recorded remaining
        rw [filled, was] at found
        cases found
        refine ⟨order', ?_, on'.trans on, sided'.trans sided, priced'.trans priced⟩
        rw [← remaining, ← filled]
        rfl
    · exact ⟨order, (L.order?_recorded_ne fill filled).trans found, on, sided, priced⟩

theorem step_agrees {L L' : Ledger F} {action : Action F} (step : Step L action L')
    (tolerates : L.Tolerates action) (issued : L.Issued) (fresh : (issuedIds L'.calls).Nodup)
    (agrees : L.Agrees) : L'.Agrees := by
  cases step with
  | quote step => exact quoteStep_agrees step issued fresh agrees
  | fill _ _ _ => exact fill_agrees tolerates agrees
  | flatten _ _ =>
    intro t d held
    obtain ⟨order, found, rest⟩ := agrees t d held
    exact ⟨order, (L.order?_recorded_ne _ (tolerates t d held)).trans found, rest⟩
  | sweepAll _ => exact fun t d held => absurd rfl held
  | @sweep ticker cancels sent =>
    intro t d held
    by_cases here : t = ticker
    · subst here
      simp [vacant] at held
    · dsimp only at held ⊢
      rw [Function.update_of_ne here] at held ⊢
      obtain ⟨order, found, on, rest⟩ := agrees t d held
      have untouched : ((L.slots t d).1, true) ∉ cancels := by
        intro member
        obtain ⟨order', found', on'⟩ := sent.open_only _ member
        rw [found] at found'
        cases found'
        exact here (on.symm.trans on')
      refine ⟨order, ?_, on, rest⟩
      exact (L.orderMgr.afterCancels_lookup cancels _).trans ((if_neg untouched).trans found)
  | @cancel id success =>
    intro t d held
    obtain ⟨order, found, rest⟩ := agrees t d held
    have untouched : ((L.slots t d).1, true) ∉ [(id, success)] := by
      intro member
      exact tolerates t d held (congrArg Prod.fst (List.mem_singleton.mp member))
    exact ⟨order, (L.orderMgr.afterCancels_lookup _ _).trans ((if_neg untouched).trans found), rest⟩
  | forget cleared =>
    intro t d held
    rcases cleared t d with same | empty
    · dsimp only at held ⊢
      rw [same] at held ⊢
      exact agrees t d held
    · exact absurd empty held
  | refill | reflatten | raise _ | clear | resume | track _ | untrack _ _ _ => exact agrees

/-- `L'` has no order that `L` has not, on the same market and side. -/
def Within (L' L : Ledger F) : Prop :=
  ∀ id order, L'.order? id = some order → ∃ before, L.order? id = some before ∧
    order.marketTicker = before.marketTicker ∧ order.side = before.side

theorem recorded_within (L : Ledger F) (fill : Fill F) : (L.recorded fill).Within L := by
  intro id order found
  obtain ⟨before, was, on, sided, _⟩ := order_of_recorded found
  exact ⟨before, was, on, sided⟩

theorem afterCancels_within (L : Ledger F) (cancels : List (OrderId × Bool)) :
    (L.afterCancels cancels).Within L :=
  fun _ order found => ⟨order, (order_of_cancels found).1, rfl, rfl⟩

/-- A step other than a quote opens no order and fills no slot. -/
theorem step_shrinks {L L' : Ledger F} {action : Action F} (step : Step L action L')
    (other : ∀ ticker, action ≠ .quote ticker) :
    L'.Within L ∧
    (∀ ticker side, L'.slots ticker side = L.slots ticker side ∨ (L'.slots ticker side).1 = "") := by
  cases step with
  | quote _ => exact absurd rfl (other _)
  -- a fill closes its order at most, and empties that slot
  | @fill fill _ _ _ =>
    refine ⟨fun id order found => L.recorded_within fill id order ?_, fun t d => ?_⟩
    · rwa [order?_forgetFilled] at found
    · rw [forgetFilled_slots]
      split
      · exact .inr rfl
      · exact .inl rfl
  | flatten _ _ => exact ⟨L.recorded_within _, fun _ _ => .inl rfl⟩
  | sweepAll _ => exact ⟨L.afterCancels_within _, fun _ _ => .inr rfl⟩
  | @sweep ticker _ _ =>
    refine ⟨L.afterCancels_within _, fun t d => ?_⟩
    by_cases here : t = ticker
    · subst here
      exact .inr (by simp [vacant])
    · exact .inl (by simp [Function.update_of_ne here])
  | cancel => exact ⟨L.afterCancels_within _, fun _ _ => .inl rfl⟩
  | forget cleared => exact ⟨fun _ order found => ⟨order, found, rfl, rfl⟩, cleared⟩
  | refill | reflatten | raise _ | clear | resume | track _ | untrack _ _ _ =>
    exact ⟨fun _ order found => ⟨order, found, rfl, rfl⟩, fun _ _ => .inl rfl⟩

/-- What an action must not do, no step other than a quote makes it do. -/
theorem step_tolerates {L L' : Ledger F} {action tolerated : Action F} (step : Step L action L')
    (other : ∀ ticker, action ≠ .quote ticker) (tolerates : L.Tolerates tolerated) :
    L'.Tolerates tolerated := by
  obtain ⟨shrunk, emptied⟩ := step_shrinks step other
  have avoids : ∀ id, (∀ t d, (L.slots t d).1 ≠ "" → (L.slots t d).1 ≠ id) →
      ∀ t d, (L'.slots t d).1 ≠ "" → (L'.slots t d).1 ≠ id := by
    intro id avoided t d held
    rcases emptied t d with same | empty
    · rw [same] at held ⊢
      exact avoided t d held
    · exact absurd empty held
  cases tolerated with
  | fill fill =>
    intro order found
    obtain ⟨before, was, on, _⟩ := shrunk _ order found
    exact on.trans (tolerates before was)
  | flatten fill => exact avoids fill.orderId tolerates
  | cancel id => exact avoids id tolerates
  | quote _ | sweepAll | sweep _ | raise | clear _ | resume | track _ | untrack _ | forget => trivial

end Ledger

namespace Process

/-- The ids an event names are the exchange's own: a fill carries the market of its order, and the
orders that others placed are not quoted ones. -/
def Attributed (p : Process F X) : Event F → Prop
  | .fill newFill => ∀ order, p.desk.orderMgr.openOrders.lookup newFill.orderId = some order →
      order.marketTicker = newFill.marketTicker
  | .recordFlatten order => ∀ ticker side, (p.desk.quoter.ownQuotes ticker side).orderId ≠ "" →
      (p.desk.quoter.ownQuotes ticker side).orderId ≠ order.id
  | .cancelPreexistingOrders orders => ∀ order ∈ orders, ∀ ticker side,
      (p.desk.quoter.ownQuotes ticker side).orderId ≠ "" →
        (p.desk.quoter.ownQuotes ticker side).orderId ≠ order.id
  | _ => True

/-- An attributed event permits tolerable actions only, and either no quote or nothing but actions
that are tolerable anywhere. -/
theorem attributed_permits {p : Process F X} {event : Event F} (attributed : Attributed p event) :
    (∀ action, event.permits action → p.desk.ledger.Tolerates action) ∧
    ((∀ action, event.permits action → ∀ ticker, action ≠ .quote ticker) ∨
      ∀ action, event.permits action → ∀ L : Ledger F, L.Tolerates action) := by
  cases event with
  | fill fill =>
    refine ⟨?_, .inl ?_⟩
    · rintro _ (rfl | rfl)
      · exact attributed
      · trivial
    · rintro _ (rfl | rfl) ticker <;> nofun
  | recordFlatten order =>
    refine ⟨?_, .inl ?_⟩
    · rintro _ rfl
      exact attributed
    · rintro _ rfl ticker
      nofun
  | cancelPreexistingOrders orders =>
    refine ⟨?_, .inl ?_⟩
    · rintro _ ⟨order, among, rfl⟩
      exact attributed order among
    · rintro _ ⟨order, among, rfl⟩ ticker
      nofun
  | snapshot _ | trade _ | setReduceOnly _ => exact ⟨fun _ => False.elim, .inl fun _ => False.elim⟩
  | addMarket snapshot =>
    exact ⟨by rintro _ (rfl | rfl) <;> trivial, .inr (by rintro _ (rfl | rfl) <;> exact fun _ => trivial)⟩
  | enforceQuoteSafety =>
    exact ⟨by rintro _ (rfl | ⟨ticker, rfl⟩) <;> trivial,
      .inr (by rintro _ (rfl | ⟨ticker, rfl⟩) <;> exact fun _ => trivial)⟩
  | requoteIdleMarkets =>
    exact ⟨by rintro _ ⟨ticker, rfl⟩; trivial, .inr (by rintro _ ⟨ticker, rfl⟩; exact fun _ => trivial)⟩
  | delta _ _ _ _ | disconnect | cancelAllQuotes | removeMarketIfIdle _ | seedOrderbook _
  | resetQuotes | forgetTicker _ | forgetOrder _ _ | runPortfolioRisk | riskUpdate _
  | updatePortfolio _ | setConstraint _ | halt | clearConstraint _ | resume =>
    exact ⟨by rintro _ rfl; trivial, .inr (by rintro _ rfl; exact fun _ => trivial)⟩

/-- Open orders are issued ones, and while the ids are fresh the slots agree with them. -/
def Accounted (p : Process F X) : Prop :=
  p.desk.ledger.Issued ∧ ((issuedIds p.desk.calls).Nodup → p.desk.ledger.Agrees)

theorem dispatch_accounted (venue : Venue X) (p : Process F X) (event : Event F)
    (attributed : Attributed p event) (accounted : Accounted p) : Accounted (p.dispatch venue event) := by
  obtain ⟨tolerates, stays⟩ := attributed_permits attributed
  let P : Ledger F → Prop := fun L => (L.Issued ∧ ((issuedIds L.calls).Nodup → L.Agrees)) ∧
    ∀ action, event.permits action → L.Tolerates action
  refine (chain_invariant P ?_ (dispatch_leads venue p event) ⟨accounted, tolerates⟩).1
  rintro L L' ⟨action, permitted, step⟩ ⟨⟨issued, agrees⟩, tolerates⟩
  have tolerated : L.Tolerates action := by
    rcases permitted with permitted | rfl
    · exact tolerates action permitted
    · trivial
  refine ⟨⟨Ledger.step_issued step issued, fun fresh => Ledger.step_agrees step tolerated issued fresh (agrees ?_)⟩,
    ?_⟩
  · obtain ⟨later, calls, _⟩ := step.calls
    exact fresh.sublist (Ledger.issuedIds_sublist calls)
  · rcases stays with quoteless | always
    · have other : ∀ ticker, action ≠ .quote ticker := by
        rcases permitted with permitted | rfl
        · exact quoteless action permitted
        · nofun
      exact fun later allowed => Ledger.step_tolerates step other (tolerates later allowed)
    · exact fun later allowed => always later allowed L'

end Process

/-- Each slot that is not empty holds an open order under its market, side and price, and no two
slots hold one order. -/
structure Desk.SlotsAgree (s : Desk F X) : Prop where
  backed : ∀ ticker side, (s.quoter.ownQuotes ticker side).orderId ≠ "" →
    ∃ order, s.orderMgr.openOrders.lookup (s.quoter.ownQuotes ticker side).orderId = some order ∧
      order.marketTicker = ticker ∧ order.side = side ∧
      order.priceCents = (legOf side).orderPrice (s.quoter.ownQuotes ticker side).quotedCents
  apart : ∀ ticker side ticker' side', (s.quoter.ownQuotes ticker side).orderId ≠ "" →
    (s.quoter.ownQuotes ticker side).orderId = (s.quoter.ownQuotes ticker' side').orderId →
    ticker = ticker' ∧ side = side'

/-- After any run from start-up, the slots agree with the registry. -/
theorem slots_agree (venue : Venue X) (session : TradingSession F) (config : QuoterConfig F)
    (limits : RiskLimits F) (outside : X) (flowGuard : Option (FlowImbalanceGuard F))
    (tradeTape : Option (TradeTape F)) (analytics pnlListener : Bool) (events : List (Event F))
    (attributed : (Process.start session config limits outside flowGuard tradeTape analytics
      pnlListener).Meets venue Process.Attributed events)
    (fresh : (issuedIds ((Process.start session config limits outside flowGuard tradeTape analytics
      pnlListener).run venue events).desk.calls).Nodup) :
    ((Process.start session config limits outside flowGuard tradeTape analytics
      pnlListener).run venue events).desk.SlotsAgree := by
  have initial : Process.Accounted (Process.start session config limits outside flowGuard tradeTape
      analytics pnlListener) := by
    refine ⟨fun id order found => ?_, fun _ ticker side held => absurd rfl held⟩
    cases found
  have agrees := (Run.invariant_of_meets Process.Accounted
    (fun p event => Process.dispatch_accounted venue p event) initial attributed).2 fresh
  exact ⟨agrees, fun _ _ _ _ held same => agrees.injective held same⟩

/-- A quoted market whose bid is filled in part, then re-quoted. -/
theorem slots_agree_partial_fill :
    let venue : Venue Script := ⟨⟨"exchange"⟩, Script.host⟩
    let book : Orderbook := { ticker := "M", yes := [⟨40, ⟨1000⟩⟩], no := [⟨40, ⟨1000⟩⟩] }
    let filled : Fill ℚ :=
      { tradeId := "t", orderId := "order-1", marketTicker := "M", side := .yes, priceCents := 40,
        quantity := ⟨100⟩, feeCents := 0, isTaker := false, timestamp := 0 }
    ((Process.start { tickers := ["M"] } {} {} {} none none false false).run venue
      [.seedOrderbook book, .fill filled, .delta "M" .yes 41 ⟨500⟩]).desk.SlotsAgree := by
  intro venue book filled
  let p : Process ℚ Script := Process.start { tickers := ["M"] } {} {} {} none none false false
  have named : ∀ order ∈ (p.run venue [.seedOrderbook book]).desk.orderMgr.openOrders.lookup "order-1",
      order.marketTicker = "M" := by decide +kernel
  exact slots_agree venue _ _ _ _ _ _ _ _ _ ⟨trivial, named, trivial, trivial⟩ (by decide +kernel)

/-- A fill that names an open order of `M` but carries market `N` takes the order out of the registry
and leaves its id in the slot of `M`. -/
theorem misattributed_fill_strands_slot :
    let venue : Venue Script := ⟨⟨"exchange"⟩, Script.host⟩
    let book : Orderbook := { ticker := "M", yes := [⟨40, ⟨1000⟩⟩], no := [⟨40, ⟨1000⟩⟩] }
    let filled : Fill ℚ :=
      { tradeId := "t", orderId := "order-1", marketTicker := "N", side := .yes, priceCents := 40,
        quantity := ⟨1000⟩, feeCents := 0, isTaker := false, timestamp := 0 }
    let desk := ((Process.start { tickers := ["M", "N"] } {} {} {} none none false false).run venue
      [.seedOrderbook book, .fill filled]).desk
    (issuedIds desk.calls).Nodup ∧ ¬ desk.SlotsAgree := by
  intro venue book filled desk
  refine ⟨by decide +kernel, fun agrees => ?_⟩
  have held : (desk.quoter.ownQuotes "M" .yes).orderId = "order-1" := by decide +kernel
  have gone : desk.orderMgr.openOrders.lookup "order-1" = none := by decide +kernel
  obtain ⟨order, found, _⟩ := agrees.backed "M" .yes (by rw [held]; decide)
  rw [held, gone] at found
  cases found

end Kalshi
