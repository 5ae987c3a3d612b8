import KalshiMaker.Properties.SlotAgreement

/-! At most one live quote a side: every open order is the one its slot holds, as long as no sweep
leaves an order behind. -/
namespace Kalshi

open Effect Eff Relation

variable {F X : Type} [Floating F]

/-- The ids whose cancel was answered so, one for each call. -/
def answeredIds (success : Bool) (calls : List (Entry F)) : List OrderId :=
  calls.flatMap fun entry =>
    match entry.call with
    | .cancel id answer => if answer = success then [id] else []
    | .place _ _ _ _ _ | .amend _ _ _ _ _ _ | .recordFill _ _ => []

omit [Floating F] in
theorem answeredIds_append (success : Bool) (first second : List (Entry F)) :
    answeredIds success (first ++ second) = answeredIds success first ++ answeredIds success second :=
  List.flatMap_append

omit [Floating F] in
theorem mem_answeredIds {success : Bool} {cancels : List (OrderId × Bool)} {tickers : List Ticker}
    {id : OrderId} :
    id ∈ answeredIds success (cancels.map fun sent => (⟨.cancel sent.1 sent.2, tickers⟩ : Entry F)) ↔
      (id, success) ∈ cancels := by
  simp only [answeredIds, List.flatMap_map, List.mem_flatMap]
  constructor
  · rintro ⟨⟨other, answer⟩, sent, member⟩
    dsimp only at member
    split at member
    next same =>
      rw [List.mem_singleton.mp member, ← same]
      exact sent
    next => cases member
  · exact fun sent => ⟨(id, success), sent, by simp⟩

namespace Ledger

/-- Ids of open orders and of quote slots were given out by the exchange. -/
structure Filed (L : Ledger F) : Prop where
  issued : L.Issued
  slotsIssued : ∀ ticker side, (L.slots ticker side).1 ≠ "" →
    (L.slots ticker side).1 ∈ issuedIds L.calls

structure Held (L : Ledger F) : Prop where
  inSlot : ∀ id order, L.order? id = some order → (L.slots order.marketTicker order.side).1 = id
  matching : ∀ ticker side order, L.order? (L.slots ticker side).1 = some order →
    order.marketTicker = ticker ∧ order.side = side

theorem quoteStep_filed {ticker : Ticker} {L L' : Ledger F} (step : QuoteStep ticker L L')
    (filed : L.Filed) : L'.Filed := by
  refine ⟨quoteStep_issued step filed.issued, ?_⟩
  cases step with
  | @placed side desired quantity order _ _ _ _ _ =>
    intro t d held
    rw [setSlot_slots, slots_withOrders, slots_called] at held ⊢
    refine issued_called ?_
    split
    · exact .inr (by simp [Call.issued])
    next elsewhere =>
      rw [if_neg elsewhere] at held
      exact .inl (filed.slotsIssued t d held)
  | @amended side desired quantity newId was _ =>
    intro t d held
    rw [setSlot_slots, slots_withOrders, slots_called] at held ⊢
    refine issued_called ?_
    split
    -- an amend may keep its id, which was issued when the order was placed
    · by_cases same : newId = (L.slots ticker side).1
      · exact .inl (same ▸ filed.slotsIssued ticker side was)
      · exact .inr (by simp [Call.issued, same])
    next elsewhere =>
      rw [if_neg elsewhere] at held
      exact .inl (filed.slotsIssued t d held)
  | @released side | @forgotten side _ =>
    intro t d held
    refine issued_called (.inl ?_)
    rw [setSlot_slots] at held ⊢
    split at held
    · exact absurd rfl held
    next elsewhere =>
      rw [if_neg elsewhere]
      exact filed.slotsIssued t d held
  | placeFailed _ | amendFailed _ | kept =>
    exact fun t d held => issued_called (.inl (filed.slotsIssued t d held))

theorem step_filed {L L' : Ledger F} {action : Action F} (step : Step L action L') (filed : L.Filed) :
    L'.Filed := by
  by_cases quotes : ∃ ticker, action = .quote ticker
  · obtain ⟨ticker, rfl⟩ := quotes
    cases step with
    | quote step => exact quoteStep_filed step filed
  · refine ⟨step_issued step filed.issued, fun t d held => ?_⟩
    obtain ⟨later, calls, _⟩ := step.calls
    rw [calls, issuedIds_append]
    refine List.mem_append_left _ ?_
    rcases (step_shrinks step (not_exists.mp quotes)).2 t d with same | empty
    · rw [same] at held ⊢
      exact filed.slotsIssued t d held
    · exact absurd empty held

/-- An id is named if the exchange gives out no empty one. -/
theorem Filed.order?_empty {L : Ledger F} (filed : L.Filed) (named : "" ∉ issuedIds L.calls) :
    L.order? "" = none := by
  cases found : L.order? "" with
  | none => rfl
  | some order => exact absurd (filed.issued "" order found) named

/-- A new id is in no slot. -/
theorem Filed.slot_ne_new {L : Ledger F} {call : Call F} {id : OrderId} (filed : L.Filed)
    (fresh : (issuedIds (L.called call).calls).Nodup) (named : "" ∉ issuedIds (L.called call).calls)
    (new : id ∈ call.issued) (ticker : Ticker) (side : Side) : (L.slots ticker side).1 ≠ id := by
  intro same
  have old : id ∉ issuedIds L.calls := not_issued_before fresh new
  by_cases empty : (L.slots ticker side).1 = ""
  · have isNamed : id ≠ "" := fun none => named (none ▸ issued_called (.inr new))
    exact isNamed (same.symm.trans empty)
  · exact old (same ▸ filed.slotsIssued ticker side empty)

/-- Orders that close and slots that are emptied of closed orders keep every open order held. -/
theorem Held.of_within {L L' : Ledger F} (held : L.Held) (within : L'.Within L)
    (kept : ∀ ticker side, (L'.slots ticker side).1 = (L.slots ticker side).1 ∨
      (L'.slots ticker side).1 = "" ∧ L'.order? (L.slots ticker side).1 = none)
    (anonymous : L.order? "" = none) : L'.Held := by
  constructor
  · intro id order found
    obtain ⟨before, was, on, sided⟩ := within id order found
    have slot : (L.slots order.marketTicker order.side).1 = id := by
      rw [on, sided]
      exact held.inSlot id before was
    rcases kept order.marketTicker order.side with same | ⟨_, closed⟩
    · exact same.trans slot
    · rw [slot, found] at closed
      cases closed
  · intro ticker side order found
    obtain ⟨before, was, on, sided⟩ := within _ order found
    rcases kept ticker side with same | ⟨empty, _⟩
    · rw [same] at was
      obtain ⟨onTicker, onSide⟩ := held.matching ticker side before was
      exact ⟨on.trans onTicker, sided.trans onSide⟩
    · rw [empty, anonymous] at was
      cases was

theorem placed_held {L : Ledger F} {ticker : Ticker} {side : Side} {order : Order} {desired : Int}
    (held : L.Held) (vacant : (L.slots ticker side).1 = "") (on : order.marketTicker = ticker)
    (sided : order.side = side) (anonymous : L.order? "" = none)
    (new : ∀ t d, (L.slots t d).1 ≠ order.id) :
    ((L.withOrders (L.orderMgr.placed order)).setSlot ticker side (order.id, desired)).Held := by
  constructor
  · intro id other found
    rw [order?_setSlot, order?_withOrders, OrderManager.placed_lookup] at found
    rw [setSlot_slots, slots_withOrders]
    split at found
    next same =>
      cases found
      rw [if_pos ⟨on, sided⟩, same]
    next =>
      have slot := held.inSlot id other found
      -- the slot was vacant, so no other order can be in it
      by_cases here : other.marketTicker = ticker ∧ other.side = side
      · rw [here.1, here.2, vacant] at slot
        subst slot
        exact absurd (found.symm.trans anonymous) nofun
      · rw [if_neg here]
        exact slot
  · intro t d other found
    rw [order?_setSlot, order?_withOrders, OrderManager.placed_lookup, setSlot_slots,
      slots_withOrders] at found
    by_cases here : t = ticker ∧ d = side
    · rw [if_pos here, if_pos rfl] at found
      cases found
      exact ⟨on.trans here.1.symm, sided.trans here.2.symm⟩
    · rw [if_neg here, if_neg (new t d)] at found
      exact held.matching t d other found

theorem amended_held {L : Ledger F} {ticker : Ticker} {side : Side} {newId : OrderId} {price desired : Int}
    (held : L.Held) (new : newId ≠ (L.slots ticker side).1 →
      L.order? newId = none ∧ ∀ t d, (L.slots t d).1 ≠ newId) :
    ((L.withOrders (L.orderMgr.amended (L.slots ticker side).1 newId price)).setSlot ticker side
      (newId, desired)).Held := by
  -- an order that is no longer tracked is amended in its slot alone
  cases was : L.order? (L.slots ticker side).1 with
  | none =>
    rw [OrderManager.amended_untracked was]
    constructor
    · intro id other found
      have slot := held.inSlot id other found
      rw [setSlot_slots, slots_withOrders]
      by_cases here : other.marketTicker = ticker ∧ other.side = side
      · rw [here.1, here.2] at slot
        rw [slot] at was
        exact absurd (found.symm.trans was) nofun
      · rw [if_neg here]
        exact slot
    · intro t d other found
      rw [order?_setSlot, setSlot_slots, slots_withOrders] at found
      by_cases here : t = ticker ∧ d = side
      · rw [if_pos here] at found
        have untracked : L.order? newId = none := by
          by_cases same : newId = (L.slots ticker side).1
          · rw [same, was]
          · exact (new same).1
        exact absurd (found.symm.trans untracked) nofun
      · rw [if_neg here] at found
        exact held.matching t d other found
  | some order =>
    obtain ⟨on, sided⟩ := held.matching ticker side order was
    constructor
    · intro id other found
      rw [order?_setSlot, order?_withOrders, OrderManager.amended_lookup was] at found
      rw [setSlot_slots, slots_withOrders]
      split at found
      next same =>
        cases found
        rw [if_pos ⟨on, sided⟩, same]
      next =>
        split at found
        · cases found
        next notOld =>
          have slot := held.inSlot id other found
          by_cases here : other.marketTicker = ticker ∧ other.side = side
          · rw [here.1, here.2] at slot
            exact absurd slot.symm notOld
          · rw [if_neg here]
            exact slot
    · intro t d other found
      rw [order?_setSlot, order?_withOrders, OrderManager.amended_lookup was, setSlot_slots,
        slots_withOrders] at found
      by_cases here : t = ticker ∧ d = side
      · rw [if_pos here, if_pos rfl] at found
        cases found
        exact ⟨on.trans here.1.symm, sided.trans here.2.symm⟩
      · rw [if_neg here] at found
        -- another slot with the old id would hold the same order
        have apart : (L.slots t d).1 ≠ (L.slots ticker side).1 := by
          intro same
          obtain ⟨on', sided'⟩ := held.matching t d order (same ▸ was)
          exact here ⟨on'.symm.trans on, sided'.symm.trans sided⟩
        have notNew : (L.slots t d).1 ≠ newId := by
          intro same
          exact (new (fun old => apart (same.trans old))).2 t d same
        rw [if_neg notNew, if_neg apart] at found
        exact held.matching t d other found

theorem quoteStep_held {ticker : Ticker} {L L' : Ledger F} (step : QuoteStep ticker L L')
    (filed : L.Filed) (fresh : (issuedIds L'.calls).Nodup) (named : "" ∉ issuedIds L'.calls)
    (held : L.Held) : L'.Held := by
  have anonymous : L.order? "" = none := by
    obtain ⟨call, calls, _⟩ := step.calls
    exact filed.order?_empty fun empty => named ((issuedIds_sublist calls).subset empty)
  have quiet : ∀ call : Call F, (L.called call).Held := fun _ => ⟨held.inSlot, held.matching⟩
  cases step with
  | @placed side desired quantity order vacant _ on sided _ =>
    exact placed_held (quiet _) vacant on sided anonymous
      (filed.slot_ne_new fresh named (by simp [Call.issued]))
  | @amended side desired quantity newId _ _ =>
    refine amended_held (L := L.called _) (quiet _) fun other => ⟨?_, ?_⟩
    -- an id that the amend issues is not one of an order we have
    · have new : newId ∉ issuedIds L.calls := not_issued_before fresh (by simpa [Call.issued] using other)
      cases found : L.order? newId with
      | none => exact found
      | some order => exact absurd (filed.issued newId order found) new
    · exact filed.slot_ne_new fresh named (by simpa [Call.issued] using other)
  | @released side =>
    refine held.of_within (fun id order found => ?_) (fun t d => ?_) anonymous
    · rw [order?_setSlot, order?_withOrders, OrderManager.cancelled_lookup] at found
      split at found
      · cases found
      · exact ⟨order, found, rfl, rfl⟩
    · rw [setSlot_slots, slots_withOrders, slots_called]
      split
      next here =>
        refine .inr ⟨rfl, ?_⟩
        rw [order?_setSlot, order?_withOrders, OrderManager.cancelled_lookup, if_pos (by rw [here.1, here.2])]
      next => exact .inl rfl
  | @forgotten side untracked =>
    refine held.of_within (fun id order found => ⟨order, found, rfl, rfl⟩) (fun t d => ?_) anonymous
    rw [setSlot_slots, slots_called]
    split
    next here =>
      rw [here.1, here.2]
      exact .inr ⟨rfl, untracked⟩
    next => exact .inl rfl
  | placeFailed _ | amendFailed _ | kept => exact quiet _

/-- The actions that empty slots without looking at the orders in them. -/
def EmptiesSlots : Action F → Prop
  | .sweepAll | .sweep _ | .forget => True
  | _ => False

theorem step_held {L L' : Ledger F} {action : Action F} (step : Step L action L')
    (careful : ¬ EmptiesSlots action) (filed : L.Filed) (fresh : (issuedIds L'.calls).Nodup)
    (named : "" ∉ issuedIds L'.calls) (held : L.Held) : L'.Held := by
  have anonymous : L.order? "" = none := by
    obtain ⟨later, calls, _⟩ := step.calls
    exact filed.order?_empty fun empty => named ((issuedIds_sublist calls).subset empty)
  cases step with
  | quote step => exact quoteStep_held step filed fresh named held
  | @fill fill _ _ _ =>
    refine held.of_within (fun id order found => ?_) (fun t d => ?_) anonymous
    · exact L.recorded_within fill id order (by rwa [order?_forgetFilled] at found)
    · rw [forgetFilled_slots, order?_forgetFilled]
      split
      next emptied =>
        rw [show (L.slots t d).1 = fill.orderId from emptied.2.2]
        exact .inr ⟨rfl, emptied.1⟩
      next => exact .inl rfl
  | flatten _ _ => exact held.of_within (L.recorded_within _) (fun _ _ => .inl rfl) anonymous
  | cancel => exact held.of_within (L.afterCancels_within _) (fun _ _ => .inl rfl) anonymous
  | sweepAll _ | sweep _ | forget _ => exact absurd trivial careful
  | refill | reflatten | raise _ | clear | resume | track _ | untrack _ _ _ =>
    exact ⟨held.inSlot, held.matching⟩

/-- The sweeps of single markets since `before`: an open order is held, or its cancel was refused. -/
structure Swept (before L : Ledger F) (later : List (Entry F)) : Prop where
  calls : L.calls = before.calls ++ later
  held : ∀ id order, L.order? id = some order →
    (L.slots order.marketTicker order.side).1 = id ∨ id ∈ answeredIds false later
  closed : ∀ id ∈ answeredIds true later, L.order? id = none
  matching : ∀ ticker side order, L.order? (L.slots ticker side).1 = some order →
    order.marketTicker = ticker ∧ order.side = side
  anonymous : L.order? "" = none

theorem Held.swept_nil {L : Ledger F} (held : L.Held) (anonymous : L.order? "" = none) : Swept L L [] where
  calls := (List.append_nil _).symm
  held id order found := .inl (held.inSlot id order found)
  closed _ member := by cases member
  matching := held.matching
  anonymous := anonymous

theorem afterCancels_none {L : Ledger F} (cancels : List (OrderId × Bool)) {id : OrderId}
    (closed : L.order? id = none) : (L.afterCancels cancels).order? id = none := by
  cases found : (L.afterCancels cancels).order? id with
  | none => rfl
  | some order => exact absurd ((order_of_cancels found).1.symm.trans closed) nofun

theorem step_swept {before L L' : Ledger F} {ticker : Ticker} (step : Step L (.sweep ticker) L')
    {later : List (Entry F)} (swept : Swept before L later) : ∃ later', Swept before L' later' := by
  cases step with
  | @sweep _ cancels sent =>
    refine ⟨later ++ cancels.map fun cancel => ⟨.cancel cancel.1 cancel.2, L.tickers⟩, ?_, ?_, ?_, ?_, ?_⟩
    · rw [← List.append_assoc, ← swept.calls]
      rfl
    · intro id order found
      obtain ⟨was, refused⟩ := order_of_cancels found
      rw [answeredIds_append, List.mem_append, mem_answeredIds]
      -- an order of the swept market that is still open is one whose cancel was refused
      rcases swept.held id order was with slot | earlier
      · by_cases here : order.marketTicker = ticker
        · obtain ⟨⟨_, answer⟩, member, rfl⟩ := List.mem_map.mp (sent.reaches id order was here)
          cases answer with
          | true => exact absurd member refused
          | false => exact .inr (.inr member)
        · left
          dsimp only
          rw [Function.update_of_ne here]
          exact slot
      · exact .inr (.inl earlier)
    · intro id member
      rw [answeredIds_append, List.mem_append, mem_answeredIds] at member
      rcases member with earlier | accepted
      · exact afterCancels_none cancels (swept.closed id earlier)
      · exact (L.orderMgr.afterCancels_lookup cancels id).trans (if_pos accepted)
    · intro t d order found
      by_cases here : t = ticker
      · subst here
        dsimp only at found
        rw [Function.update_self] at found
        exact absurd ((order_of_cancels found).1.symm.trans swept.anonymous) nofun
      · dsimp only at found
        rw [Function.update_of_ne here] at found
        exact swept.matching t d order (order_of_cancels found).1
    · exact afterCancels_none cancels swept.anonymous

end Ledger

namespace Desk

/-- Every order that was open has a cancel that the exchange accepted. -/
def Clears (s s' : Desk F X) : Prop :=
  ∀ id ∈ s.orderMgr.openOrders.keys, id ∈ answeredIds true (s'.calls.drop s.calls.length)

instance (s s' : Desk F X) : Decidable (Clears s s') :=
  inferInstanceAs (Decidable (∀ id ∈ s.orderMgr.openOrders.keys, _))

/-- Every order whose cancel was refused has one that the exchange accepted. -/
def Insists (s s' : Desk F X) : Prop :=
  ∀ id ∈ answeredIds false (s'.calls.drop s.calls.length),
    id ∈ answeredIds true (s'.calls.drop s.calls.length)

/-- Every open order is the one its slot holds, so that a market has at most one a side. -/
structure OneQuoteASide (s : Desk F X) : Prop where
  held : ∀ id order, s.orderMgr.openOrders.lookup id = some order →
    (s.quoter.ownQuotes order.marketTicker order.side).orderId = id
  single : ∀ id order id' order', s.orderMgr.openOrders.lookup id = some order →
    s.orderMgr.openOrders.lookup id' = some order' → order.marketTicker = order'.marketTicker →
    order.side = order'.side → id = id'

/-- The state is accounted for, and with fresh and named ids every open order is held. -/
def Tidy (s : Desk F X) : Prop :=
  s.ledger.Filed ∧ ((issuedIds s.calls).Nodup → "" ∉ issuedIds s.calls → s.ledger.Held)

variable (venue : Venue X)

theorem chain_filed {permitted : Action F → Prop} {L L' : Ledger F}
    (chain : ReflTransGen (Ledger.Does permitted) L L') (filed : L.Filed) : L'.Filed :=
  chain_invariant Ledger.Filed (fun _ _ ⟨_, _, step⟩ => Ledger.step_filed step) chain filed

theorem cancelAllQuotes_tidy {s : Desk F X} (clears : s.Clears (TradingSession.cancelAllQuotes venue s).2)
    (tidy : s.Tidy) : (TradingSession.cancelAllQuotes venue s).2.Tidy := by
  refine ⟨chain_filed (TradingSession.cancelAllQuotes_leads venue s) tidy.1, fun _ _ => ?_⟩
  obtain ⟨cancels, x, ran, _⟩ := TradingSession.cancelAllQuotes_run venue s
  have none : ∀ id order, (TradingSession.cancelAllQuotes venue s).2.ledger.order? id ≠ some order := by
    intro id order found
    rw [ran] at found clears
    obtain ⟨was, refused⟩ := Ledger.order_of_cancels
      (show (s.ledger.afterCancels cancels).order? id = some order from found)
    have opened : id ∈ s.orderMgr.openOrders.keys :=
      AList.mem_keys.mp (AList.lookup_isSome.mp (Option.isSome_of_eq_some was))
    have accepted := clears id opened
    simp only [afterCancels, List.drop_left] at accepted
    exact refused (mem_answeredIds.mp accepted)
  exact ⟨fun id order found => absurd found (none id order), fun _ _ order found => absurd found (none _ order)⟩

theorem checkFeeds_tidy {s : Desk F X} (tickers : List Ticker)
    (insists : s.Insists (Eff.forEach tickers (TradingSession.checkFeed venue) s).2) (tidy : s.Tidy) :
    (Eff.forEach tickers (TradingSession.checkFeed venue) s).2.Tidy := by
  have chain := TradingSession.checkFeeds_leads venue tickers s
  refine ⟨chain_filed chain tidy.1, fun fresh named => ?_⟩
  obtain ⟨more, calls⟩ := Ledger.Does.chain_calls chain
  have earlier := Ledger.issuedIds_sublist calls
  have unnamed : "" ∉ issuedIds s.calls := fun empty => named (earlier.subset empty)
  have before := tidy.2 (fresh.sublist earlier) unnamed
  obtain ⟨later, swept⟩ : ∃ later, Ledger.Swept s.ledger
      (Eff.forEach tickers (TradingSession.checkFeed venue) s).2.ledger later := by
    refine chain_invariant (fun L => ∃ later, Ledger.Swept s.ledger L later) ?_ chain
      ⟨[], before.swept_nil (tidy.1.order?_empty unnamed)⟩
    rintro L L' ⟨_, ⟨ticker, rfl⟩, step⟩ ⟨later, swept⟩
    exact Ledger.step_swept step swept
  refine ⟨fun id order found => ?_, swept.matching⟩
  rcases swept.held id order found with slot | refused
  · exact slot
  · have added : (Eff.forEach tickers (TradingSession.checkFeed venue) s).2.calls.drop s.calls.length =
        later := by
      rw [show (Eff.forEach tickers (TradingSession.checkFeed venue) s).2.calls = s.calls ++ later
        from swept.calls, List.drop_left]
    have closed := swept.closed id (added ▸ insists id (added ▸ refused))
    exact absurd (found.symm.trans closed) nofun

end Desk

namespace Process

open Desk

variable (venue : Venue X)

/-- What the event sweeps is cancelled with the exchange's consent, and a sweep of all markets meets no
open order outside of them. The session alone makes the quoter forget. -/
def SweepsClean (p : Process F X) (event : Event F) : Prop :=
  match event with
  | .disconnect | .cancelAllQuotes => p.desk.Clears (handle venue event p.desk).2
  | .enforceQuoteSafety =>
    if p.desk.riskMgr.isHalted then p.desk.Clears (handle venue event p.desk).2
    else p.desk.Insists (handle venue event p.desk).2
  | .resetQuotes | .forgetTicker _ | .forgetOrder _ _ => False
  | _ => True

/-- The event leaves no order behind, and neither does the last sweep where it ends the process. -/
def LeavesNoOrder (p : Process F X) (event : Event F) : Prop :=
  p.alive = true → SweepsClean venue p event ∧
    ∀ what, (handle venue event p.desk).1 = .error (.abort what) →
      (handle venue event p.desk).2.Clears
        (TradingSession.cancelAllQuotes venue (handle venue event p.desk).2).2

theorem LeavesNoOrder.of_finished {p : Process F X} {event : Event F}
    (finished : (handle venue event p.desk).1 = .ok ()) (clean : SweepsClean venue p event) :
    LeavesNoOrder venue p event :=
  fun _ => ⟨clean, fun _ aborted => absurd (finished.symm.trans aborted) nofun⟩

/-- An event that empties no slots blindly keeps every open order held. -/
theorem careful_tidy {event : Event F} {s : Desk F X}
    (careful : ∀ action, event.permits action → ¬ Ledger.EmptiesSlots action) (tidy : s.Tidy) :
    (handle venue event s).2.Tidy := by
  refine chain_invariant (fun L : Ledger F => L.Filed ∧ ((issuedIds L.calls).Nodup →
    "" ∉ issuedIds L.calls → L.Held)) ?_ (handle_leads venue event s) tidy
  rintro L L' ⟨action, permitted, step⟩ ⟨filed, held⟩
  refine ⟨Ledger.step_filed step filed, fun fresh named => ?_⟩
  obtain ⟨later, calls, _⟩ := step.calls
  have earlier := Ledger.issuedIds_sublist calls
  refine Ledger.step_held step (careful action permitted) filed fresh named ?_
  exact held (fresh.sublist earlier) fun empty => named (earlier.subset empty)

theorem handle_tidy {p : Process F X} {event : Event F} (alive : p.alive = true)
    (leaves : LeavesNoOrder venue p event) (tidy : p.desk.Tidy) :
    (handle venue event p.desk).2.Tidy := by
  cases event with
  | disconnect | cancelAllQuotes => exact cancelAllQuotes_tidy venue (leaves alive).1 tidy
  | enforceQuoteSafety =>
    -- safety sweeps everything once trading is halted, and single markets before
    have swept := (leaves alive).1
    simp only [SweepsClean, handle, TradingSession.enforceQuoteSafety, bind_apply, get_apply,
      andThen_ok] at swept ⊢
    split at swept
    next halted =>
      simp only [halted, ↓reduceIte] at swept ⊢
      exact cancelAllQuotes_tidy venue swept tidy
    next live =>
      simp only [live, Bool.false_eq_true, ↓reduceIte] at swept ⊢
      exact checkFeeds_tidy venue _ swept tidy
  | resetQuotes | forgetTicker _ | forgetOrder _ _ => exact absurd (leaves alive).1 id
  | fill _ | addMarket _ =>
    exact careful_tidy venue (by rintro _ (rfl | rfl) <;> exact id) tidy
  | requoteIdleMarkets => exact careful_tidy venue (by rintro _ ⟨ticker, rfl⟩; exact id) tidy
  | cancelPreexistingOrders _ => exact careful_tidy venue (by rintro _ ⟨order, _, rfl⟩; exact id) tidy
  | snapshot _ | trade _ | setReduceOnly _ => exact careful_tidy venue (fun _ => False.elim) tidy
  | delta _ _ _ _ | removeMarketIfIdle _ | seedOrderbook _ | recordFlatten _ | runPortfolioRisk
  | riskUpdate _ | updatePortfolio _ | setConstraint _ | halt | clearConstraint _ | resume =>
    exact careful_tidy venue (by rintro _ rfl; exact id) tidy

theorem dispatch_tidy (p : Process F X) (event : Event F) (leaves : LeavesNoOrder venue p event)
    (tidy : p.desk.Tidy) : (p.dispatch venue event).desk.Tidy := by
  rcases dispatch_cases venue p event with same | ⟨alive, done⟩ | ⟨alive, ⟨what, aborted⟩, ended⟩
  · rw [same]
    exact tidy
  · rw [done]
    exact handle_tidy venue alive leaves tidy
  · rw [ended]
    exact cancelAllQuotes_tidy venue ((leaves alive).2 what aborted) (handle_tidy venue alive leaves tidy)

theorem start_tidy (session : TradingSession F) (config : QuoterConfig F) (limits : RiskLimits F) (outside : X)
    (flowGuard : Option (FlowImbalanceGuard F)) (tradeTape : Option (TradeTape F)) (analytics pnlListener : Bool) :
    (start session config limits outside flowGuard tradeTape analytics pnlListener).desk.Tidy := by
  have none : ∀ id, (start session config limits outside flowGuard tradeTape analytics
      pnlListener).desk.ledger.order? id = none := fun _ => rfl
  refine ⟨⟨fun id order found => ?_, fun _ _ held => absurd rfl held⟩, fun _ _ => ⟨?_, ?_⟩⟩
  · exact absurd ((none id).symm.trans found) nofun
  · exact fun id order found => absurd ((none id).symm.trans found) nofun
  · exact fun _ _ order found => absurd ((none _).symm.trans found) nofun

end Process

/-- In a run whose events leave no order behind, a market never has two live quotes on a side. -/
theorem one_quote_a_side (venue : Venue X) (session : TradingSession F) (config : QuoterConfig F)
    (limits : RiskLimits F) (outside : X) (flowGuard : Option (FlowImbalanceGuard F))
    (tradeTape : Option (TradeTape F)) (analytics pnlListener : Bool) (events : List (Event F))
    (leaves : (Process.start session config limits outside flowGuard tradeTape analytics
      pnlListener).Meets venue (Process.LeavesNoOrder venue) events)
    (fresh : (issuedIds ((Process.start session config limits outside flowGuard tradeTape analytics
      pnlListener).run venue events).desk.calls).Nodup)
    (named : "" ∉ issuedIds ((Process.start session config limits outside flowGuard tradeTape analytics
      pnlListener).run venue events).desk.calls) :
    ((Process.start session config limits outside flowGuard tradeTape analytics
      pnlListener).run venue events).desk.OneQuoteASide := by
  have initial := Process.start_tidy session config limits outside flowGuard tradeTape analytics pnlListener
  have held := (Run.invariant_of_meets (fun p : Process F X => p.desk.Tidy)
    (fun p event => Process.dispatch_tidy venue p event) initial leaves).2 fresh named
  refine ⟨held.inSlot, fun id order id' order' found found' on sided => ?_⟩
  have slot := held.inSlot id order found
  rw [on, sided] at slot
  exact slot.symm.trans (held.inSlot id' order' found')

/-- A market quoted, swept with both cancels accepted, and quoted again. -/
theorem one_quote_a_side_clean_sweep :
    let venue : Venue Script := ⟨⟨"exchange"⟩, Script.host⟩
    let book : Orderbook := { ticker := "M", yes := [⟨40, ⟨1000⟩⟩], no := [⟨40, ⟨1000⟩⟩] }
    let p : Process ℚ Script :=
      Process.start { tickers := ["M"] } { useClearingPricing := true } {} {} none none false false
    (p.run venue [.seedOrderbook book, .disconnect, .delta "M" .yes 41 ⟨500⟩]).desk.OneQuoteASide := by
  intro venue book p
  have clean : (p.run venue [.seedOrderbook book]).desk.Clears
      (handle venue .disconnect (p.run venue [.seedOrderbook book]).desk).2 := by decide +kernel
  refine one_quote_a_side venue _ _ _ _ _ _ _ _ _ ⟨?_, ?_, ?_, trivial⟩ (by decide +kernel) (by decide +kernel)
  · exact .of_finished venue (by decide +kernel) trivial
  · exact .of_finished venue (by decide +kernel) clean
  · exact .of_finished venue (by decide +kernel) trivial

/-- Two refused cancels: the disconnect forgets both quotes, and the next delta puts a second bid and a
second ask beside them. -/
theorem refused_cancel_orphans_quote :
    let venue : Venue Script := ⟨⟨"exchange"⟩, Script.host⟩
    let book : Orderbook := { ticker := "M", yes := [⟨40, ⟨1000⟩⟩], no := [⟨40, ⟨1000⟩⟩] }
    let p : Process ℚ Script :=
      Process.start { tickers := ["M"] } { useClearingPricing := true } {} { cancels := [500, 500] }
        none none false false
    let desk := (p.run venue [.seedOrderbook book, .disconnect, .delta "M" .yes 41 ⟨500⟩]).desk
    desk.orderMgr.openOrders.keys = ["order-4", "order-3", "order-2", "order-1"] ∧
      (issuedIds desk.calls).Nodup ∧ ¬ desk.OneQuoteASide := by
  intro venue book p desk
  refine ⟨by decide +kernel, by decide +kernel, fun one => ?_⟩
  -- the two No orders, the one sent before the disconnect and the one sent after it
  have second : (desk.orderMgr.openOrders.lookup "order-2").map (fun order => (order.marketTicker, order.side)) =
      some ("M", .no) := by decide +kernel
  have fourth : (desk.orderMgr.openOrders.lookup "order-4").map (fun order => (order.marketTicker, order.side)) =
      some ("M", .no) := by decide +kernel
  obtain ⟨order, found, here⟩ := Option.map_eq_some_iff.mp second
  obtain ⟨order', found', there⟩ := Option.map_eq_some_iff.mp fourth
  obtain ⟨on, sided⟩ := Prod.mk.inj (here.trans there.symm)
  exact absurd (one.single _ _ _ _ found found' on sided) (by decide)

end Kalshi
