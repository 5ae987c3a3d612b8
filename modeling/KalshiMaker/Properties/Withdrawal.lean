import KalshiMaker.Net.RecordedHost
import KalshiMaker.Properties.SlotAgreement

/-! What an update does with an order that the exchange has cancelled on its own. -/
namespace Kalshi

open Effect Eff Desk Ledger Relation Quoter TradingSession

variable {F X : Type} [Floating F]

/-! ### Requests on an order -/

def Accepted (status : Int) : Prop := 200 ≤ status ∧ status ≤ 299

instance (status : Int) : Decidable (Accepted status) := inferInstanceAs (Decidable (_ ∧ _))

namespace Exchanged

def Cancels (rest : RestClient) (id : OrderId) (request : Exchanged) : Prop :=
  request.verb = .delete ∧ request.url = rest.cancelUrl id

def Amends (rest : RestClient) (id : OrderId) (request : Exchanged) : Prop :=
  request.verb = .post ∧ request.url = rest.amendUrl id

instance (rest : RestClient) (id : OrderId) (request : Exchanged) : Decidable (request.Cancels rest id) :=
  inferInstanceAs (Decidable (_ ∧ _))

instance (rest : RestClient) (id : OrderId) (request : Exchanged) : Decidable (request.Amends rest id) :=
  inferInstanceAs (Decidable (_ ∧ _))

end Exchanged

/-- Nothing asked for an order is granted: each cancel of it fails, and each amend. -/
structure Refused (rest : RestClient) (id : OrderId) (requests : List Exchanged) : Prop where
  cancel : ∀ request ∈ requests, request.Cancels rest id →
    ∀ status, request.status = some status → ¬ Accepted status
  amend : ∀ request ∈ requests, request.Amends rest id →
    ∀ resp, request.answer = .ok resp → RestClient.amendedId resp id = none

/-- A cancel of an order is sent, and the cancels and amends of it are all answered not-found. -/
def NotFound (rest : RestClient) (id : OrderId) (requests : List Exchanged) : Prop :=
  (∃ request ∈ requests, request.Cancels rest id) ∧
    ∀ request ∈ requests, request.Cancels rest id ∨ request.Amends rest id → request.status = some 404

instance (rest : RestClient) (id : OrderId) (requests : List Exchanged) : Decidable (NotFound rest id requests) :=
  inferInstanceAs (Decidable (_ ∧ _))

theorem Exchanged.post_cancels_nothing {rest : RestClient} {id : OrderId} {request : Exchanged}
    (posted : request.verb = .post) : ¬ request.Cancels rest id := by
  rintro ⟨deleted, _⟩
  rw [posted] at deleted
  cases deleted

theorem Exchanged.status_ok {request : Exchanged} {resp : HttpResponse} (answered : request.answer = .ok resp) :
    request.status = some resp.statusCode := by
  unfold Exchanged.status
  rw [answered]

/-- An amend is accepted only with a success status. -/
theorem amendedId_accepted {resp : HttpResponse} {id newId : OrderId}
    (amended : RestClient.amendedId resp id = some newId) : Accepted resp.statusCode := by
  by_contra refused
  have checked : checkResponse resp = .error ("HTTP " ++ toString resp.statusCode ++ ": " ++ resp.body) :=
    if_neg refused
  simp [RestClient.amendedId, checked, bind, Except.bind, Except.toOption] at amended

theorem NotFound.refused {rest : RestClient} {id : OrderId} {requests : List Exchanged}
    (gone : NotFound rest id requests) : Refused rest id requests := by
  constructor
  · intro request sent cancels status answered accepted
    rw [gone.2 request sent (.inl cancels)] at answered
    cases answered
    exact absurd accepted (by decide)
  · intro request sent amends resp answered
    have status := gone.2 request sent (.inr amends)
    rw [Exchanged.status_ok answered] at status
    cases amended : RestClient.amendedId resp id with
    | none => rfl
    | some newId =>
      have accepted := amendedId_accepted amended
      rw [Option.some.inj status] at accepted
      exact absurd accepted (by decide)

theorem Refused.before {rest : RestClient} {id : OrderId} {first second : List Exchanged}
    (refused : Refused rest id (first ++ second)) : Refused rest id first := by
  constructor
  · exact fun request sent => refused.cancel request (List.mem_append_left _ sent)
  · exact fun request sent => refused.amend request (List.mem_append_left _ sent)

theorem cancelUrl_injective (rest : RestClient) {id other : OrderId}
    (same : rest.cancelUrl id = rest.cancelUrl other) :
    id = other := by
  have lists := congrArg String.toList same
  simp only [RestClient.cancelUrl, String.toList_append] at lists
  exact String.toList_injective (List.append_cancel_left lists)

/-! ### Who holds an id -/

/-- Slots hold ids that the exchange gave out, each id in one slot at most. -/
structure Ledger.Owned (L : Ledger F) : Prop where
  issued : ∀ ticker side, (L.slots ticker side).1 ≠ "" → (L.slots ticker side).1 ∈ issuedIds L.calls
  apart : ∀ t d t' d', (L.slots t d).1 ≠ "" → (L.slots t d).1 = (L.slots t' d').1 → t = t' ∧ d = d'

/-- Emptying slots keeps them owned. -/
theorem Ledger.Owned.shrunk {L L' : Ledger F} (owned : L.Owned) (calls : ∃ later, L'.calls = L.calls ++ later)
    (emptied : ∀ ticker side, L'.slots ticker side = L.slots ticker side ∨ (L'.slots ticker side).1 = "") :
    L'.Owned := by
  obtain ⟨later, calls⟩ := calls
  constructor
  · intro ticker side held
    have same := (emptied ticker side).resolve_right held
    rw [same] at held ⊢
    exact (issuedIds_sublist calls).subset (owned.issued ticker side held)
  · intro t d t' d' held same
    have first := (emptied t d).resolve_right held
    have second := (emptied t' d').resolve_right (same ▸ held)
    rw [first] at held
    rw [first, second] at same
    exact owned.apart t d t' d' held same

/-- A slot filled with an id that no other slot holds. -/
theorem Ledger.Owned.filled {L : Ledger F} (owned : L.Owned) {call : Call F} {om : OrderManager F} {ticker : Ticker}
    {side : Side} {id : OrderId} {price : Int} (issued : id ∈ issuedIds (L.called call).calls)
    (unshared : ∀ t d, (L.slots t d).1 ≠ "" → (L.slots t d).1 = id → t = ticker ∧ d = side) :
    (((L.called call).withOrders om).setSlot ticker side (id, price)).Owned := by
  constructor
  · intro t d held
    rw [setSlot_slots] at held ⊢
    split at held
    -- the new id is issued by this very call
    next here => rwa [if_pos here]
    next elsewhere =>
      rw [if_neg elsewhere]
      exact (issuedIds_sublist rfl).subset (owned.issued t d held)
  · intro t d t' d' held same
    simp only [setSlot_slots] at held same
    split at held
    next here =>
      rw [if_pos here] at same
      split at same
      next here' => exact ⟨here.1.trans here'.1.symm, here.2.trans here'.2.symm⟩
      next elsewhere => exact absurd (unshared t' d' (same ▸ held) same.symm) elsewhere
    next elsewhere =>
      rw [if_neg elsewhere] at same
      split at same
      next => exact absurd (unshared t d held same) elsewhere
      next => exact owned.apart t d t' d' held same

theorem emptySlot_cleared (L : Ledger F) (ticker : Ticker) (side : Side) (price : Int) (t : Ticker) (d : Side) :
    (L.setSlot ticker side ("", price)).slots t d = L.slots t d ∨
      ((L.setSlot ticker side ("", price)).slots t d).1 = "" := by
  rw [setSlot_slots]
  split
  · exact .inr rfl
  · exact .inl rfl

theorem quoteStep_owned {ticker : Ticker} {L L' : Ledger F} (step : QuoteStep ticker L L')
    (fresh : (issuedIds L'.calls).Nodup) (owned : L.Owned) : L'.Owned := by
  cases step with
  | @placed side desired quantity order _ _ _ _ _ =>
    have new : order.id ∉ issuedIds L.calls := not_issued_before fresh (by simp [Call.issued])
    apply owned.filled
    · exact issued_called (.inr (by simp [Call.issued]))
    · intro t d held same
      exact absurd (same ▸ owned.issued t d held) new
  | @amended side desired quantity newId held _ =>
    by_cases kept : newId = (L.slots ticker side).1
    · subst kept
      apply owned.filled
      · exact issued_called (.inl (owned.issued ticker side held))
      · exact fun t d other same => owned.apart t d ticker side other same
    · have new : newId ∉ issuedIds L.calls := not_issued_before fresh (by simp [Call.issued, kept])
      apply owned.filled
      · exact issued_called (.inr (by simp [Call.issued, kept]))
      · exact fun t d other same => absurd (same ▸ owned.issued t d other) new
  | released => exact owned.shrunk ⟨[_], rfl⟩ fun t d => emptySlot_cleared _ _ _ _ t d
  | forgotten _ => exact owned.shrunk ⟨[_], rfl⟩ fun t d => emptySlot_cleared _ _ _ _ t d
  | placeFailed _ | amendFailed _ | kept => exact owned.shrunk ⟨[_], rfl⟩ fun _ _ => .inl rfl

theorem step_owned {L L' : Ledger F} {action : Action F} (step : Step L action L')
    (fresh : (issuedIds L'.calls).Nodup) (owned : L.Owned) : L'.Owned := by
  by_cases quotes : ∃ ticker, action = .quote ticker
  · obtain ⟨ticker, rfl⟩ := quotes
    cases step with
    | quote step => exact quoteStep_owned step fresh owned
  · obtain ⟨later, calls, _⟩ := step.calls
    exact owned.shrunk ⟨later, calls⟩ (step_shrinks step fun ticker same => quotes ⟨ticker, same⟩).2

/-- The exchange gives out each id once. -/
def Ledger.Fresh (L : Ledger F) : Prop := (issuedIds L.calls).Nodup

theorem does_owned {permitted : Action F → Prop} {L L' : Ledger F} (chain : ReflTransGen (Does permitted) L L')
    (owned : L.Fresh → L.Owned) : L'.Fresh → L'.Owned := by
  refine chain_invariant (fun L : Ledger F => L.Fresh → L.Owned) ?_ chain owned
  rintro M M' ⟨action, _, step⟩ ih fresh
  obtain ⟨later, calls, _⟩ := step.calls
  exact step_owned step fresh (ih (fresh.sublist (issuedIds_sublist calls)))

/-! ### The requests of an update -/

def Venue.recorded (venue : Venue X) : Venue (X × List Exchanged) := ⟨venue.rest, venue.host.recorded⟩

/-- The ledger, and the requests made of the exchange. -/
def Desk.dealings (s : Desk F (X × List Exchanged)) : Ledger F × List Exchanged := (s.ledger, s.outside.2)

/-- One request of the quoter on a side, with how the exchange answered it. -/
inductive Dealing (rest : RestClient) (ticker : Ticker) (side : Side) (u : Ledger F × List Exchanged) :
    Ledger F × List Exchanged → Prop where
  | placed {desired quantity : Int} {order : Order} {answer : Except String HttpResponse}
      (vacant : (u.1.slots ticker side).1 = "") :
      Dealing rest ticker side u
        (((u.1.called (.place ticker side ((legOf side).orderPrice desired) quantity (some order.id))).withOrders
          (u.1.orderMgr.placed order)).setSlot ticker side (order.id, desired),
          u.2 ++ [⟨.post, rest.ordersUrl, answer⟩])
  | amended {desired : Int} {count : Quantity} {newId : OrderId} {resp : HttpResponse}
      (accepted : RestClient.amendedId resp (u.1.slots ticker side).1 = some newId) :
      Dealing rest ticker side u
        (((u.1.called (.amend (u.1.slots ticker side).1 ticker side ((legOf side).orderPrice desired) count
          (some newId))).withOrders (u.1.orderMgr.amended (u.1.slots ticker side).1 newId
            ((legOf side).orderPrice desired))).setSlot ticker side (newId, desired),
          u.2 ++ [⟨.post, rest.amendUrl (u.1.slots ticker side).1, .ok resp⟩])
  | released {resp : HttpResponse} (accepted : Accepted resp.statusCode) :
      Dealing rest ticker side u
        (((u.1.called (.cancel (u.1.slots ticker side).1 true)).withOrders
          (u.1.orderMgr.cancelled (u.1.slots ticker side).1)).setSlot ticker side
            ("", (u.1.slots ticker side).2),
          u.2 ++ [⟨.delete, rest.cancelUrl (u.1.slots ticker side).1, .ok resp⟩])
  | forgotten {resp : HttpResponse} (untracked : u.1.order? (u.1.slots ticker side).1 = none) :
      Dealing rest ticker side u
        ((u.1.called (.cancel (u.1.slots ticker side).1 false)).setSlot ticker side
          ("", (u.1.slots ticker side).2),
          u.2 ++ [⟨.delete, rest.cancelUrl (u.1.slots ticker side).1, .ok resp⟩])
  | failed {call : Call F} {request : Exchanged} (none_issued : call.issued = [])
      -- a cancel that was answered leaves the slot as it is only while the order is tracked
      (tracked : request.verb = .delete → request.url = rest.cancelUrl (u.1.slots ticker side).1 ∧
        (request.status ≠ none → u.1.order? (u.1.slots ticker side).1 ≠ none)) :
      Dealing rest ticker side u (u.1.called call, u.2 ++ [request])

namespace OrderManager

variable (venue : Venue X)

theorem cancel_recorded (id : OrderId) (s : Desk F (X × List Exchanged)) :
    ∃ x, (∃ resp, Accepted resp.statusCode ∧ cancel venue.recorded id s = (.ok true,
        (s.called (.cancel id true) (x, s.outside.2 ++ [⟨.delete, venue.rest.cancelUrl id, .ok resp⟩])).withOrders
          (s.orderMgr.cancelled id))) ∨
      (∃ resp, cancel venue.recorded id s = (.ok false,
        s.called (.cancel id false) (x, s.outside.2 ++ [⟨.delete, venue.rest.cancelUrl id, .ok resp⟩]))) ∨
      (∃ what, cancel venue.recorded id s = (.error (.exception what),
        s.called (.cancel id false) (x, s.outside.2 ++ [⟨.delete, venue.rest.cancelUrl id, .error what⟩]))) := by
  unfold cancel
  obtain ⟨x, ⟨resp, answered⟩ | ⟨what, failed⟩⟩ := venue.rest.cancelOrder_recorded venue.host id s.outside
  · refine ⟨x, ?_⟩
    by_cases accepted : 200 ≤ resp.statusCode ∧ resp.statusCode ≤ 299
    · rw [decide_eq_true accepted] at answered
      refine .inl ⟨resp, accepted, ?_⟩
      simp [issue, Venue.recorded, answered, mapOrders, Desk.called, Desk.withOrders, Except.toOption]
    · rw [decide_eq_false accepted] at answered
      refine .inr (.inl ⟨resp, ?_⟩)
      simp [issue, Venue.recorded, answered, Desk.called, Except.toOption]
  · refine ⟨x, .inr (.inr ⟨what, ?_⟩)⟩
    simp [issue, Venue.recorded, failed, Desk.called, Except.toOption]

theorem amend_recorded (id : OrderId) (ticker : Ticker) (side : Side) (price : Int) (count : Quantity)
    (s : Desk F (X × List Exchanged)) :
    ∃ x, (∃ resp newId, RestClient.amendedId resp id = some newId ∧
        amend venue.recorded id ticker side price count s = (.ok (some newId),
          (s.called (.amend id ticker side price count (some newId))
            (x, s.outside.2 ++ [⟨.post, venue.rest.amendUrl id, .ok resp⟩])).withOrders
              (s.orderMgr.amended id newId price))) ∨
      (∃ resp, amend venue.recorded id ticker side price count s = (.ok none,
        s.called (.amend id ticker side price count none)
          (x, s.outside.2 ++ [⟨.post, venue.rest.amendUrl id, .ok resp⟩]))) ∨
      (∃ what, amend venue.recorded id ticker side price count s = (.error (.exception what),
        s.called (.amend id ticker side price count none)
          (x, s.outside.2 ++ [⟨.post, venue.rest.amendUrl id, .error what⟩]))) := by
  unfold amend
  obtain ⟨x, ⟨resp, answered⟩ | ⟨what, failed⟩⟩ :=
    venue.rest.amendOrder_recorded venue.host id ticker side price count s.outside
  · refine ⟨x, ?_⟩
    cases amended : RestClient.amendedId resp id with
    | some newId =>
      rw [amended] at answered
      refine .inl ⟨resp, newId, amended, ?_⟩
      simp [issue, Venue.recorded, answered, mapOrders, Desk.called, Desk.withOrders, Except.toOption]
    | none =>
      rw [amended] at answered
      refine .inr (.inl ⟨resp, ?_⟩)
      simp [issue, Venue.recorded, answered, Desk.called, Except.toOption]
  · refine ⟨x, .inr (.inr ⟨what, ?_⟩)⟩
    simp [issue, Venue.recorded, failed, Desk.called, Except.toOption]

theorem place_recorded (ticker : Ticker) (side : Side) (price quantity : Int) (s : Desk F (X × List Exchanged)) :
    (∃ what, place venue.recorded ticker side price quantity s = (.error (.abort what), s)) ∨
    (∃ order x answer, place venue.recorded ticker side price quantity s = (.ok order,
      (s.called (.place ticker side price quantity (some order.id))
        (x, s.outside.2 ++ [⟨.post, venue.rest.ordersUrl, answer⟩])).withOrders (s.orderMgr.placed order))) ∨
    (∃ what x answer, place venue.recorded ticker side price quantity s = (.error (.exception what),
      s.called (.place ticker side price quantity none)
        (x, s.outside.2 ++ [⟨.post, venue.rest.ordersUrl, answer⟩]))) := by
  unfold place ensure
  cases isValidPrice price with
  | false => exact .inl ⟨_, rfl⟩
  | true =>
    cases decide (0 < quantity) with
    | false => exact .inl ⟨_, rfl⟩
    | true =>
      obtain ⟨answer, logged⟩ := venue.rest.placeOrder_recorded venue.host F ticker side price
        (Quantity.fromContracts quantity) .limit s.outside
      obtain ⟨x, ⟨order, placed, _⟩ | ⟨what, failed⟩⟩ := venue.rest.placeOrder_cases venue.host.recorded (F := F)
        ticker side price (Quantity.fromContracts quantity) .limit s.outside
      · refine .inr (.inl ⟨order, x.1, answer, ?_⟩)
        rw [placed] at logged
        simp [issue, Venue.recorded, placed, mapOrders, Desk.called, Desk.withOrders, Except.toOption, ← logged]
      · refine .inr (.inr ⟨what, x.1, answer, ?_⟩)
        rw [failed] at logged
        simp [issue, Venue.recorded, failed, Desk.called, Except.toOption, ← logged]

end OrderManager

namespace Quoter

variable (venue : Venue X)

theorem dealings_updateSlot (ticker : Ticker) (side : Side) (f : QuoteSlot → QuoteSlot)
    (s : Desk F (X × List Exchanged)) :
    (updateSlot ticker side f s).2.dealings = (s.ledger.setSlot ticker side
      ((f (s.quoter.ownQuotes ticker side)).orderId, (f (s.quoter.ownQuotes ticker side)).quotedCents), s.outside.2) :=
  congrArg (fun ledger => (ledger, s.outside.2)) (ledger_updateSlot ticker side f s)

theorem enter_dealing {side : Side} {ticker : Ticker} {desired : Int} {now : TimePoint}
    {s : Desk F (X × List Exchanged)} (vacant : (s.quoter.ownQuotes ticker side).orderId = "") :
    Leads dealings (Dealing venue.rest ticker side) (enter venue.recorded (legOf side) ticker desired now) s := by
  unfold enter
  simp only [legOf_side]
  refine Leads.bind (Leads.quiet rfl) ?_
  rintro s₀ _ ⟨⟩
  refine Leads.ite (fun _ => ?_) (fun _ => Leads.quiet rfl)
  unfold Leads
  rw [bind_apply]
  rcases OrderManager.place_recorded venue ticker side ((legOf side).orderPrice desired)
      s.quoter.config.quoteSize s with ⟨what, h⟩ | ⟨order, x, answer, h⟩ | ⟨what, x, answer, h⟩
  · rw [h]
    exact .refl
  · rw [h, andThen_ok, fillSlot, dealings_updateSlot]
    exact .single (.placed vacant)
  · rw [h]
    exact .single (.failed rfl fun isCancel => by cases isCancel)

theorem amendInPlace_dealing {side : Side} {ticker : Ticker} {desired : Int} {now : TimePoint} {wouldCross : Bool}
    {s : Desk F (X × List Exchanged)} :
    Leads dealings (Dealing venue.rest ticker side)
      (amendInPlace venue.recorded (legOf side) ticker desired now wouldCross) s := by
  unfold amendInPlace
  simp only [legOf_side]
  refine Leads.bind (Leads.quiet rfl) ?_
  rintro s₀ _ ⟨⟩
  refine Leads.ite (fun _ => ?_) (fun _ => Leads.quiet rfl)
  unfold Leads
  rw [bind_apply]
  obtain ⟨x, ⟨resp, newId, accepted, h⟩ | ⟨resp, h⟩ | ⟨what, h⟩⟩ := OrderManager.amend_recorded venue
    (s.quoter.ownQuotes ticker side).orderId ticker side ((legOf side).orderPrice desired)
    (Quantity.fromContracts s.quoter.config.quoteSize) s
  · rw [h]
    simp only [andThen_ok, bind_apply, andThen_pure_state]
    rw [fillSlot, dealings_updateSlot]
    exact .single (.amended accepted)
  · rw [h]
    exact .single (.failed rfl fun isCancel => by cases isCancel)
  · rw [h]
    exact .single (.failed rfl fun isCancel => by cases isCancel)

theorem releaseSlot_dealing (ticker : Ticker) (side : Side) (s : Desk F (X × List Exchanged)) :
    Leads dealings (Dealing venue.rest ticker side) (releaseSlot venue.recorded ticker side) s := by
  unfold releaseSlot releaseOrder
  refine Leads.bind (Leads.quiet rfl) ?_
  rintro s₀ _ ⟨⟩
  unfold Leads
  simp only [bind_apply]
  obtain ⟨x, ⟨resp, accepted, h⟩ | ⟨resp, h⟩ | ⟨what, h⟩⟩ :=
    OrderManager.cancel_recorded venue (s.quoter.ownQuotes ticker side).orderId s
  · rw [h]
    simp only [andThen_ok, ↓reduceIte, pure_apply, bind_apply, andThen_pure_state]
    rw [clearSlot, dealings_updateSlot]
    exact .single (.released accepted)
  · rw [h]
    simp only [andThen_ok, Bool.false_eq_true, ↓reduceIte, bind_apply, get_apply, pure_apply]
    split
    next untracked =>
      rw [bind_apply, andThen_pure_state, clearSlot, dealings_updateSlot]
      exact .single (.forgotten (Option.isNone_iff_eq_none.mp untracked))
    next tracked =>
      refine .single (.failed rfl fun _ => ⟨rfl, fun _ gone => tracked ?_⟩)
      exact Option.isNone_iff_eq_none.mpr gone
  · rw [h]
    exact .single (.failed rfl fun _ => ⟨rfl, fun answered => absurd rfl answered⟩)

theorem dealings_moves (ticker : Ticker) :
    Moves venue.recorded ticker (dealings (F := F) (X := X))
      (fun u v => ∃ side, Dealing venue.rest ticker side u v) where
  steady _ := rfl
  system _ := rfl
  ema _ _ := rfl
  emit _ _ _ := rfl
  fade side fadePending s := congrArg (fun ledger => (ledger, s.outside.2))
    (setFadePending_quiet ticker side fadePending s)
  enter vacant := (enter_dealing venue vacant).mono fun _ _ dealing => ⟨_, dealing⟩
  amend _ := (amendInPlace_dealing venue).mono fun _ _ dealing => ⟨_, dealing⟩
  release side s := (releaseSlot_dealing venue ticker side s).mono fun _ _ dealing => ⟨_, dealing⟩

theorem update_dealings (ticker : Ticker) (book : LocalOrderbook) (s : Desk F (X × List Exchanged)) :
    ReflTransGen (fun u v => ∃ side, Dealing venue.rest ticker side u v) s.dealings
      (update venue.recorded ticker book s).2.dealings :=
  update_moves (dealings_moves venue ticker) book s

end Quoter

/-! ### An order that nothing is granted for -/

/-- What a request on a side reaches: the order in the slot, and ids it is answered with. -/
structure Reaches (rest : RestClient) (ticker : Ticker) (side : Side) (u v : Ledger F × List Exchanged)
    (call : Call F) (request : Exchanged) : Prop where
  calls : v.1.calls = u.1.calls ++ [⟨call, u.1.tickers⟩]
  log : v.2 = u.2 ++ [request]
  order : ∀ id, id ≠ (u.1.slots ticker side).1 → id ∉ call.issued → v.1.order? id = u.1.order? id
  own : (v.1.slots ticker side).1 = (u.1.slots ticker side).1 ∨ (v.1.slots ticker side).1 = "" ∨
    (v.1.slots ticker side).1 ∈ call.issued
  other : v.1.slots ticker side.opposite = u.1.slots ticker side.opposite
  cancels : ∀ id, request.Cancels rest id → id = (u.1.slots ticker side).1

theorem setSlot_own (L : Ledger F) (ticker : Ticker) (side : Side) (slot : OrderId × Int) :
    (L.setSlot ticker side slot).slots ticker side = slot := by
  simp [setSlot_slots]

theorem setSlot_opposite (L : Ledger F) (ticker : Ticker) (side : Side) (slot : OrderId × Int) :
    (L.setSlot ticker side slot).slots ticker side.opposite = L.slots ticker side.opposite := by
  rw [setSlot_slots, if_neg]
  cases side <;> exact fun same => nomatch same.2

namespace Dealing

variable {rest : RestClient} {ticker : Ticker} {side : Side} {u v : Ledger F × List Exchanged}

theorem reaches (dealing : Dealing rest ticker side u v) :
    ∃ call request, Reaches rest ticker side u v call request := by
  cases dealing with
  | @placed desired quantity order answer vacant =>
    refine ⟨_, _, rfl, rfl, fun id _ new => ?_, .inr (.inr ?_), setSlot_opposite _ _ _ _,
      fun _ cancels => absurd cancels (Exchanged.post_cancels_nothing rfl)⟩
    · have different : id ≠ order.id := fun same => new (by simp [Call.issued, same])
      rw [order?_setSlot, order?_withOrders, OrderManager.placed_lookup, if_neg different]
      rfl
    · rw [setSlot_own]
      simp [Call.issued]
  | @amended desired count newId resp accepted =>
    refine ⟨_, _, rfl, rfl, fun id other new => ?_, ?_, setSlot_opposite _ _ _ _,
      fun _ cancels => absurd cancels (Exchanged.post_cancels_nothing rfl)⟩
    · have different : id ≠ newId := fun same => new (by simp [Call.issued, ← same, other])
      rw [order?_setSlot, order?_withOrders]
      cases tracked : u.1.orderMgr.openOrders.lookup (u.1.slots ticker side).1 with
      | none =>
        rw [OrderManager.amended_untracked tracked]
        rfl
      | some order =>
        rw [OrderManager.amended_lookup tracked, if_neg different, if_neg other]
        rfl
    · rw [setSlot_own]
      by_cases kept : newId = (u.1.slots ticker side).1
      · exact .inl kept
      · exact .inr (.inr (by simp [Call.issued, kept]))
  | released accepted =>
    refine ⟨_, _, rfl, rfl, fun id other _ => ?_, .inr (.inl ?_), setSlot_opposite _ _ _ _, ?_⟩
    · rw [order?_setSlot, order?_withOrders, OrderManager.cancelled_lookup, if_neg other]
      rfl
    · rw [setSlot_own]
    · exact fun id cancels => (cancelUrl_injective rest cancels.2).symm
  | forgotten untracked =>
    refine ⟨_, _, rfl, rfl, fun _ _ _ => rfl, .inr (.inl ?_), setSlot_opposite _ _ _ _, ?_⟩
    · rw [setSlot_own]
    · exact fun id cancels => (cancelUrl_injective rest cancels.2).symm
  | failed none_issued tracked =>
    refine ⟨_, _, rfl, rfl, fun _ _ _ => rfl, .inl rfl, rfl, fun id cancels => ?_⟩
    exact cancelUrl_injective rest (cancels.2.symm.trans (tracked cancels.1).1)

/-- A refused request on an order leaves the order as it is, and empties its slot only where a cancel was
answered for an order no longer tracked. -/
theorem stands (dealing : Dealing rest ticker side u v) (held : (u.1.slots ticker side).1 ≠ "")
    (refused : ∀ request, v.2 = u.2 ++ [request] → Refused rest (u.1.slots ticker side).1 [request]) :
    v.1.order? (u.1.slots ticker side).1 = u.1.order? (u.1.slots ticker side).1 ∧
      ((v.1.slots ticker side).1 = (u.1.slots ticker side).1 ∧ (u.1.order? (u.1.slots ticker side).1 = none →
          ∀ request, v.2 = u.2 ++ [request] → request.verb = .delete → request.status = none) ∨
        u.1.order? (u.1.slots ticker side).1 = none ∧ (v.1.slots ticker side).1 = "") := by
  cases dealing with
  | placed vacant => exact absurd vacant held
  | amended accepted =>
    have refusal := (refused _ rfl).amend _ (List.mem_singleton_self _) ⟨rfl, rfl⟩ _ rfl
    rw [accepted] at refusal
    cases refusal
  | released accepted =>
    exact absurd accepted ((refused _ rfl).cancel _ (List.mem_singleton_self _) ⟨rfl, rfl⟩ _ rfl)
  | forgotten untracked =>
    refine ⟨rfl, .inr ⟨untracked, ?_⟩⟩
    rw [setSlot_own]
  | @failed call request none_issued tracked =>
    refine ⟨rfl, .inl ⟨rfl, fun untracked other logged deletes => ?_⟩⟩
    obtain rfl : request = other := by simpa using logged
    by_contra answered
    exact (tracked deletes).2 answered untracked

end Dealing

/-- How an order held in a slot stands after requests none of which was granted for it. -/
structure Standing (rest : RestClient) (ticker : Ticker) (side : Side) (id : OrderId)
    (start u : Ledger F × List Exchanged) (new : List (Entry F)) (requests : List Exchanged) : Prop where
  calls : u.1.calls = start.1.calls ++ new
  log : u.2 = start.2 ++ requests
  order : u.1.order? id = start.1.order? id
  other : (u.1.slots ticker side.opposite).1 ≠ id
  slot : (u.1.slots ticker side).1 = id ∧ (start.1.order? id = none →
      ∀ request ∈ requests, request.Cancels rest id → request.status = none) ∨
    start.1.order? id = none ∧ ((u.1.slots ticker side).1 = "" ∨ (u.1.slots ticker side).1 ∈ issuedIds new)

namespace Standing

variable {rest : RestClient} {ticker : Ticker} {side : Side} {id : OrderId} {start u v : Ledger F × List Exchanged}
  {new : List (Entry F)} {requests : List Exchanged}

theorem opposite_opposite (side : Side) : side.opposite.opposite = side := by
  cases side <;> rfl

/-- A request on the other side does not reach the order. -/
theorem across (standing : Standing rest ticker side id start u new requests) (named : id ≠ "") {call : Call F}
    {request : Exchanged} (reaches : Reaches rest ticker side.opposite u v call request)
    (unissued : id ∉ call.issued) :
    Standing rest ticker side id start v (new ++ [⟨call, u.1.tickers⟩]) (requests ++ [request]) := by
  have slot : v.1.slots ticker side = u.1.slots ticker side := by
    simpa only [opposite_opposite] using reaches.other
  refine ⟨?_, ?_, ?_, ?_, ?_⟩
  · rw [reaches.calls, standing.calls, List.append_assoc]
  · rw [reaches.log, standing.log, List.append_assoc]
  · rw [reaches.order id standing.other.symm unissued, standing.order]
  · rcases reaches.own with same | empty | issued
    · exact same ▸ standing.other
    · exact empty ▸ named.symm
    · exact fun same => unissued (same ▸ issued)
  · rw [slot]
    rcases standing.slot with ⟨held, quiet⟩ | ⟨untracked, renewed⟩
    · refine .inl ⟨held, fun untracked other sent cancels => ?_⟩
      rcases List.mem_append.mp sent with earlier | last
      · exact quiet untracked other earlier cancels
      · obtain rfl := List.mem_singleton.mp last
        exact absurd (reaches.cancels id cancels).symm standing.other
    · refine .inr ⟨untracked, renewed.imp_right fun issued => ?_⟩
      exact (issuedIds_sublist rfl).subset issued

/-- A request on its own side leaves the order held, or empties the slot of an order no longer tracked; once the
slot is given up, only new ids come into it. -/
theorem along (standing : Standing rest ticker side id start u new requests) (named : id ≠ "")
    (old : id ∉ issuedIds new) (dealing : Dealing rest ticker side u v) {call : Call F} {request : Exchanged}
    (reaches : Reaches rest ticker side u v call request) (unissued : id ∉ call.issued)
    (refused : Refused rest id [request]) :
    Standing rest ticker side id start v (new ++ [⟨call, u.1.tickers⟩]) (requests ++ [request]) := by
  have calls : v.1.calls = start.1.calls ++ (new ++ [⟨call, u.1.tickers⟩]) := by
    rw [reaches.calls, standing.calls, List.append_assoc]
  have log : v.2 = start.2 ++ (requests ++ [request]) := by
    rw [reaches.log, standing.log, List.append_assoc]
  have other : (v.1.slots ticker side.opposite).1 ≠ id := by
    rw [reaches.other]
    exact standing.other
  rcases standing.slot with ⟨held, quiet⟩ | ⟨untracked, renewed⟩
  · subst held
    have only : ∀ other, v.2 = u.2 ++ [other] → other = request := by
      intro other logged
      rw [reaches.log] at logged
      exact (by simpa using logged : request = other).symm
    obtain ⟨same, ⟨kept, unanswered⟩ | ⟨untracked, empty⟩⟩ :=
      dealing.stands named fun other logged => only other logged ▸ refused
    · refine ⟨calls, log, same.trans standing.order, other, .inl ⟨kept, fun untracked other sent cancels => ?_⟩⟩
      rcases List.mem_append.mp sent with earlier | last
      · exact quiet untracked other earlier cancels
      · obtain rfl := List.mem_singleton.mp last
        exact unanswered (standing.order.trans untracked) other reaches.log cancels.1
    · exact ⟨calls, log, same.trans standing.order, other, .inr ⟨standing.order.symm.trans untracked, .inl empty⟩⟩
  · have different : id ≠ (u.1.slots ticker side).1 := by
      rintro rfl
      exact renewed.elim named old
    refine ⟨calls, log, (reaches.order id different unissued).trans standing.order, other, .inr ⟨untracked, ?_⟩⟩
    rcases reaches.own with same | empty | issued
    · rw [same]
      exact renewed.imp_right fun issued => (issuedIds_sublist rfl).subset issued
    · exact .inl empty
    · right
      rw [issuedIds_append, List.mem_append]
      exact .inr (by simpa [issuedIds] using issued)

/-- Whatever an update asks, without any of it being granted for the order. -/
theorem chain (named : id ≠ "") (issued : id ∈ issuedIds start.1.calls)
    (held : (start.1.slots ticker side).1 = id) (apart : (start.1.slots ticker side.opposite).1 ≠ id)
    (dealings : ReflTransGen (fun u v => ∃ side, Dealing rest ticker side u v) start u) (fresh : u.1.Fresh)
    (refused : ∀ requests, u.2 = start.2 ++ requests → Refused rest id requests) :
    ∃ new requests, Standing rest ticker side id start u new requests := by
  induction dealings with
  | refl =>
    refine ⟨[], [], (List.append_nil _).symm, (List.append_nil _).symm, rfl, apart, .inl ⟨held, fun _ _ none => ?_⟩⟩
    exact absurd none List.not_mem_nil
  | @tail u v _ step ih =>
    obtain ⟨aside, dealing⟩ := step
    obtain ⟨call, request, reaches⟩ := dealing.reaches
    obtain ⟨new, requests, standing⟩ := ih (fresh.sublist (issuedIds_sublist reaches.calls)) fun earlier logged =>
      (refused (earlier ++ [request]) (by rw [reaches.log, logged, List.append_assoc])).before
    have later : v.1.calls = start.1.calls ++ (new ++ [⟨call, u.1.tickers⟩]) := by
      rw [reaches.calls, standing.calls, List.append_assoc]
    -- ids given out since cannot be one given out before
    have unseen : id ∉ issuedIds (new ++ [⟨call, u.1.tickers⟩]) := by
      unfold Ledger.Fresh at fresh
      rw [later, issuedIds_append] at fresh
      exact List.disjoint_of_nodup_append fresh issued
    rw [issuedIds_append, List.mem_append, not_or] at unseen
    have unissued : id ∉ call.issued := by simpa [issuedIds] using unseen.2
    refine ⟨new ++ [⟨call, u.1.tickers⟩], requests ++ [request], ?_⟩
    by_cases own : aside = side
    · subst own
      apply standing.along named unseen.1 dealing reaches unissued
      have all := refused (requests ++ [request]) (by rw [reaches.log, standing.log, List.append_assoc])
      exact ⟨fun other sent => all.cancel other (List.mem_append_right _ sent),
        fun other sent => all.amend other (List.mem_append_right _ sent)⟩
    · have across : aside = side.opposite := by
        cases aside <;> cases side <;> first | rfl | exact absurd rfl own
      subst across
      exact standing.across named reaches unissued

end Standing

/-! ### Updates in a run -/

/-- An event of the session, an update of the quoter, or anything that leaves orders, slots and risk bits alone: the
exchange acting on its own, books, clocks and prices. -/
inductive Turn (venue : Venue X) (s : Desk F X) : Desk F X → Prop where
  | event (event : Event F) : Turn venue s (handle venue event s).2
  | update (ticker : Ticker) (book : LocalOrderbook) : Turn venue s (update venue ticker book s).2
  | elsewhere {s' : Desk F X} (same : s'.ledger = s.ledger) : Turn venue s s'

theorem turn_owned {venue : Venue X} {s s' : Desk F X} (turn : Turn venue s s')
    (owned : s.ledger.Fresh → s.ledger.Owned) : s'.ledger.Fresh → s'.ledger.Owned := by
  cases turn with
  | event event => exact does_owned (handle_leads venue event s) owned
  | update ticker book =>
    have chain : ReflTransGen (Does fun _ => True) s.ledger (update venue ticker book s).2.ledger :=
      (update_leads venue ticker book s).mono fun _ _ step => ⟨_, trivial, .quote step⟩
    exact does_owned chain owned
  | elsewhere same =>
    rw [same]
    exact owned

def Desk.requestsSince (before after : Desk F (X × List Exchanged)) : List Exchanged :=
  after.outside.2.drop before.outside.2.length

/-- The order is neither held nor tracked, and the side is open to quotes: its slot is empty, or holds an id given
out in between. -/
structure Recovered (id : OrderId) (ticker : Ticker) (side : Side) (before after : Desk F X) : Prop where
  released : (after.quoter.ownQuotes ticker side).orderId ≠ id
  untracked : after.orderMgr.openOrders.lookup id = none
  requoted : (after.quoter.ownQuotes ticker side).orderId = "" ∨
    ∃ new, after.calls = before.calls ++ new ∧ (after.quoter.ownQuotes ticker side).orderId ∈ issuedIds new

/-- In any run, an update that is answered not-found for the order in a slot recovers from it exactly if the order
manager does not track the order; and a tracked order for which nothing is granted stays tracked and held. -/
theorem withdrawn_recovered_iff (venue : Venue X) {start s : Desk F (X × List Exchanged)}
    (vacant : ∀ ticker, start.quoter.ownQuotes ticker = fun _ => {})
    (reached : ReflTransGen (Turn venue.recorded) start s) (ticker : Ticker) (book : LocalOrderbook) (side : Side)
    (held : (s.quoter.ownQuotes ticker side).orderId ≠ "")
    (fresh : (update venue.recorded ticker book s).2.ledger.Fresh) :
    let id := (s.quoter.ownQuotes ticker side).orderId
    let after := (update venue.recorded ticker book s).2
    (NotFound venue.rest id (s.requestsSince after) →
      (Recovered id ticker side s after ↔ s.orderMgr.openOrders.lookup id = none)) ∧
    (Refused venue.rest id (s.requestsSince after) → ∀ order, s.orderMgr.openOrders.lookup id = some order →
      after.orderMgr.openOrders.lookup id = some order ∧ (after.quoter.ownQuotes ticker side).orderId = id) := by
  intro id after
  have initial : start.ledger.Owned := by
    constructor
    · intro ticker side held
      simp [Desk.ledger, vacant] at held
    · intro t d t' d' held
      simp [Desk.ledger, vacant] at held
  obtain ⟨later, calls⟩ := @Does.chain_calls _ _ (fun _ => True) _ _
    ((update_leads venue.recorded ticker book s).mono fun _ _ step => ⟨_, trivial, .quote step⟩)
  have owned : s.ledger.Owned :=
    chain_invariant (fun s : Desk F (X × List Exchanged) => s.ledger.Fresh → s.ledger.Owned)
      (fun _ _ turn => turn_owned turn) reached (fun _ => initial) (fresh.sublist (issuedIds_sublist calls))
  have issued : id ∈ issuedIds s.calls := owned.issued ticker side held
  -- the opposite slot would share the id, and no two slots do
  have apart : (s.ledger.slots ticker side.opposite).1 ≠ id := by
    intro same
    have sides := (owned.apart ticker side ticker side.opposite held same.symm).2
    cases side <;> cases sides
  have since : ∀ requests, after.outside.2 = s.outside.2 ++ requests → s.requestsSince after = requests := by
    intro requests logged
    rw [Desk.requestsSince, logged, List.drop_left]
  have stands : Refused venue.rest id (s.requestsSince after) →
      ∃ new, Standing venue.rest ticker side id s.dealings after.dealings new (s.requestsSince after) := by
    intro refused
    obtain ⟨new, requests, standing⟩ := Standing.chain held issued rfl apart (update_dealings venue ticker book s)
      fresh fun requests logged => since requests logged ▸ refused
    exact ⟨new, since requests standing.log ▸ standing⟩
  constructor
  · intro gone
    obtain ⟨new, standing⟩ := stands gone.refused
    constructor
    · exact fun recovered => standing.order.symm.trans recovered.untracked
    · intro untracked
      obtain ⟨⟨request, sent, cancels⟩, answered⟩ := gone
      rcases standing.slot with ⟨_, quiet⟩ | ⟨_, renewed⟩
      · have unanswered := quiet untracked request sent cancels
        rw [answered request sent (.inl cancels)] at unanswered
        cases unanswered
      · refine ⟨?_, standing.order.trans untracked, renewed.imp_right fun issued => ⟨new, standing.calls, issued⟩⟩
        rintro same
        rcases renewed with empty | again
        · exact held (same.symm.trans empty)
        -- an id issued before cannot be issued again, so the slot has a new order or none
        · have unique : (issuedIds s.calls ++ issuedIds new).Nodup := by
            rw [← issuedIds_append, ← show after.calls = s.calls ++ new from standing.calls]
            exact fresh
          exact List.disjoint_of_nodup_append unique issued (same ▸ again)
  · intro refused order tracked
    obtain ⟨new, standing⟩ := stands refused
    refine ⟨standing.order.trans tracked, ?_⟩
    rcases standing.slot with ⟨kept, _⟩ | ⟨untracked, _⟩
    · exact kept
    · exact absurd (tracked.symm.trans untracked) (Option.some_ne_none _)

/-! ### A market paused -/

/-- An exchange that accepts every order, and answers not-found for those it has cancelled on its own. -/
structure Pausing where
  nextId : Nat := 1
  withdrawn : List OrderId := []
  time : TimePoint := 0

namespace Pausing

def rest : RestClient := ⟨"exchange"⟩

def host : Host Pausing where
  get _ x := (.ok { statusCode := 200 }, x)
  post url _ x :=
    if x.withdrawn.any fun id => url == rest.amendUrl id then (.ok { statusCode := 404 }, x)
    else (.ok (Script.acceptance x.nextId), { x with nextId := x.nextId + 1 })
  delete url x :=
    (.ok { statusCode := if x.withdrawn.any fun id => url == rest.cancelUrl id then 404 else 200 }, x)
  steadyNow x := (x.time, x)
  systemNow x := (x.time, x)
  arrange _ keys := keys
  arrange_perm _ keys := .refl keys

def venue : Venue Pausing := ⟨rest, host⟩

def start : Desk ℚ (Pausing × List Exchanged) :=
  (Process.start { tickers := ["M", "N"] } ({ useClearingPricing := true, fvEmaAlpha := 1 } : QuoterConfig ℚ) {}
    ({}, [])
    none none false false).desk

def book (bid : Int) : LocalOrderbook := ⟨{ ticker := "M", yes := [⟨bid, ⟨1000⟩⟩], no := [⟨40, ⟨1000⟩⟩] }⟩

/-- Quoted at 48 and 52. -/
def quoted : Desk ℚ (Pausing × List Exchanged) := (update venue.recorded "M" (book 40) start).2

/-- The exchange cancels the bid, and ten seconds go by. -/
def paused (s : Desk ℚ (Pausing × List Exchanged)) : Desk ℚ (Pausing × List Exchanged) :=
  { s with outside := ({ s.outside.1 with withdrawn := ["order-1"], time := 10 * nanosPerMilli * 1000 }, s.outside.2) }

/-- The bid is now wanted at 50. -/
def requoted (s : Desk ℚ (Pausing × List Exchanged)) : Desk ℚ (Pausing × List Exchanged) :=
  (update venue.recorded "M" (book 44) s).2

def misattributed : Fill ℚ where
  tradeId := "trade"
  orderId := "order-1"
  marketTicker := "N"
  side := .yes
  priceCents := 48
  quantity := ⟨1000⟩
  feeCents := 0
  isTaker := false
  timestamp := 0

theorem paused_reached : ReflTransGen (Turn venue.recorded) start (paused quoted) :=
  .tail (.single (.update "M" (book 40))) (.elsewhere rfl)

end Pausing

/-- The order left the registry by a fill that named another market: the answers release its slot. -/
theorem withdrawn_recovered_iff_untracked :
    let s := Pausing.paused (handle Pausing.venue.recorded (.fill Pausing.misattributed) Pausing.quoted).2
    (s.quoter.ownQuotes "M" .yes).orderId = "order-1" ∧ Recovered "order-1" "M" .yes s (Pausing.requoted s) := by
  intro s
  have reached : ReflTransGen (Turn Pausing.venue.recorded) Pausing.start s :=
    .tail (.tail (.single (.update "M" (Pausing.book 40))) (.event (.fill Pausing.misattributed))) (.elsewhere rfl)
  have held : (s.quoter.ownQuotes "M" .yes).orderId = "order-1" := by decide +kernel
  have recovers := (withdrawn_recovered_iff Pausing.venue (fun _ => rfl) reached "M" (Pausing.book 44) .yes
    (by rw [held]; decide) (by unfold Ledger.Fresh; decide +kernel)).1
  rw [held] at recovers
  exact ⟨held, (recovers (by decide +kernel)).mpr (by decide +kernel)⟩

/-- The exchange has cancelled the bid and answers not-found to the amend and to the cancel; the order stays tracked
and its slot held. -/
theorem withdrawn_order_kept :
    let s := Pausing.paused Pausing.quoted
    let after := Pausing.requoted s
    ReflTransGen (Turn Pausing.venue.recorded) Pausing.start s ∧ after.ledger.Fresh ∧
      (s.quoter.ownQuotes "M" .yes).orderId = "order-1" ∧
      (s.requestsSince after).map (fun request => (request.url, request.status)) =
        [(Pausing.rest.amendUrl "order-1", some 404), (Pausing.rest.cancelUrl "order-1", some 404),
          (Pausing.rest.amendUrl "order-2", some 201)] ∧
      NotFound Pausing.rest "order-1" (s.requestsSince after) ∧ ¬ Recovered "order-1" "M" .yes s after ∧
      (after.orderMgr.openOrders.lookup "order-1").isSome ∧ (after.quoter.ownQuotes "M" .yes).orderId = "order-1" := by
  intro s after
  refine ⟨Pausing.paused_reached, ?_, ?_, ?_, ?_, fun recovered => recovered.released ?_, ?_, ?_⟩
  · unfold Ledger.Fresh
    decide +kernel
  all_goals decide +kernel

end Kalshi
