import KalshiMaker.Properties.Headroom
import KalshiMaker.Properties.OrderMirror

/-! The net position of a market stays within its limits, whatever part of its live orders fills. -/
namespace Kalshi

open Effect Eff Desk Relation TradingSession

/-! ### The exchange -/

/-- The process, the orders that rest at the exchange, and the executions whose messages are under way. -/
structure Floor (F X : Type) [Floating F] where
  process : Process F X
  resting : OrderId → Option Order := fun _ => none
  flight : List (Fill F) := []

namespace Floor

/-- The exchange's book after a call it has answered. A refused amend or cancel leaves the order, a failed
placement leaves none, and an amend sets the order's total. -/
def answered {F : Type} (resting : OrderId → Option Order) : Call F → OrderId → Option Order
  | .place ticker side priceCents quantity (some id) =>
    Function.update resting id (some (Mirror.entered quantity id ticker side priceCents))
  | .amend id _ _ priceCents quantity (some newId) =>
    Function.update (Function.update resting id none) newId
      ((resting id).map fun order => { order with id := newId, priceCents, quantity })
  | .cancel id true => Function.update resting id none
  | .place _ _ _ _ none | .amend _ _ _ _ _ none | .cancel _ false | .recordFill _ _ => resting

def afterCalls {F : Type} (resting : OrderId → Option Order) (calls : List (Entry F)) : OrderId → Option Order :=
  calls.foldl (fun resting entry => answered resting entry.call) resting

section

variable {F X : Type} [Floating F] (venue : Venue X)

/-- An event of the process, and the exchange's answers to what it asks for. -/
def dispatched (f : Floor F X) (event : Event F) : Floor F X :=
  { f with
    process := f.process.dispatch venue event
    resting := afterCalls f.resting
      ((f.process.dispatch venue event).desk.calls.drop f.process.desk.calls.length) }

end

variable [Elementary ℚ] {X : Type} (venue : Venue X)

/-- The session is handed an event when no message is under way; its sweeps succeed and new ids are new.
The exchange fills at most what remains of an order, and may drop one. -/
inductive Step (f : Floor ℚ X) : Floor ℚ X → Prop where
  | event {event : Event ℚ} (scope : InScope f.process.desk event) (arrived : f.flight = [])
      (clean : Process.LeavesNoOrder venue f.process event)
      (fresh : (issuedIds (f.process.dispatch venue event).desk.calls).Nodup)
      (named : "" ∉ issuedIds (f.process.dispatch venue event).desk.calls) :
      Step f (f.dispatched venue event)
  | executed {order : Order} {fill : Fill ℚ} (found : f.resting fill.orderId = some order)
      (market : fill.marketTicker = order.marketTicker) (sided : fill.side = order.side)
      (positive : 0 < fill.quantity.centi) (within : fill.quantity ≤ order.remainingQuantity) :
      Step f { f with
        resting := Function.update f.resting fill.orderId (Mirror.afterExecution order fill.quantity)
        flight := f.flight ++ [fill] }
  | delivered {before after : List (Fill ℚ)} {fill : Fill ℚ} (next : f.flight = before ++ fill :: after) :
      Step f { f.dispatched venue (.fill fill) with flight := before ++ after }
  | dropped {id : OrderId} : Step f { f with resting := Function.update f.resting id none }

/-- The order manager has at least what rests at the exchange and what is under way of an order. -/
def Covers (mine theirs : Option Order) (due : Int) : Prop :=
  match mine, theirs with
  | some own, some order => order.marketTicker = own.marketTicker ∧ order.side = own.side ∧
      order.quantity = own.quantity ∧ own.filledQuantity.centi + due ≤ order.filledQuantity.centi ∧
      order.filledQuantity.centi < order.quantity.centi
  | some own, none => own.filledQuantity.centi + due ≤ own.quantity.centi
  | none, some _ => False
  | none, none => due = 0

omit [Elementary ℚ] in
/-- Less under way is covered too. -/
theorem Covers.less {mine theirs : Option Order} {due rest : Int} (covers : Covers mine theirs due)
    (less : rest ≤ due) (nonneg : 0 ≤ rest) : Covers mine theirs rest := by
  cases mine with
  | none =>
    cases theirs with
    | none =>
      unfold Covers at *
      dsimp only at *
      omega
    | some order => exact covers
  | some own =>
    cases theirs with
    | none =>
      unfold Covers at *
      dsimp only at *
      omega
    | some order =>
      obtain ⟨market, sided, sized, filled, within⟩ := covers
      exact ⟨market, sided, sized, by omega, within⟩

omit [Elementary ℚ] in
/-- An order the exchange no longer has is covered too. -/
theorem Covers.drop {mine theirs : Option Order} {due : Int} (covers : Covers mine theirs due) :
    Covers mine none due := by
  cases mine with
  | none =>
    cases theirs with
    | none => exact covers
    | some order => exact covers.elim
  | some own =>
    cases theirs with
    | none => exact covers
    | some order =>
      obtain ⟨_, _, sized, filled, within⟩ := covers
      unfold Covers
      dsimp only
      rw [← sized]
      omega

omit [Elementary ℚ] in
theorem afterCalls_append {F : Type} (resting : OrderId → Option Order) (first second : List (Entry F)) :
    afterCalls resting (first ++ second) = afterCalls (afterCalls resting first) second := List.foldl_append

omit [Elementary ℚ] in
theorem afterCalls_cancels {F : Type} (resting : OrderId → Option Order) (cancels : List (OrderId × Bool))
    (tickers : List Ticker) (id : OrderId) :
    afterCalls resting (cancels.map fun sent => (⟨.cancel sent.1 sent.2, tickers⟩ : Entry F)) id =
      if (id, true) ∈ cancels then none else resting id := by
  induction cancels generalizing resting with
  | nil => rfl
  | cons sent cancels ih =>
    obtain ⟨other, success⟩ := sent
    refine (ih (answered (F := F) resting (.cancel other success))).trans ?_
    cases success with
    | false => simp [answered]
    | true =>
      by_cases same : id = other
      · subst same
        simp [answered]
      · simp [answered, same]

/-- The order manager covers the exchange's book, with nothing under way. -/
def Mirrors (u : Posture ℚ) (resting : OrderId → Option Order) : Prop :=
  ∀ id, Covers (u.ledger.order? id) (resting id) 0

variable {venue} {limits : RiskLimits ℚ} {config : QuoterConfig ℚ} {u v : Posture ℚ}
  {resting : OrderId → Option Order}

theorem request_mirrors (postOnly : venue.PostOnly ℚ) {aim : Quoter.Aim} {ticker : Ticker} {side : Side}
    (request : Request venue aim ticker side u v) (bounded : u.Bounded limits config)
    (mirrors : Mirrors u resting) :
    ∃ call, v.ledger.calls = u.ledger.calls ++ [⟨call, u.ledger.tickers⟩] ∧ Mirrors v (answered resting call) := by
  cases request with
  | @placed desired order _ _ _ _ on sided priced counted positive unfilled =>
    refine ⟨_, rfl, fun id => ?_⟩
    simp only [Ledger.order?_setSlot, Ledger.order?_withOrders, OrderManager.placed_lookup, answered]
    by_cases new : id = order.id
    · subst new
      rw [if_pos rfl, Function.update_self]
      refine ⟨on.symm, sided.symm, counted.symm, ?_, ?_⟩
      · simp [unfilled postOnly, Mirror.entered]
      · simp only [Mirror.entered, Quantity.fromContracts_centi]
        omega
    · rw [if_neg new, Function.update_of_ne new]
      exact mirrors id
  | @amended desired newId _ _ _ _ =>
    refine ⟨_, rfl, fun id => ?_⟩
    simp only [Ledger.order?_setSlot, Ledger.order?_withOrders, answered]
    have slot := mirrors (u.ledger.slots ticker side).1
    -- the exchange drops the old id with the amend, whatever becomes of the new one
    have elsewhere : Covers (u.ledger.order? id)
        (Function.update resting (u.ledger.slots ticker side).1 none id) 0 := by
      by_cases old : id = (u.ledger.slots ticker side).1
      · rw [old, Function.update_self]
        exact slot.drop
      · rw [Function.update_of_ne old]
        exact mirrors id
    cases mine : u.ledger.order? (u.ledger.slots ticker side).1 with
    | none =>
      rw [OrderManager.amended_untracked mine]
      by_cases new : id = newId
      · subst new
        have gone : resting (u.ledger.slots ticker side).1 = none := by
          cases theirs : resting (u.ledger.slots ticker side).1 with
          | none => rfl
          | some order =>
            rw [mine, theirs] at slot
            exact slot.elim
        rw [Function.update_self, gone]
        exact (mirrors id).drop
      · rw [Function.update_of_ne new]
        exact elsewhere
    | some own =>
      rw [OrderManager.amended_lookup mine]
      by_cases new : id = newId
      · subst new
        rw [if_pos rfl, Function.update_self]
        rw [mine] at slot
        -- every quote has the configured size, so the amended order has that of the old
        have sized := bounded.sized _ own mine
        cases theirs : resting (u.ledger.slots ticker side).1 with
        | none =>
          rw [theirs] at slot
          exact slot
        | some order =>
          rw [theirs] at slot
          obtain ⟨market, sided, same, filled, within⟩ := slot
          have total : Quantity.fromContracts u.config.quoteSize = order.quantity := by
            rw [same, sized, bounded.configured]
          exact ⟨market, sided, total.trans same, filled, total ▸ within⟩
      · rw [if_neg new, Function.update_of_ne new]
        split
        next old =>
          rw [old, Function.update_self]
          rfl
        next => exact elsewhere
  | released =>
    refine ⟨_, rfl, fun id => ?_⟩
    simp only [Ledger.order?_setSlot, Ledger.order?_withOrders, OrderManager.cancelled_lookup, answered]
    by_cases same : id = (u.ledger.slots ticker side).1
    · subst same
      rw [if_pos rfl, Function.update_self]
      rfl
    · rw [if_neg same, Function.update_of_ne same]
      exact mirrors id
  | placeFailed _ _ _ _ | amendFailed _ _ _ _ | forgotten _ | kept => exact ⟨_, rfl, mirrors⟩

theorem moved_mirrors (postOnly : venue.PostOnly ℚ) (moved : Moved venue u v)
    (bounded : u.Bounded limits config) (mirrors : Mirrors u resting) :
    ∃ later, v.ledger.calls = u.ledger.calls ++ later ∧ Mirrors v (afterCalls resting later) := by
  cases moved with
  | quoted tracked room request =>
    obtain ⟨call, calls, mirrored⟩ := request_mirrors postOnly request bounded mirrors
    exact ⟨_, calls, mirrored⟩
  | @swept cancels slots =>
    refine ⟨_, rfl, fun id => ?_⟩
    rw [afterCalls_cancels]
    change Covers ((u.ledger.orderMgr.afterCancels cancels).openOrders.lookup id) _ 0
    rw [OrderManager.afterCancels_lookup]
    split
    · rfl
    · exact mirrors id
  | judged _ _ => exact ⟨[], (List.append_nil _).symm, mirrors⟩

/-- The state between steps, while the process lives. -/
structure Live (limits : RiskLimits ℚ) (config : QuoterConfig ℚ) (f : Floor ℚ X) : Prop where
  bounded : f.process.desk.posture.Bounded limits config
  tidy : f.process.desk.Tidy
  fresh : (issuedIds f.process.desk.calls).Nodup
  named : "" ∉ issuedIds f.process.desk.calls
  keeps : f.process.desk.KeepsTracked
  covers : ∀ id, Covers (f.process.desk.ledger.order? id) (f.resting id) (Mirror.pending f.flight id)
  positive : ∀ fill ∈ f.flight, 0 < fill.quantity.centi
  ours : ∀ fill ∈ f.flight, ∀ own, f.process.desk.ledger.order? fill.orderId = some own →
    fill.marketTicker = own.marketTicker ∧ fill.side = own.side

structure Sound (limits : RiskLimits ℚ) (config : QuoterConfig ℚ) (f : Floor ℚ X) : Prop where
  contained : ∀ ticker,
    (Caps.ofSettings limits config).Contains (f.process.desk.orderMgr.netPosition ticker).centi
  live : f.process.alive = true → f.Live limits config

/-- What a message under way is of: an open order, with so much left. -/
theorem Live.coversFill {f : Floor ℚ X} (live : f.Live limits config) {fill : Fill ℚ} (among : fill ∈ f.flight)
    (due : fill.quantity.centi ≤ Mirror.pending f.flight fill.orderId) :
    ∃ own, f.process.desk.ledger.CoversFill fill own := by
  have covers := live.covers fill.orderId
  have positive := live.positive fill among
  cases mine : f.process.desk.ledger.order? fill.orderId with
  | none =>
    rw [mine] at covers
    cases theirs : f.resting fill.orderId with
    | none =>
      rw [theirs] at covers
      unfold Covers at covers
      dsimp only at covers
      omega
    | some order =>
      rw [theirs] at covers
      exact covers.elim
  | some own =>
    obtain ⟨market, sided⟩ := live.ours fill among own mine
    refine ⟨own, mine, market, sided, positive, ?_⟩
    -- what is under way is covered by what the order manager still counts as open
    have reserved := covers.drop
    rw [mine] at reserved
    unfold Covers at reserved
    dsimp only at reserved
    simp only [Order.remainingQuantity, Quantity.sub_centi]
    omega

theorem executed_live {f : Floor ℚ X} {order : Order} {fill : Fill ℚ} (found : f.resting fill.orderId = some order)
    (market : fill.marketTicker = order.marketTicker) (sided : fill.side = order.side)
    (positive : 0 < fill.quantity.centi) (within : fill.quantity ≤ order.remainingQuantity)
    (live : f.Live limits config) :
    ({ f with
      resting := Function.update f.resting fill.orderId (Mirror.afterExecution order fill.quantity)
      flight := f.flight ++ [fill] } : Floor ℚ X).Live limits config := by
  refine ⟨live.bounded, live.tidy, live.fresh, live.named, live.keeps, fun id => ?_, ?_, ?_⟩
  · dsimp only
    rw [Mirror.pending_append, Mirror.pending_cons, Mirror.pending_nil, add_zero]
    -- the execution moves contracts from the resting order to the messages under way
    by_cases own : id = fill.orderId
    · subst own
      have covers := live.covers fill.orderId
      rw [found] at covers
      rw [Function.update_self, if_pos rfl]
      simp only [Quantity.le_iff, Order.remainingQuantity, Quantity.sub_centi] at within
      cases mine : f.process.desk.ledger.order? fill.orderId with
      | none =>
        rw [mine] at covers
        exact covers.elim
      | some own =>
        rw [mine] at covers
        obtain ⟨sameMarket, sameSide, sized, filled, _⟩ := covers
        have sizedCenti := congrArg Quantity.centi sized
        unfold Mirror.afterExecution
        dsimp only
        split
        next full =>
          unfold Covers
          dsimp only
          omega
        next partly =>
          refine ⟨sameMarket, sameSide, sized, ?_, ?_⟩
          · simp only [Quantity.add_centi]
            omega
          · simp only [Quantity.le_iff, Quantity.add_centi] at partly ⊢
            omega
    · rw [Function.update_of_ne own, if_neg (Ne.symm own), add_zero]
      exact live.covers id
  · intro other member
    rcases List.mem_append.mp member with before | last
    · exact live.positive other before
    · exact List.mem_singleton.mp last ▸ positive
  · intro other member own mine
    rcases List.mem_append.mp member with before | last
    · exact live.ours other before own mine
    · rw [List.mem_singleton.mp last] at mine ⊢
      have covers := live.covers fill.orderId
      rw [found, show f.process.desk.ledger.order? fill.orderId = some own from mine] at covers
      exact ⟨market.trans covers.1, sided.trans covers.2.1⟩

theorem event_sound (postOnly : venue.PostOnly ℚ) {f : Floor ℚ X} {event : Event ℚ}
    (scope : InScope f.process.desk event) (arrived : f.flight = [])
    (clean : Process.LeavesNoOrder venue f.process event)
    (fresh : (issuedIds (f.process.dispatch venue event).desk.calls).Nodup)
    (named : "" ∉ issuedIds (f.process.dispatch venue event).desk.calls) (sound : f.Sound limits config) :
    (f.dispatched venue event).Sound limits config := by
  rcases dispatch_cases venue f.process event with same | ⟨alive, done⟩ | ⟨alive, _, ended⟩
  · have still : f.dispatched venue event = f := by
      unfold dispatched
      rw [same, List.drop_length]
      rfl
    rw [still]
    exact sound
  · have live := sound.live alive
    let P : Posture ℚ → Prop := fun u => u.Bounded limits config ∧
      ∃ later, u.ledger.calls = f.process.desk.calls ++ later ∧ Mirrors u (afterCalls f.resting later)
    -- with no message under way the mirror is exact, and the event's own calls keep it so
    have mirrored : Mirrors f.process.desk.posture f.resting := by
      intro id
      have covers := live.covers id
      rwa [arrived, Mirror.pending_nil] at covers
    obtain ⟨bounded, later, calls, mirrors⟩ : P (handle venue event f.process.desk).2.posture := by
      refine chain_invariant P ?_ (handle_moved venue scope live.keeps)
        ⟨live.bounded, [], (List.append_nil _).symm, mirrored⟩
      rintro u v moved ⟨bounded, later, calls, mirrors⟩
      obtain ⟨more, added, mirrored⟩ := moved_mirrors postOnly moved bounded mirrors
      refine ⟨moved_bounded venue postOnly moved bounded, later ++ more, ?_, ?_⟩
      · rw [added, calls, List.append_assoc]
      · rw [afterCalls_append]
        exact mirrored
    have settled : (f.dispatched venue event).resting = afterCalls f.resting later := by
      unfold dispatched
      rw [done]
      dsimp only
      rw [show (handle venue event f.process.desk).2.calls = f.process.desk.calls ++ later from calls,
        List.drop_left]
    have process : (f.dispatched venue event).process = { desk := (handle venue event f.process.desk).2 } := done
    have flight : (f.dispatched venue event).flight = [] := arrived
    refine ⟨by rw [process]; exact bounded.contained, fun _ => ?_⟩
    constructor
    · rw [process]
      exact bounded
    · rw [process]
      exact Process.handle_tidy venue alive clean live.tidy
    · exact fresh
    · exact named
    · rw [process]
      exact handle_keeps venue scope live.keeps
    · rw [process, settled, flight]
      exact mirrors
    · rw [flight]
      exact nofun
    · rw [flight]
      exact nofun
  · have live := sound.live alive
    -- once the process has stopped only the bounds are left to keep
    have bounded : (cancelAllQuotes venue (handle venue event f.process.desk).2).2.posture.Bounded limits config :=
      chain_invariant (Posture.Bounded limits config) (fun _ _ => moved_bounded venue postOnly)
        (ReflTransGen.trans (handle_moved venue scope live.keeps) (cancelAllQuotes_moved venue _)) live.bounded
    have process : (f.dispatched venue event).process =
        { desk := (cancelAllQuotes venue (handle venue event f.process.desk).2).2, alive := false } := ended
    refine ⟨by rw [process]; exact bounded.contained, fun revived => ?_⟩
    rw [process] at revived
    cases revived

/-- What a recorded fill takes off the order it names, it takes off what is under way. -/
theorem Covers.recorded {L : Ledger ℚ} {fill : Fill ℚ} {own : Order} {theirs : Option Order} {rest : Int}
    (fills : L.CoversFill fill own) (covers : Covers (some own) theirs (fill.quantity.centi + rest))
    (nonneg : 0 ≤ rest) : Covers ((L.recorded fill).order? fill.orderId) theirs rest := by
  change Covers ((OrderManager.fillOrder L.orderMgr.openOrders fill).lookup fill.orderId) theirs rest
  rw [OrderManager.fillOrder_lookup_self fills.found]
  -- the exchange has the order no more, or still has some of it open
  cases theirs with
  | none =>
    unfold Covers at covers
    dsimp only at covers
    split
    next full =>
      simp only [Quantity.le_iff, Quantity.add_centi] at full
      unfold Covers
      dsimp only
      omega
    next =>
      unfold Covers
      simp only [Quantity.add_centi]
      omega
  | some order =>
    obtain ⟨market, sided, sized, filled, left⟩ := covers
    have sizedCenti := congrArg Quantity.centi sized
    split
    next full =>
      simp only [Quantity.le_iff, Quantity.add_centi] at full
      omega
    next =>
      refine ⟨market, sided, sized, ?_, left⟩
      simp only [Quantity.add_centi]
      omega

/-- A fill message asks nothing of the exchange. -/
theorem onFill_recordings (resting : OrderId → Option Order) (fill : Fill ℚ) (s : Desk ℚ X) :
    ∃ later, (onFill fill s).2.calls = s.calls ++ later ∧ afterCalls resting later = resting := by
  rcases onFill_cases fill s with ⟨same, _⟩ | ⟨noted, _⟩ | ⟨_, _, _, _, filled⟩
  · exact ⟨[], (congrArg Ledger.calls same).trans (List.append_nil _).symm, rfl⟩
  · exact ⟨[⟨.recordFill fill false, s.session.tickers⟩], congrArg Ledger.calls noted, rfl⟩
  · refine ⟨[⟨.recordFill fill true, s.session.tickers⟩], (congrArg Ledger.calls filled).trans ?_, rfl⟩
    dsimp only
    rw [Ledger.forgetFilled_calls]
    rfl

theorem onFill_issued (fill : Fill ℚ) (s : Desk ℚ X) :
    issuedIds (onFill fill s).2.calls = issuedIds s.calls := by
  have recording : ∀ new, issuedIds (s.calls ++ [⟨.recordFill fill new, s.session.tickers⟩]) = issuedIds s.calls :=
    fun new => by simp [issuedIds, Call.issued]
  rcases onFill_cases fill s with ⟨same, _⟩ | ⟨noted, _⟩ | ⟨_, _, _, _, filled⟩
  · exact congrArg (fun L : Ledger ℚ => issuedIds L.calls) same
  · exact (congrArg (fun L : Ledger ℚ => issuedIds L.calls) noted).trans (recording false)
  · refine (congrArg (fun L : Ledger ℚ => issuedIds L.calls) filled).trans ?_
    dsimp only
    rw [Ledger.forgetFilled_calls]
    exact recording true

/-- The process after a fill message: as it was but for a duplicate noted, or with the fill recorded. A
message that stops the process changes no position. -/
theorem delivered_live (venue : Venue X) {f : Floor ℚ X} {before after : List (Fill ℚ)} {fill : Fill ℚ}
    (next : f.flight = before ++ fill :: after) (live : f.Live limits config) :
    ({ process := { desk := (onFill fill f.process.desk).2 }, resting := f.resting, flight := before ++ after } :
      Floor ℚ X).Live limits config := by
  have among : fill ∈ f.flight := by simp [next]
  have stays : ∀ other ∈ before ++ after, other ∈ f.flight := by
    intro other member
    rw [next]
    rcases List.mem_append.mp member with front | back
    · exact List.mem_append_left _ front
    · exact List.mem_append_right _ (List.mem_cons_of_mem _ back)
  have positive : ∀ other ∈ before ++ after, 0 < other.quantity.centi :=
    fun other member => live.positive other (stays other member)
  have rest := Mirror.pending_nonneg positive
  have due := Mirror.pending_take next
  have small := live.positive fill among
  obtain ⟨own, covers⟩ := live.coversFill among (by rw [due, if_pos rfl]; have := rest fill.orderId; omega)
  have less : ∀ id, Covers (f.process.desk.ledger.order? id) (f.resting id) (Mirror.pending (before ++ after) id) := by
    intro id
    refine (live.covers id).less ?_ (rest id)
    rw [due]
    split <;> omega
  have tidy : (onFill fill f.process.desk).2.Tidy := by
    have handled : (handle venue (.fill fill) f.process.desk).2 = (onFill fill f.process.desk).2 :=
      andThen_pure_state (fun _ => ()) _
    rw [← handled]
    refine Process.careful_tidy venue ?_ live.tidy
    rintro _ (rfl | rfl) <;> exact id
  have setting := onFill_setting fill f.process.desk
  have config : (onFill fill f.process.desk).2.quoter.config = f.process.desk.quoter.config :=
    congrArg Prod.snd setting
  have keeps : (onFill fill f.process.desk).2.KeepsTracked := by
    have session : (onFill fill f.process.desk).2.session = f.process.desk.session :=
      congrArg (fun setting => setting.1.2.1) setting
    unfold Desk.KeepsTracked
    rw [session]
    exact live.keeps
  have posture : (onFill fill f.process.desk).2.posture =
      ⟨(onFill fill f.process.desk).2.ledger, f.process.desk.quoter.config⟩ := by
    rw [Desk.posture, config]
  have stay : ∀ other ∈ before ++ after, ∀ mine, f.process.desk.ledger.order? other.orderId = some mine →
      other.marketTicker = mine.marketTicker ∧ other.side = mine.side :=
    fun other member => live.ours other (stays other member)
  have issued := onFill_issued fill f.process.desk
  -- the fill is refused, a duplicate, or taken off its order
  rcases onFill_cases fill f.process.desk with ⟨same, _⟩ | ⟨noted, _⟩ | ⟨_, _, _, _, filled⟩
  · refine ⟨?_, tidy, issued ▸ live.fresh, issued ▸ live.named, keeps, ?_, positive, ?_⟩
    · rw [posture, same]
      exact live.bounded
    · rw [same]
      exact less
    · rw [same]
      exact stay
  · refine ⟨?_, tidy, issued ▸ live.fresh, issued ▸ live.named, keeps, ?_, positive, ?_⟩
    · rw [posture, noted]
      exact live.bounded.of_orders rfl rfl rfl rfl fun id order found => .inl ⟨id, order, found, rfl, rfl, rfl, rfl⟩
    · rw [noted]
      exact less
    · rw [noted]
      exact stay
  · have held := live.tidy.2 live.fresh live.named
    have order : ∀ id, (onFill fill f.process.desk).2.ledger.order? id =
        (f.process.desk.ledger.recorded fill).order? id := fun id => by
      rw [filled]
      exact Ledger.order?_forgetFilled _ _ _ _
    refine ⟨?_, tidy, issued ▸ live.fresh, issued ▸ live.named, keeps, fun id => ?_, positive,
      fun other member mine found => ?_⟩
    · rw [posture, filled]
      exact fill_bounded covers held live.bounded
    · dsimp only
      rw [order]
      by_cases named : id = fill.orderId
      · subst named
        have whole := live.covers fill.orderId
        rw [covers.found, due, if_pos rfl] at whole
        exact whole.recorded covers (rest _)
      · rw [Ledger.order?_recorded_ne _ _ named]
        exact less id
    · dsimp only at found
      rw [order] at found
      rcases order_recordedfill covers found with ⟨same, on, sided, _⟩ | ⟨_, was⟩
      · rw [on, sided]
        exact stay other member own (same ▸ covers.found)
      · exact stay other member mine was

theorem delivered_sound {f : Floor ℚ X} {before after : List (Fill ℚ)} {fill : Fill ℚ}
    (next : f.flight = before ++ fill :: after) (sound : f.Sound limits config) :
    ({ f.dispatched venue (.fill fill) with flight := before ++ after } : Floor ℚ X).Sound limits config := by
  cases alive : f.process.alive with
  | false =>
    have process : (f.dispatched venue (.fill fill)).process = f.process := dispatch_dead venue alive _
    refine ⟨?_, fun revived => ?_⟩
    · dsimp only
      rw [process]
      exact sound.contained
    · dsimp only at revived
      rw [process, alive] at revived
      cases revived
  | true =>
    have live := sound.live alive
    have recorded := delivered_live venue next live
    have handled : (handle venue (.fill fill) f.process.desk).2 = (onFill fill f.process.desk).2 :=
      andThen_pure_state (fun _ => ()) _
    rcases dispatch_alive venue alive (.fill fill) with done | ⟨_, ended⟩
    · have process : (f.dispatched venue (.fill fill)).process = { desk := (onFill fill f.process.desk).2 } := by
        rw [← handled]
        exact done
      have resting : (f.dispatched venue (.fill fill)).resting = f.resting := by
        obtain ⟨recordings, calls, quiet⟩ := onFill_recordings f.resting fill f.process.desk
        unfold dispatched
        dsimp only
        rw [done]
        dsimp only
        rw [handled, calls, List.drop_left, quiet]
      dsimp only
      rw [process, resting]
      exact ⟨recorded.bounded.contained, fun _ => recorded⟩
    · have process : (f.dispatched venue (.fill fill)).process =
          { desk := (cancelAllQuotes venue (onFill fill f.process.desk).2).2, alive := false } := by
        rw [← handled]
        exact ended
      dsimp only
      rw [process]
      refine ⟨?_, fun revived => ?_⟩
      · obtain ⟨cancels, x, ran, _⟩ := cancelAllQuotes_run venue (onFill fill f.process.desk).2
        dsimp only
        rw [ran]
        dsimp only
        intro ticker
        rw [afterCancels, OrderManager.afterCancels_netPosition]
        exact recorded.bounded.contained ticker
      · cases revived

theorem step_sound (postOnly : venue.PostOnly ℚ) {f f' : Floor ℚ X} (step : Step venue f f')
    (sound : f.Sound limits config) : f'.Sound limits config := by
  cases step with
  | event scope arrived clean fresh named => exact event_sound postOnly scope arrived clean fresh named sound
  | executed found market sided positive within =>
    exact ⟨sound.contained, fun alive => executed_live found market sided positive within (sound.live alive)⟩
  | delivered next => exact delivered_sound next sound
  | @dropped id =>
    refine ⟨sound.contained, fun alive => ?_⟩
    have live := sound.live alive
    refine ⟨live.bounded, live.tidy, live.fresh, live.named, live.keeps, fun other => ?_, live.positive, live.ours⟩
    dsimp only
    by_cases same : other = id
    · rw [same, Function.update_self]
      exact (live.covers id).drop
    · rw [Function.update_of_ne same]
      exact live.covers other

/-- A session at start-up that tracks `tickers`, and an exchange without orders of it. -/
def start (tickers : List Ticker) (errorCooldownMs : Int) (priorPnl : PnlMap ℚ) (config : QuoterConfig ℚ)
    (limits : RiskLimits ℚ) (outside : X) (flowGuard : Option (FlowImbalanceGuard ℚ))
    (tradeTape : Option (TradeTape ℚ)) (analytics pnlListener : Bool) : Floor ℚ X where
  process := .start { tickers, errorCooldownMs, priorPnl } config limits outside flowGuard tradeTape analytics
    pnlListener

theorem start_sound (tickers : List Ticker) (errorCooldownMs : Int) (priorPnl : PnlMap ℚ)
    (config : QuoterConfig ℚ) (limits : RiskLimits ℚ) (outside : X)
    (flowGuard : Option (FlowImbalanceGuard ℚ)) (tradeTape : Option (TradeTape ℚ))
    (analytics pnlListener : Bool) :
    (start tickers errorCooldownMs priorPnl config limits outside flowGuard tradeTape analytics
      pnlListener).Sound limits config := by
  have none : ∀ id order, (start tickers errorCooldownMs priorPnl config limits outside flowGuard tradeTape
      analytics pnlListener).process.desk.ledger.order? id ≠ some order := fun _ _ => nofun
  refine ⟨fun _ => .inl rfl, fun _ => ?_⟩
  constructor
  · refine ⟨rfl, rfl, fun _ _ => rfl, ?_, ?_, fun _ => .inl rfl⟩
    · exact fun id order found => absurd found (none id order)
    · exact fun id order found => absurd found (none id order)
  · exact Process.start_tidy _ _ _ _ _ _ _ _
  · exact List.nodup_nil
  · exact nofun
  · exact fun ticker among => absurd among (AList.notMem_empty ticker)
  · exact fun _ => rfl
  · exact nofun
  · exact nofun

end Floor

/-- In every state a market is flat, or its net position is within the position limit and less than one
quote beyond the inventory cap. -/
theorem position_bounded [Elementary ℚ] {X : Type} (venue : Venue X) (postOnly : venue.PostOnly ℚ)
    (tickers : List Ticker) (errorCooldownMs : Int) (priorPnl : PnlMap ℚ) (config : QuoterConfig ℚ)
    (limits : RiskLimits ℚ) (outside : X) (flowGuard : Option (FlowImbalanceGuard ℚ))
    (tradeTape : Option (TradeTape ℚ)) (analytics pnlListener : Bool) {f : Floor ℚ X}
    (run : ReflTransGen (Floor.Step venue) (Floor.start tickers errorCooldownMs priorPnl config limits outside
      flowGuard tradeTape analytics pnlListener) f) (ticker : Ticker) :
    (f.process.desk.orderMgr.netPosition ticker).centi = 0 ∨
      |(f.process.desk.orderMgr.netPosition ticker).centi| ≤ limits.maxPositionPerMarket * 100 ∧
      |(f.process.desk.orderMgr.netPosition ticker).centi| <
        (config.inventoryCapLots + 1) * config.quoteSize * 100 := by
  have sound : f.Sound limits config := by
    refine chain_invariant (Floor.Sound limits config) (fun _ _ => Floor.step_sound postOnly) run ?_
    exact Floor.start_sound _ _ _ _ _ _ _ _ _ _
  exact sound.contained ticker

namespace Floor

/-! ### A bid filled in part -/

def partVenue : Venue Script := ⟨⟨"exchange"⟩, Script.host⟩

/-- The scripted exchange reports no fill with an order it accepts. -/
theorem partVenue_postOnly : partVenue.PostOnly ℚ := by
  intro ticker side price count x order x' ran
  have unfilled : parseFpCount ℚ "0.00" = .ok {} := by decide +kernel
  have answered : Eff.ofExcept (placedOrder ℚ (Script.acceptance x.nextId) ticker side price count .limit)
      { x with nextId := x.nextId + 1 } = (.ok order, x') := ran
  simp only [placedOrder, Script.acceptance, checkResponse, HttpResponse.parse, Json.at, Json.find?, Json.getStr,
    Json.getInt, Json.valueStr, bind, Except.bind, pure, Except.pure] at answered
  simp [unfilled] at answered
  rw [← answered.1]

def partStart : Floor ℚ Script := start ["M"] 500 ∅ {} {} {} none none false false

def partSeed : Event ℚ := .seedOrderbook { ticker := "M", yes := [⟨40, ⟨1000⟩⟩], no := [⟨40, ⟨1000⟩⟩] }

def partFill : Fill ℚ where
  tradeId := "trade"
  orderId := "order-1"
  marketTicker := "M"
  side := .yes
  priceCents := 48
  quantity := ⟨425⟩
  feeCents := 0
  isTaker := false
  timestamp := 0

def partExecuted : Floor ℚ Script :=
  let quoted := partStart.dispatched partVenue partSeed
  { quoted with
    resting := Function.update quoted.resting "order-1"
      (Mirror.afterExecution (Mirror.entered 10 "order-1" "M" .yes 48) ⟨425⟩)
    flight := [partFill] }

def partDelivered : Floor ℚ Script := { partExecuted.dispatched partVenue (.fill partFill) with flight := [] }

theorem part_run : ReflTransGen (Step partVenue) partStart partDelivered := by
  have quoted : Step partVenue partStart (partStart.dispatched partVenue partSeed) :=
    .event (List.mem_singleton.mpr rfl : "M" ∈ ["M"]) rfl (.of_finished partVenue (by decide +kernel) trivial)
      (by decide +kernel)
      (by decide +kernel)
  have executed : Step partVenue (partStart.dispatched partVenue partSeed) partExecuted :=
    @Step.executed _ _ partVenue (partStart.dispatched partVenue partSeed) (Mirror.entered 10 "order-1" "M" .yes 48)
      partFill (by decide +kernel) rfl rfl (by decide) (by decide)
  have delivered : Step partVenue partExecuted partDelivered :=
    @Step.delivered _ _ partVenue partExecuted [] [] partFill rfl
  exact .tail (.tail (.single quoted) executed) delivered

end Floor

/-- 4.25 contracts of the bid have filled: the position is 4.25, within the limit of 100 and below the 30
that the brake allows. -/
theorem position_bounded_part_fill :
    (Floor.partDelivered.process.desk.orderMgr.netPosition "M").centi = 425 ∧
      |(Floor.partDelivered.process.desk.orderMgr.netPosition "M").centi| ≤ 100 * 100 ∧
      |(Floor.partDelivered.process.desk.orderMgr.netPosition "M").centi| < (2 + 1) * 10 * 100 := by
  have net : (Floor.partDelivered.process.desk.orderMgr.netPosition "M").centi = 425 := by decide +kernel
  rcases position_bounded Floor.partVenue Floor.partVenue_postOnly ["M"] 500 ∅ {} {} {} none none false false
    Floor.part_run "M" with flat | bounded
  · rw [net] at flat
    cases flat
  · exact ⟨net, bounded⟩

/-- A limit below zero is exceeded before anything is traded. -/
theorem flat_start_beyond_negative_limit :
    ∃ f : Floor ℚ Script,
      ReflTransGen (Floor.Step Floor.partVenue)
        (Floor.start ["M"] 500 ∅ {} { maxPositionPerMarket := -1 } {} none none false false) f ∧
      ¬ |(f.process.desk.orderMgr.netPosition "M").centi| ≤ -1 * 100 :=
  ⟨_, .refl, by decide +kernel⟩

end Kalshi
