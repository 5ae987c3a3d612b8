import KalshiMaker.Exchange.LotMatching
import KalshiMaker.Properties.InventoryBrake
import KalshiMaker.Properties.PositionBound

/-! Winding a position down: what updates in reduce-only mode, and the fills of their orders, do to it. -/
namespace Kalshi

open Effect Eff Desk Quoter Relation TradingSession

/-! ### Positions and quotes -/

/-- Nearer to flat, and not past it. -/
def Shrinks (position position' : Int) : Prop :=
  0 ≤ position' ∧ position' ≤ position ∨ position ≤ position' ∧ position' ≤ 0

theorem Shrinks.refl (position : Int) : Shrinks position position := by
  unfold Shrinks
  omega

theorem Shrinks.trans {p q r : Int} (first : Shrinks p q) (second : Shrinks q r) : Shrinks p r := by
  unfold Shrinks at *
  omega

/-- The magnitude does not grow and the sign does not change. -/
theorem Shrinks.exposure {p q : Int} (shrinks : Shrinks p q) : |q| ≤ |p| ∧ (0 ≤ p → 0 ≤ q) ∧ (p ≤ 0 → q ≤ 0) := by
  rcases shrinks with ⟨nonneg, within⟩ | ⟨within, nonpos⟩
  · refine ⟨?_, fun _ => nonneg, fun _ => by omega⟩
    rw [abs_of_nonneg nonneg, abs_of_nonneg (by omega)]
    exact within
  · refine ⟨?_, fun _ => by omega, fun _ => nonpos⟩
    rw [abs_of_nonpos nonpos, abs_of_nonpos (by omega)]
    omega

/-- What a side may trade before the position is flat. -/
def Side.room (side : Side) (position : Int) : Int := max 0 (-side.toward position)

/-- A fill within the room of its side brings the position nearer to flat. -/
theorem Side.shrinks {side : Side} {position quantity : Int} (positive : 0 < quantity)
    (within : quantity ≤ side.room position) : Shrinks position (position + side.toward quantity) := by
  unfold Shrinks
  unfold Side.room at within
  cases side with
  | yes | no =>
    simp only [Side.toward] at *
    omega

/-- A fill takes from the room of its side what it trades, and gives none to the other side. -/
theorem Side.room_filled {side : Side} {position quantity : Int} (positive : 0 < quantity)
    (within : quantity ≤ side.room position) :
    side.room (position + side.toward quantity) = side.room position - quantity ∧ side.opposite.room position = 0 ∧
      side.opposite.room (position + side.toward quantity) = 0 := by
  unfold Side.room at *
  cases side with
  | yes | no =>
    simp only [Side.toward, Side.opposite] at *
    omega

theorem Side.room_eq {side : Side} {position : Int} (nearer : 0 < side.room position) :
    side.room position = |position| := by
  cases side with
  | yes | no =>
    simp only [Side.room, Side.toward] at *
    rcases abs_cases position with ⟨size, _⟩ | ⟨size, _⟩
    · rw [size]
      omega
    · rw [size]
      omega

/-- Only one side brings a position nearer to flat. -/
theorem Side.eq_of_room {side other : Side} {position : Int} (nearer : 0 < side.room position)
    (otherNearer : 0 < other.room position) : other = side := by
  by_contra different
  rw [Side.eq_opposite_of_ne different] at otherNearer
  cases side with
  | yes | no =>
    simp only [Side.room, Side.toward, Side.opposite] at *
    omega

section

variable {F X : Type} [Floating F]

namespace Ledger

def net (L : Ledger F) (ticker : Ticker) : Int := (L.orderMgr.netPosition ticker).centi

/-- The open order that a side of the quote holds. -/
def quoted? (L : Ledger F) (ticker : Ticker) (side : Side) : Option Order :=
  if (L.slots ticker side).1 = "" then none else L.order? (L.slots ticker side).1

/-- No order of the quote has more left to fill than brings the position to flat. -/
def Unwinding (L : Ledger F) (ticker : Ticker) : Prop :=
  ∀ side order, L.quoted? ticker side = some order → order.remainingQuantity.centi ≤ side.room (L.net ticker)

theorem quoted?_eq_some {L : Ledger F} {ticker : Ticker} {side : Side} {order : Order} :
    L.quoted? ticker side = some order ↔
      (L.slots ticker side).1 ≠ "" ∧ L.order? (L.slots ticker side).1 = some order := by
  unfold quoted?
  split
  next vacant => simp [vacant]
  next held => simp [held]

theorem quoted?_vacant {L : Ledger F} {ticker : Ticker} {side : Side} (vacant : (L.slots ticker side).1 = "") :
    L.quoted? ticker side = none := if_pos vacant

end Ledger

/-- The exposure has not grown, and the position has not changed sign. -/
def Desk.NoMoreExposed (s t : Desk F X) (ticker : Ticker) : Prop :=
  |t.ledger.net ticker| ≤ |s.ledger.net ticker| ∧ (0 ≤ s.ledger.net ticker → 0 ≤ t.ledger.net ticker) ∧
    (s.ledger.net ticker ≤ 0 → t.ledger.net ticker ≤ 0)

instance (s t : Desk F X) (ticker : Ticker) : Decidable (s.NoMoreExposed t ticker) :=
  inferInstanceAs (Decidable (_ ∧ _ ∧ _))

/-- What winding a market down goes by has not changed. -/
structure Desk.SameStake (s t : Desk F X) (ticker : Ticker) : Prop where
  net : t.ledger.net ticker = s.ledger.net ticker
  quoted : ∀ side, t.ledger.quoted? ticker side = s.ledger.quoted? ticker side
  reduceOnly : t.quoter.reduceOnly = s.quoter.reduceOnly
  issued : t.ledger.Issued

/-- Part or all of what is left of the order in a side of the quote is filled. -/
structure Desk.FillsQuote (s : Desk F X) (ticker : Ticker) (fill : Fill F) (order : Order) : Prop where
  quoted : s.ledger.quoted? ticker fill.side = some order
  ours : fill.orderId = (s.quoter.ownQuotes ticker fill.side).orderId
  market : fill.marketTicker = ticker
  positive : 0 < fill.quantity.centi
  within : fill.quantity.centi ≤ order.remainingQuantity.centi

theorem Desk.fillsQuote_of {s : Desk F X} {ticker : Ticker} {fill : Fill F}
    (left : (s.ledger.quoted? ticker fill.side).any
      (fun order => decide (fill.quantity.centi ≤ order.remainingQuantity.centi)) = true)
    (ours : fill.orderId = (s.quoter.ownQuotes ticker fill.side).orderId) (market : fill.marketTicker = ticker)
    (positive : 0 < fill.quantity.centi) : ∃ order, s.FillsQuote ticker fill order := by
  rw [Option.any_eq_true] at left
  obtain ⟨order, quoted, within⟩ := left
  exact ⟨order, quoted, ours, market, positive, of_decide_eq_true within⟩

/-! ### A fill -/

/-- After a fill a side of the quote holds the order it held, less what was filled of it. -/
theorem Desk.FillsQuote.left {s : Desk F X} {ticker : Ticker} {fill : Fill F} {order left : Order} {side : Side}
    (fills : s.FillsQuote ticker fill order)
    (found : ((s.ledger.recorded fill).forgetFilled fill.marketTicker fill.orderId).quoted? ticker side = some left) :
    s.ledger.quoted? ticker side = some order ∧
      left.remainingQuantity.centi = order.remainingQuantity.centi - fill.quantity.centi ∨
    side ≠ fill.side ∧ s.ledger.quoted? ticker side = some left := by
  obtain ⟨named, held⟩ := Ledger.quoted?_eq_some.mp found
  rw [Ledger.forgetFilled_slots] at named held
  rw [Ledger.order?_forgetFilled] at held
  obtain ⟨_, standing⟩ := Ledger.quoted?_eq_some.mp fills.quoted
  split at named
  next emptied => exact absurd rfl named
  next kept =>
    rw [if_neg kept] at held
    change (s.ledger.slots ticker side).1 ≠ "" at named
    change (s.ledger.recorded fill).order? (s.ledger.slots ticker side).1 = some left at held
    -- a slot with another id keeps its order; the filled one is on the fill's side
    by_cases own : (s.ledger.slots ticker side).1 = fill.orderId
    · refine .inl ⟨?_, ?_⟩
      · refine Ledger.quoted?_eq_some.mpr ⟨named, ?_⟩
        rw [own, fills.ours]
        exact standing
      · rw [own] at held
        have before : s.orderMgr.openOrders.lookup fill.orderId = some order := by
          rw [fills.ours]
          exact standing
        change (OrderManager.fillOrder s.orderMgr.openOrders fill).lookup fill.orderId = some left at held
        rw [OrderManager.fillOrder_lookup_self before] at held
        split at held
        · cases held
        · cases held
          simp only [Order.remainingQuantity, Quantity.sub_centi, Quantity.add_centi]
          omega
    · rw [Ledger.order?_recorded_ne _ _ own] at held
      refine .inr ⟨fun same => own ?_, Ledger.quoted?_eq_some.mpr ⟨named, held⟩⟩
      rw [same, fills.ours]
      rfl

/-- A fill of a quote that only winds down brings the position nearer to flat, and leaves a quote that only winds
down. -/
theorem Desk.FillsQuote.unwinds {s : Desk F X} {ticker : Ticker} {fill : Fill F} {order : Order}
    (fills : s.FillsQuote ticker fill order) (unwinding : s.ledger.Unwinding ticker) :
    (onFill fill s).2.ledger.Unwinding ticker ∧
      Shrinks (s.ledger.net ticker) ((onFill fill s).2.ledger.net ticker) := by
  rcases onFill_cases fill s with ⟨same, _⟩ | ⟨refilled, _⟩ | ⟨_, _, _, _, filled⟩
  · rw [same]
    exact ⟨unwinding, Shrinks.refl _⟩
  · rw [refilled]
    exact ⟨unwinding, Shrinks.refl _⟩
  · have positive := fills.positive
    have room := fills.within.trans (unwinding fill.side order fills.quoted)
    have net : (onFill fill s).2.ledger.net ticker = s.ledger.net ticker + fill.side.toward fill.quantity.centi := by
      rw [filled]
      unfold Ledger.net
      dsimp only
      rw [Ledger.forgetFilled_orderMgr]
      refine (OrderManager.bookFill_netPosition s.orderMgr fill ticker).trans ?_
      rw [if_pos fills.market.symm]
      rfl
    obtain ⟨taken, before, after⟩ := Side.room_filled positive room
    rw [net]
    refine ⟨fun side left found => ?_, Side.shrinks positive room⟩
    rw [net]
    rw [filled] at found
    have stood := unwinding side
    -- on the filled side the room shrinks with the order, on the other it only grows
    rcases fills.left found with ⟨held, less⟩ | ⟨other, held⟩
    · have within := stood order held
      by_cases own : side = fill.side
      · rw [own] at within ⊢
        omega
      · rw [Side.eq_opposite_of_ne own] at within ⊢
        omega
    · have within := stood left held
      rw [Side.eq_opposite_of_ne other] at within ⊢
      omega

/-! ### An update -/

/-- The exchange lets a new order rest on a market. -/
def Call.enters : Call F → Option Ticker
  | .place ticker _ _ _ (some _) => some ticker
  | .place _ _ _ _ none | .amend _ _ _ _ _ _ | .cancel _ _ | .recordFill _ _ => none

/-- An order was placed on a market. -/
def Entered (ticker : Ticker) (calls : List (Entry F)) : Prop := ∃ entry ∈ calls, entry.call.enters = some ticker

instance (ticker : Ticker) (calls : List (Entry F)) : Decidable (Entered ticker calls) :=
  inferInstanceAs (Decidable (∃ entry ∈ calls, _))

/-- The order of a side has at most this much left. -/
def Ledger.LeftWithin (L : Ledger F) (ticker : Ticker) (side : Side) (room : Int) : Prop :=
  ∀ order, L.quoted? ticker side = some order → order.remainingQuantity.centi ≤ room

/-- A request that aims at no other side keeps what is left of the order of this one within the room, where a new order
is within it. -/
theorem Request.keeps_within {venue : Venue X} (postOnly : venue.PostOnly F) {aim : Aim} {ticker : Ticker}
    {side aside : Side} {room : Int} {u v : Posture F} (request : Request venue aim ticker aside u v)
    (only : ∀ aside desired, aim aside = some desired → aside = side) (issued : u.ledger.Issued)
    (fresh : (issuedIds v.ledger.calls).Nodup) (within : u.ledger.LeftWithin ticker side room)
    (sized : ∀ later, v.ledger.calls = u.ledger.calls ++ later → Entered ticker later →
      (Quantity.fromContracts u.config.quoteSize).centi ≤ room) : v.ledger.LeftWithin ticker side room := by
  -- a request that empties a slot leaves the other one as it was
  have emptied : ∀ {v : Posture F} {cents : Int}, (∀ side, v.ledger.slots ticker side =
      if ticker = ticker ∧ side = aside then ("", cents) else u.ledger.slots ticker side) →
      (∀ id order, v.ledger.order? id = some order → u.ledger.order? id = some order) →
      v.ledger.LeftWithin ticker side room := by
    intro v cents slots orders order found
    obtain ⟨named, held⟩ := Ledger.quoted?_eq_some.mp found
    rw [slots] at named held
    split at named
    next pulled => exact absurd rfl named
    next kept =>
      rw [if_neg kept] at held
      exact within order (Ledger.quoted?_eq_some.mpr ⟨named, orders _ _ held⟩)
  cases request with
  | @placed desired order wanted _ _ _ _ _ _ counted _ unfilled =>
    have own := only aside desired wanted
    subst own
    intro found quoted
    obtain ⟨_, held⟩ := Ledger.quoted?_eq_some.mp quoted
    rw [Ledger.setSlot_slots, if_pos ⟨rfl, rfl⟩] at held
    rw [Ledger.order?_setSlot, Ledger.order?_withOrders, OrderManager.placed_lookup, if_pos rfl] at held
    cases held
    have entered := sized _ rfl ⟨_, List.mem_singleton_self _, rfl⟩
    rw [Order.remainingQuantity, counted, unfilled postOnly]
    simpa using entered
  | @amended desired newId wanted _ held _ =>
    have own := only aside desired wanted
    subst own
    intro found quoted
    obtain ⟨_, standing⟩ := Ledger.quoted?_eq_some.mp quoted
    rw [Ledger.setSlot_slots, if_pos ⟨rfl, rfl⟩, Ledger.order?_setSlot, Ledger.order?_withOrders] at standing
    cases tracked : u.ledger.order? (u.ledger.slots ticker aside).1 with
    | none =>
      rw [OrderManager.amended_untracked tracked] at standing
      by_cases same : newId = (u.ledger.slots ticker aside).1
      · rw [same] at standing
        exact within found (Ledger.quoted?_eq_some.mpr ⟨held, standing⟩)
      · -- an id that is new is not that of an open order
        have new : newId ∉ issuedIds u.ledger.calls :=
          Ledger.not_issued_before fresh (by simpa [Call.issued] using same)
        exact absurd (issued newId found standing) new
    | some order =>
      rw [OrderManager.amended_lookup tracked, if_pos rfl] at standing
      cases standing
      exact within order (Ledger.quoted?_eq_some.mpr ⟨held, tracked⟩)
  | placeFailed _ _ _ _ | amendFailed _ _ _ _ | kept => exact within
  | released =>
    refine emptied (fun side => Ledger.setSlot_slots _ _ _ _ _ _) fun id order found => ?_
    rw [Ledger.order?_setSlot, Ledger.order?_withOrders, OrderManager.cancelled_lookup] at found
    split at found
    · cases found
    · exact found
  | forgotten _ => exact emptied (fun side => Ledger.setSlot_slots _ _ _ _ _ _) fun id order found => found

variable {venue : Venue X} {aim : Aim} {ticker : Ticker} {side : Side} {u v : Posture F}

theorem Request.net {aside : Side} (request : Request venue aim ticker aside u v) (market : Ticker) :
    v.ledger.net market = u.ledger.net market := by
  cases request with
  | amended _ _ _ _ => exact congrArg (fun net => (net market).centi) (OrderManager.amended_netPosition _ _ _ _)
  | placed _ _ _ _ _ _ _ _ _ _ | placeFailed _ _ _ _ | amendFailed _ _ _ _ | released | forgotten _ | kept => rfl

/-- Requests that aim at no other side keep what is left of the order of this one within the room, where a new order is
within it. -/
theorem requests_keep_within (postOnly : venue.PostOnly F) {room : Int}
    (chain : ReflTransGen (fun u v => ∃ aside, Request venue aim ticker aside u v) u v)
    (only : ∀ aside desired, aim aside = some desired → aside = side) (issued : u.ledger.Issued)
    (fresh : (issuedIds v.ledger.calls).Nodup) (within : u.ledger.LeftWithin ticker side room)
    (sized : ∀ later, v.ledger.calls = u.ledger.calls ++ later → Entered ticker later →
      (Quantity.fromContracts u.config.quoteSize).centi ≤ room) : v.ledger.LeftWithin ticker side room := by
  induction chain with
  | refl => exact within
  | @tail v w chain step ih =>
    obtain ⟨aside, request⟩ := step
    obtain ⟨_, earlier, calls, _⟩ := requests_send chain
    obtain ⟨_, call, added, _⟩ := request.sends
    have config : v.config = u.config :=
      chain_invariant (fun v => v.config = u.config) (fun _ _ ⟨_, request⟩ same => request.config.trans same) chain rfl
    have known : v.ledger.Issued := chain_invariant (fun v : Posture F => v.ledger.Issued)
      (fun _ _ ⟨_, request⟩ known => Ledger.quoteStep_issued request.quoteStep known) chain issued
    -- what was entered earlier in the chain is entered in the chain
    have before := ih (fresh.sublist (Ledger.issuedIds_sublist added)) fun later grown entered => by
      rw [calls, List.append_cancel_left_eq] at grown
      subst grown
      obtain ⟨entry, member, enters⟩ := entered
      refine sized (earlier ++ [⟨call, _⟩]) (by rw [added, calls, List.append_assoc]) ⟨entry, ?_, enters⟩
      exact List.mem_append_left _ member
    refine request.keeps_within postOnly only known fresh before fun later grown entered => ?_
    rw [config]
    obtain ⟨entry, member, enters⟩ := entered
    refine sized (earlier ++ later) (by rw [grown, calls, List.append_assoc]) ⟨entry, ?_, enters⟩
    exact List.mem_append_right _ member

/-- A side without an aim that holds no order is left so. -/
theorem requests_keep_vacant (chain : ReflTransGen (fun u v => ∃ aside, Request venue aim ticker aside u v) u v)
    (barred : aim side = none) (vacant : (u.ledger.slots ticker side).1 = "") :
    (v.ledger.slots ticker side).1 = "" := by
  refine chain_invariant (fun v : Posture F => (v.ledger.slots ticker side).1 = "") ?_ chain vacant
  rintro v w ⟨aside, request⟩ empty
  by_cases own : aside = side
  · subst own
    cases request with
    | placed wanted _ _ _ _ _ _ _ _ _ | amended wanted _ _ _ =>
      rw [barred] at wanted
      cases wanted
    | placeFailed _ _ _ _ | amendFailed _ _ _ _ | kept => exact empty
    | released | forgotten _ =>
      dsimp only
      rw [Ledger.setSlot_slots, if_pos ⟨rfl, rfl⟩]
  · have same := request.other_slot
    rw [← Side.eq_opposite_of_ne (Ne.symm own)] at same
    rw [same]
    exact empty

theorem update_reduceOnly (venue : Venue X) (ticker : Ticker) (book : LocalOrderbook) (s : Desk F X) :
    (update venue ticker book s).2.quoter.reduceOnly = s.quoter.reduceOnly := by
  let view := fun s : Desk F X => s.quoter.reduceOnly
  have beside : ∀ side, Beside ticker side view :=
    fun side => ⟨fun _ _ => rfl, fun _ _ => rfl, fun _ _ _ => rfl, fun _ _ => rfl⟩
  have moves : Moves venue ticker view fun _ _ => False :=
    { steady := fun _ => rfl
      system := fun _ => rfl
      ema := fun _ _ => rfl
      emit := fun _ _ _ => rfl
      fade := fun _ _ _ => rfl
      enter := fun {side desired now s} _ => (beside side).enter venue desired now s
      amend := fun {side desired now crossing s} _ => (beside side).amendInPlace venue desired now crossing s
      release := fun side s => (beside side).releaseSlot venue s }
  exact chain_unmoved (update_moves moves book s)

theorem onFill_reduceOnly (fill : Fill F) (s : Desk F X) :
    (onFill fill s).2.quoter.reduceOnly = s.quoter.reduceOnly := by
  let view := fun s : Desk F X => s.quoter.reduceOnly
  have blind : FillBlind view :=
    ⟨fun _ _ _ => rfl, fun _ _ => rfl, fun _ _ => rfl, fun _ _ => rfl, fun _ _ => rfl, fun _ _ => rfl⟩
  exact blind.onFill fill s

end

/-! ### A run in reduce-only mode -/

section

variable [Elementary ℚ] {X : Type} (venue : Venue X) (ticker : Ticker)

/-- An update in which nothing that could take the position past flat, or away from it, is left in the quote: an order
on a side that does not bring it nearer to flat is pulled, and on the side that does, the order there is and the one
that is placed are no larger than the position. -/
structure Desk.WindsDown (book : LocalOrderbook) (s : Desk ℚ X) : Prop where
  lives : ∀ what, (update venue ticker book s).1 ≠ .error (.abort what)
  fresh : (issuedIds (update venue ticker book s).2.calls).Nodup
  pulls : ∀ side, side.room (s.ledger.net ticker) = 0 → (s.quoter.ownQuotes ticker side).orderId = "" ∨
    ¬ (s.bookWithoutOwnQuotes ticker book).Degenerate ∧ s.CancelsAccepted (update venue ticker book s).2
  rests : ∀ side, 0 < side.room (s.ledger.net ticker) → s.ledger.LeftWithin ticker side |s.ledger.net ticker|
  enters : Entered ticker (s.callsSince (update venue ticker book s).2) →
    (Quantity.fromContracts s.quoter.config.quoteSize).centi ≤ |s.ledger.net ticker|

/-- An update of the market, a fill of its quote, or anything else that leaves the market's position and
quote alone. -/
inductive Desk.WindTurn (s : Desk ℚ X) : Desk ℚ X → Prop where
  | update (book : LocalOrderbook) (windsDown : s.WindsDown venue ticker book) :
      WindTurn s (Quoter.update venue ticker book s).2
  | fill {fill : Fill ℚ} {order : Order} (fills : s.FillsQuote ticker fill order) : WindTurn s (onFill fill s).2
  | elsewhere {t : Desk ℚ X} (same : s.SameStake t ticker) : WindTurn s t

/-- In reduce-only mode, with a quote that only winds the position down. -/
structure Desk.WindingDown (s : Desk ℚ X) : Prop where
  reduceOnly : s.quoter.reduceOnly = true
  issued : s.ledger.Issued
  unwinding : s.ledger.Unwinding ticker

variable {venue ticker}

/-- In reduce-only mode the brake is on for a side that does not bring the position nearer to flat. -/
theorem braked_of_room {quoter : Quoter ℚ} (reduceOnly : quoter.reduceOnly = true) {position : Quantity} {side : Side}
    (further : side.room position.centi = 0) : quoter.Braked position.contracts side := by
  have sign : (position.contracts : ℚ) = (position.centi : ℚ) / 100 := OrderManager.contracts_eq position
  cases side with
  | yes =>
    simp only [Side.room, Side.toward] at further
    have long : 0 ≤ position.centi := by omega
    refine ⟨?_, .inr reduceOnly⟩
    rw [sign]
    exact div_nonneg (by exact_mod_cast long) (by norm_num)
  | no =>
    simp only [Side.room, Side.toward] at further
    have short : position.centi ≤ 0 := by omega
    refine ⟨?_, .inr reduceOnly⟩
    rw [sign]
    exact div_nonpos_of_nonpos_of_nonneg (by exact_mod_cast short) (by norm_num)

/-- In reduce-only mode a side trades only what brings the position nearer to flat. -/
theorem room_of_unsuppressed {quoter : Quoter ℚ} (reduceOnly : quoter.reduceOnly = true) {position : Quantity}
    {side : Side} (trades : quoter.suppressed position.contracts side = false) : 0 < side.room position.centi := by
  by_contra further
  have absent : side.room position.centi = 0 := le_antisymm (not_lt.mp further) (le_max_left _ _)
  rw [(braked_of_room reduceOnly absent).suppressed] at trades
  cases trades

/-- An update under the conditions leaves a quote that only winds the position down. -/
theorem Desk.WindsDown.unwinds (postOnly : venue.PostOnly ℚ) {book : LocalOrderbook} {s : Desk ℚ X}
    (windsDown : s.WindsDown venue ticker book) (reduceOnly : s.quoter.reduceOnly = true) (issued : s.ledger.Issued) :
    (update venue ticker book s).2.ledger.net ticker = s.ledger.net ticker ∧
      (update venue ticker book s).2.WindingDown ticker := by
  obtain ⟨aim, aimed, chain⟩ := update_requests venue ticker book s
  have trades : ∀ side desired, aim side = some desired → 0 < side.room (s.ledger.net ticker) :=
    fun side desired wanted => room_of_unsuppressed reduceOnly (aimed.trades side desired wanted)
  have net : (update venue ticker book s).2.ledger.net ticker = s.ledger.net ticker := by
    refine chain_invariant (fun v : Posture ℚ => v.ledger.net ticker = s.ledger.net ticker) ?_ chain rfl
    exact fun u v ⟨_, request⟩ same => (request.net ticker).trans same
  refine ⟨net, (update_reduceOnly venue ticker book s).trans reduceOnly, ?_, fun side order found => ?_⟩
  · exact chain_invariant (fun v : Posture ℚ => v.ledger.Issued)
      (fun _ _ ⟨_, request⟩ known => Ledger.quoteStep_issued request.quoteStep known) chain issued
  rw [net]
  -- the side that reduces may quote within the room; the other has none and must be vacant
  by_cases nearer : 0 < side.room (s.ledger.net ticker)
  · rw [Side.room_eq nearer]
    refine requests_keep_within postOnly chain ?_ issued windsDown.fresh (windsDown.rests side nearer) ?_ order found
    · exact fun aside desired wanted => Side.eq_of_room nearer (trades aside desired wanted)
    · intro later grown entered
      refine windsDown.enters ?_
      rw [s.callsSince_of_append grown]
      exact entered
  · have absent : side.room (s.ledger.net ticker) = 0 := le_antisymm (not_lt.mp nearer) (le_max_left _ _)
    have vacant : ((update venue ticker book s).2.ledger.slots ticker side).1 = "" := by
      rcases windsDown.pulls side absent with empty | ⟨apart, accepted⟩
      · refine requests_keep_vacant chain ?_ empty
        cases wanted : aim side with
        | none => rfl
        | some desired => exact absurd (trades side desired wanted) nearer
      · exact update_vacant venue ticker book (braked_of_room reduceOnly absent) apart windsDown.lives accepted
    rw [Ledger.quoted?_vacant vacant] at found
    cases found

/-- A turn brings the position no further from flat, and leaves a quote that only winds it down. -/
theorem Desk.WindTurn.shrinks (postOnly : venue.PostOnly ℚ) {s t : Desk ℚ X} (turn : s.WindTurn venue ticker t)
    (winding : s.WindingDown ticker) : Shrinks (s.ledger.net ticker) (t.ledger.net ticker) ∧ t.WindingDown ticker := by
  cases turn with
  | update book windsDown =>
    obtain ⟨net, after⟩ := windsDown.unwinds postOnly winding.reduceOnly winding.issued
    rw [net]
    exact ⟨Shrinks.refl _, after⟩
  | @fill fill order fills =>
    obtain ⟨unwinding, shrinks⟩ := fills.unwinds winding.unwinding
    refine ⟨shrinks, (onFill_reduceOnly fill s).trans winding.reduceOnly, ?_, unwinding⟩
    exact chain_invariant (fun L : Ledger ℚ => L.Issued) (fun _ _ ⟨_, _, step⟩ known => Ledger.step_issued step known)
      (onFill_leads fill s) winding.issued
  | elsewhere same =>
    refine ⟨?_, same.reduceOnly.trans winding.reduceOnly, same.issued, fun side order found => ?_⟩
    · rw [same.net]
      exact Shrinks.refl _
    · rw [same.net]
      rw [same.quoted] at found
      exact winding.unwinding side order found

theorem wind_turns_shrink (postOnly : venue.PostOnly ℚ) {s t : Desk ℚ X}
    (run : ReflTransGen (Desk.WindTurn venue ticker) s t) (winding : s.WindingDown ticker) :
    Shrinks (s.ledger.net ticker) (t.ledger.net ticker) ∧ t.WindingDown ticker := by
  induction run with
  | refl => exact ⟨Shrinks.refl _, winding⟩
  | tail _ turn ih =>
    obtain ⟨shrunk, before⟩ := ih
    obtain ⟨shrinks, after⟩ := turn.shrinks postOnly before
    exact ⟨shrunk.trans shrinks, after⟩

end

/-- From an update in reduce-only mode on, where each update winds the position down, the exposure of the market never
grows and its position never changes sign. -/
theorem wind_down_shrinks [Elementary ℚ] {X : Type} (venue : Venue X) (postOnly : venue.PostOnly ℚ) (ticker : Ticker)
    (book : LocalOrderbook) {s u v : Desk ℚ X} (reduceOnly : s.quoter.reduceOnly = true) (issued : s.ledger.Issued)
    (first : s.WindsDown venue ticker book)
    (run : ReflTransGen (Desk.WindTurn venue ticker) (update venue ticker book s).2 u)
    (later : ReflTransGen (Desk.WindTurn venue ticker) u v) :
    s.NoMoreExposed u ticker ∧ u.NoMoreExposed v ticker := by
  obtain ⟨net, opened⟩ := first.unwinds postOnly reduceOnly issued
  obtain ⟨earlier, winding⟩ := wind_turns_shrink postOnly run opened
  obtain ⟨shrinks, _⟩ := wind_turns_shrink postOnly later winding
  rw [net] at earlier
  exact ⟨earlier.exposure, shrinks.exposure⟩

/-! ### Closing runs -/

namespace Desk

/-- Long on `M` with nothing resting, in reduce-only mode. No order above 50 passes, so no depth is inferred from the
limits and the inventory does not move the fair value. -/
def heldLong (centi : Int) : Desk ℚ Script :=
  let p := Process.start { tickers := ["M"] } ({ useClearingPricing := true } : QuoterConfig ℚ)
    { maxQuotePriceCents := 50 } ({} : Script) none none false false
  let bought : Fill ℚ :=
    { tradeId := "a", orderId := "order", marketTicker := "M", side := .yes, priceCents := 48, quantity := ⟨centi⟩,
      feeCents := 0, isTaker := false, timestamp := 0 }
  { p.desk with
    orderMgr := (p.desk.orderMgr.recorded bought).2
    quoter := { p.desk.quoter with reduceOnly := true } }

def evenBook : LocalOrderbook := ⟨{ ticker := "M", yes := [⟨40, ⟨1000⟩⟩], no := [⟨40, ⟨1000⟩⟩] }⟩

/-- The ask that is quoted first, filled by this much. -/
def askFilled (centi : Int) : Fill ℚ where
  tradeId := "b"
  orderId := "order-1"
  marketTicker := "M"
  side := .no
  priceCents := 48
  quantity := ⟨centi⟩
  feeCents := 0
  isTaker := false
  timestamp := 0

end Desk

/-- Fifteen contracts long, an ask of ten is quoted, and four of them are filled. -/
theorem wind_down_shrinks_part_fill :
    let s := Desk.heldLong 1500
    let quoted := (update Floor.partVenue "M" Desk.evenBook s).2
    let t := (onFill (Desk.askFilled 400) quoted).2
    t.ledger.net "M" = 1100 ∧ s.NoMoreExposed quoted "M" ∧ quoted.NoMoreExposed t "M" := by
  intro s quoted t
  have returned : (update Floor.partVenue "M" Desk.evenBook s).1 = .ok () := by decide +kernel
  have vacant : ∀ side, s.ledger.quoted? "M" side = none := by
    intro side
    cases side <;> rfl
  have issued : s.ledger.Issued := by
    intro id order found
    have unopened : s.ledger.order? id = none := rfl
    rw [unopened] at found
    cases found
  -- no slot is filled yet, so the first update has nothing to pull
  have first : s.WindsDown Floor.partVenue "M" Desk.evenBook := by
    refine ⟨fun what ends => ?_, by decide +kernel, fun side _ => ?_, fun side _ order found => ?_,
      fun _ => by decide +kernel⟩
    · rw [returned] at ends
      cases ends
    · cases side <;> exact .inl rfl
    · rw [vacant] at found
      cases found
  obtain ⟨order, fills⟩ : ∃ order, quoted.FillsQuote "M" (Desk.askFilled 400) order :=
    Desk.fillsQuote_of (by decide +kernel) (by decide +kernel) rfl (by decide)
  have shrinks := wind_down_shrinks Floor.partVenue Floor.partVenue_postOnly "M" Desk.evenBook rfl issued first .refl
    (.single (.fill fills))
  exact ⟨by decide +kernel, shrinks⟩

/-- Four contracts long an ask of ten is quoted: all of it filled, the position is six short. And at fifteen
long the bid that rests from before stays on a one-sided book: filled, it makes the position 25. -/
theorem wind_down_overshoots :
    let venue := Floor.partVenue
    let quoted := (update venue "M" Desk.evenBook (Desk.heldLong 400)).2
    let oneSided : LocalOrderbook := ⟨{ ticker := "M", yes := [⟨40, ⟨1000⟩⟩], no := [] }⟩
    let before := (update venue "M" Desk.evenBook
      { Desk.heldLong 1500 with quoter := { (Desk.heldLong 1500).quoter with reduceOnly := false } }).2
    let kept := (update venue "M" oneSided { before with quoter := { before.quoter with reduceOnly := true } }).2
    let bid := { Desk.askFilled 1000 with side := .yes }
    ((∃ order, quoted.FillsQuote "M" (Desk.askFilled 1000) order) ∧
      ¬ quoted.NoMoreExposed (onFill (Desk.askFilled 1000) quoted).2 "M") ∧
    (∃ order, kept.FillsQuote "M" bid order) ∧ ¬ kept.NoMoreExposed (onFill bid kept).2 "M" := by
  intro venue quoted oneSided before kept bid
  exact ⟨⟨Desk.fillsQuote_of (by decide +kernel) (by decide +kernel) rfl (by decide), by decide +kernel⟩,
    Desk.fillsQuote_of (by decide +kernel) (by decide +kernel) rfl (by decide), by decide +kernel⟩

end Kalshi
