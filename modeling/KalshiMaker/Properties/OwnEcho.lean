import KalshiMaker.Properties.BookRefinement
import KalshiMaker.Properties.RecordedBook
import KalshiMaker.Strategy.PricingTwins
import KalshiMaker.Strategy.UpdateRun

/-! The exchange's book echoes our own orders, and pricing goes by the book without them. -/
namespace Kalshi

open Effect Eff Desk Quoter LocalOrderbook

variable {F X : Type} [Floating F]

/-- Each order that a slot of `ticker` holds is open on its side, at the slot's price, with something left of it. -/
def Desk.OwnTracked (s : Desk F X) (ticker : Ticker) : Prop :=
  ∀ side, (s.quoter.ownQuotes ticker side).orderId ≠ "" →
    ∃ order, s.ownOrder (s.quoter.ownQuotes ticker side) = some order ∧ order.side = side ∧
      order.priceCents = (legOf side).orderPrice (s.quoter.ownQuotes ticker side).quotedCents ∧
      0 < order.remainingQuantity.centi

/-- What our live orders on a market offer at each price. -/
def Desk.ownSizes (s : Desk F X) (ticker : Ticker) : BookSizes := fun side price =>
  (((s.restingOwn ticker).filter fun order => decide (order.side = side ∧ order.priceCents = price)).map
    fun order => order.remainingQuantity.centi).sum

/-- The observed book is that of the others with what is left of our orders added at their prices. -/
structure Desk.Echoes (s : Desk F X) (ticker : Ticker) (others observed : LocalOrderbook) : Prop where
  wellFormed : observed.WellFormed
  market : observed.state.ticker = others.state.ticker
  sizes : ∀ side price, observed.sizes side price = others.sizes side price + s.ownSizes ticker side price

section

variable {s : Desk F X} {ticker : Ticker}

theorem Desk.OwnTracked.slot (tracked : s.OwnTracked ticker) (side : Side) :
    s.ownOrder (s.quoter.ownQuotes ticker side) = none ∨
      ∃ order, s.ownOrder (s.quoter.ownQuotes ticker side) = some order ∧ order.side = side ∧
        order.priceCents = (legOf side).orderPrice (s.quoter.ownQuotes ticker side).quotedCents ∧
        0 < order.remainingQuantity.centi := by
  by_cases vacant : (s.quoter.ownQuotes ticker side).orderId = ""
  · left
    unfold Desk.ownOrder
    rw [if_pos vacant]
  · exact .inr (tracked side vacant)

/-- Only the order in the slot of a side counts on that side. -/
theorem Desk.OwnTracked.ownSizes (tracked : s.OwnTracked ticker) (side : Side) (price : Int) :
    s.ownSizes ticker side price =
      match s.ownOrder (s.quoter.ownQuotes ticker side) with
      | some order => if order.priceCents = price then order.remainingQuantity.centi else 0
      | none => 0 := by
  have yes := tracked.slot .yes
  have no := tracked.slot .no
  unfold Desk.ownSizes Desk.restingOwn
  rcases yes with bidless | ⟨bid, held, onYes, _, _⟩
  · rcases no with askless | ⟨ask, held', onNo, _, _⟩
    · cases side <;> simp [bidless, askless]
    · cases side <;> by_cases here : ask.priceCents = price <;> simp [bidless, held', onNo, here]
  · rcases no with askless | ⟨ask, held', onNo, _, _⟩
    · cases side <;> by_cases here : bid.priceCents = price <;> simp [held, askless, onYes, here]
    · cases side with
      | yes => by_cases here : bid.priceCents = price <;> simp [held, held', onYes, onNo, here]
      | no => by_cases here : ask.priceCents = price <;> simp [held, held', onYes, onNo, here]

/-- Taking our orders off undoes the echo of them, size by size. -/
theorem Desk.Echoes.sizes_without {others observed : LocalOrderbook} (echoes : s.Echoes ticker others observed)
    (tracked : s.OwnTracked ticker) (well : others.WellFormed) (side : Side) (price : Int) :
    sizeAt ((s.bookWithoutOwnQuotes ticker observed).levels side) price = sizeAt (others.levels side) price := by
  have echoed := echoes.sizes side price
  change sizeAt (observed.levels side) price = sizeAt (others.levels side) price + _ at echoed
  rw [tracked.ownSizes] at echoed
  rw [bookWithoutOwnQuotes_levels, withoutOwn_levels, if_pos rfl]
  rcases tracked.slot side with vacant | ⟨order, held, _, priced, left⟩
  · rw [vacant] at echoed ⊢
    dsimp only at echoed ⊢
    omega
  · rw [held] at echoed ⊢
    dsimp only at echoed ⊢
    rw [(echoes.wellFormed side).sizeAt_shiftLevel, ← priced]
    have nonneg := (well side).size_nonneg price
    by_cases here : price = order.priceCents
    · subst here
      rw [if_pos rfl] at echoed ⊢
      rw [Quantity.neg_centi, echoed]
      omega
    · rw [if_neg (Ne.symm here)] at echoed
      rw [if_neg here]
      omega

theorem bookWithoutOwnQuotes_wellFormed {observed : LocalOrderbook} (well : observed.WellFormed) :
    (s.bookWithoutOwnQuotes ticker observed).WellFormed := by
  intro side
  rw [bookWithoutOwnQuotes_levels, withoutOwn_levels, if_pos rfl]
  cases s.ownOrder (s.quoter.ownQuotes ticker side) with
  | none => exact well side
  | some order => exact (well side).shiftLevel _ _

theorem Desk.Echoes.without {others observed : LocalOrderbook} (echoes : s.Echoes ticker others observed)
    (tracked : s.OwnTracked ticker) (well : others.WellFormed) : s.bookWithoutOwnQuotes ticker observed = others := by
  apply LocalOrderbook.ext_levels
  · unfold bookWithoutOwnQuotes
    rw [withoutOwn_ticker, withoutOwn_ticker, echoes.market]
  · intro side
    apply (bookWithoutOwnQuotes_wellFormed echoes.wellFormed side).ext (well side)
    exact fun price => echoes.sizes_without tracked well side price

/-! ### The echo by way of deltas -/

/-- A book with our live orders added to it. -/
def Desk.withOwnQuotes (s : Desk F X) (ticker : Ticker) (others : LocalOrderbook) : LocalOrderbook :=
  others.applyDeltas ((s.restingOwn ticker).map fun order => (order.side, order.priceCents, order.remainingQuantity))

theorem foldl_shift_sum (deltas : List BookDelta) (grows : ∀ delta ∈ deltas, 0 < delta.2.2.centi) {size : Int}
    (nonneg : 0 ≤ size) :
    deltas.foldl BookSizes.shift size = size + (deltas.map fun delta => delta.2.2.centi).sum := by
  induction deltas generalizing size with
  | nil => simp
  | cons delta deltas ih =>
    have positive := grows delta List.mem_cons_self
    have shifted : BookSizes.shift size delta = size + delta.2.2.centi := max_eq_right (by omega)
    rw [List.foldl_cons, shifted, ih (fun other later => grows other (List.mem_cons_of_mem _ later)) (by omega),
      List.map_cons, List.sum_cons, add_assoc]

theorem ticker_applyDeltas (book : LocalOrderbook) (deltas : List BookDelta) :
    (book.applyDeltas deltas).state.ticker = book.state.ticker := by
  induction deltas generalizing book with
  | nil => rfl
  | cons delta deltas ih => exact (ih _).trans (book.ticker_applyDelta _ _ _)

theorem Desk.OwnTracked.left (tracked : s.OwnTracked ticker) {order : Order} (member : order ∈ s.restingOwn ticker) :
    0 < order.remainingQuantity.centi := by
  obtain ⟨side, _, held⟩ := List.mem_filterMap.mp member
  rcases tracked.slot side with vacant | ⟨_, held', _, _, left⟩
  · rw [vacant] at held
    cases held
  · rw [held'] at held
    cases held
    exact left

/-- Every book of the others has its echo. -/
theorem Desk.OwnTracked.echoes (tracked : s.OwnTracked ticker) {others : LocalOrderbook} (well : others.WellFormed) :
    s.Echoes ticker others (s.withOwnQuotes ticker others) := by
  unfold Desk.withOwnQuotes
  obtain ⟨wellFormed, sizes⟩ := well.applyDeltas
    ((s.restingOwn ticker).map fun order => (order.side, order.priceCents, order.remainingQuantity))
  refine ⟨wellFormed, ticker_applyDeltas _ _, fun side price => ?_⟩
  have nonneg : 0 ≤ others.sizes side price := (well side).size_nonneg price
  rw [sizes, BookSizes.apply_fold, foldl_shift_sum _ _ nonneg, List.filter_map, List.map_map]
  · rfl
  · intro delta member
    obtain ⟨order, resting, rfl⟩ := List.mem_map.mp (List.mem_of_mem_filter member)
    exact tracked.left resting

end

/-! ### Two desks -/

variable (venue : Venue X)

/-- The fair value and the desired quotes an update computes, where the visible book has two sides apart. -/
def Desk.computes (s : Desk F X) (ticker : Ticker) (book : LocalOrderbook) :
    Option (Except (Stop String) F × Except (Stop String) (F × Option Int × Option Int)) :=
  let visible := s.bookWithoutOwnQuotes ticker book
  let noted := (notePriced ticker book s).2
  match visible.bestBid, visible.bestAsk with
  | some bestBid, some bestAsk =>
    if bestAsk.priceCents ≤ bestBid.priceCents then none
    else some ((fairValue venue ticker visible.microPriceCents noted).1,
      (desiredQuotes venue ticker visible bestBid.priceCents bestAsk.priceCents noted).1)
  | _, _ => none

/-- Two desks that differ in nothing but their open orders. -/
def Desk.UpToOrders (s s' : Desk F X) : Prop :=
  ∃ openOrders, s' = s.withOrders { s.orderMgr with openOrders }

/-- Two desks that differ in nothing but their open orders and in what was noted of their books. -/
def Desk.UpToNotes (s s' : Desk F X) : Prop :=
  ∃ openOrders priced, s' = { s.withOrders { s.orderMgr with openOrders } with priced }

/-- What an update leaves behind of its pricing: the smoothed prices, and what the analytics tap was told. -/
def Desk.priceKept (s : Desk F X) : (Ticker → Option F) × List (Emission F) := (s.quoter.fvEma, s.emitted)

theorem Desk.UpToOrders.noted {s s' : Desk F X} (same : s.UpToOrders s') (ticker : Ticker)
    (book book' : LocalOrderbook) :
    (notePriced ticker book s).2.UpToNotes (notePriced ticker book' s').2 := by
  obtain ⟨openOrders, rfl⟩ := same
  exact ⟨openOrders, _, rfl⟩

theorem upToNotes_pricesAlike (ticker : Ticker) : @PricesAlike F X _ venue ticker Desk.UpToNotes where
  gauges := by
    rintro s _ ⟨openOrders, priced, rfl⟩
    exact ⟨rfl, rfl, rfl, rfl, rfl, rfl, rfl⟩
  system := by
    rintro s _ ⟨openOrders, priced, rfl⟩
    exact ⟨rfl, openOrders, priced, rfl⟩
  emit := by
    rintro s _ emission ⟨openOrders, priced, rfl⟩
    exact ⟨openOrders, priced, rfl⟩

theorem Desk.UpToNotes.smoothedMicro {s s' : Desk F X} (same : s.UpToNotes s') (ticker : Ticker) (micro : F) :
    Alike UpToNotes (smoothedMicro ticker micro) (smoothedMicro ticker micro) s s' := by
  obtain ⟨openOrders, priced, rfl⟩ := same
  exact ⟨rfl, openOrders, priced, rfl⟩

theorem Desk.UpToNotes.priceKept {s s' : Desk F X} (same : s.UpToNotes s') : s.priceKept = s'.priceKept := by
  obtain ⟨_, _, rfl⟩ := same
  rfl

section

variable {venue}

theorem priceKept_beside (ticker : Ticker) (side : Side) : Beside ticker side (Desk.priceKept (F := F) (X := X)) where
  slot _ _ := rfl
  outside _ _ := rfl
  called _ _ _ := rfl
  orders _ _ := rfl

/-- Bringing the quotes to their prices is no pricing. -/
theorem applyQuotes_priceKept (ticker : Ticker) (inventory : F) (desiredBid desiredAsk : Option Int) (s : Desk F X) :
    (applyQuotes venue ticker inventory desiredBid desiredAsk s).2.priceKept = s.priceKept := by
  rw [applyQuotes_at]
  refine Leads.unmoved ?_
  refine Leads.bind ((priceKept_beside ticker .yes).releaseSuppressed venue _ _) (fun _ s₁ _ => ?_)
  refine Leads.bind ((priceKept_beside ticker .no).releaseSuppressed venue _ s₁) (fun _ s₂ _ => ?_)
  refine Leads.bind ((priceKept_beside ticker .yes).refreshUnless venue _ desiredBid _ s₂) (fun _ s₃ _ => ?_)
  exact (priceKept_beside ticker .no).refreshUnless venue _ desiredAsk _ s₃

/-- An update that prices leaves behind what its pricing did. -/
theorem update_priceKept {ticker : Ticker} {book visible : LocalOrderbook} {s : Desk F X}
    (seen : s.bookWithoutOwnQuotes ticker book = visible) {bestBid bestAsk : Level}
    (bid : visible.bestBid = some bestBid)
    (ask : visible.bestAsk = some bestAsk) (apart : ¬ bestAsk.priceCents ≤ bestBid.priceCents) :
    (update venue ticker book s).2.priceKept =
      (desiredQuotes venue ticker visible bestBid.priceCents bestAsk.priceCents
        (notePriced ticker book s).2).2.priceKept := by
  have unfolded : update venue ticker book s =
      (do
        let desired ← desiredQuotes venue ticker visible bestBid.priceCents bestAsk.priceCents
        applyQuotes venue ticker desired.1 desired.2.1 desired.2.2) (notePriced ticker book s).2 := by
    unfold update
    rw [bind_apply, get_apply, andThen_ok, seen, bind_apply, bid, ask]
    dsimp only
    rw [if_neg apart]
    rfl
  rw [unfolded, bind_apply]
  cases desiredQuotes venue ticker visible bestBid.priceCents bestAsk.priceCents (notePriced ticker book s).2 with
  | mk result t =>
    cases result with
    | error stop => rfl
    | ok desired => exact applyQuotes_priceKept ticker _ _ _ t

/-- Where the others' book is echoed with tracked orders of ours, an update sees just that book; and desks that differ
only in their open orders, each before its own echo of the book, compute the same fair value and the same desired
quotes, keep the same smoothed price and report the same decision. -/
theorem own_quotes_unseen (venue : Venue X) (ticker : Ticker) {others observed : LocalOrderbook}
    (well : others.WellFormed) {s : Desk F X} (tracked : s.OwnTracked ticker)
    (echoes : s.Echoes ticker others observed) :
    s.bookWithoutOwnQuotes ticker observed = others ∧
      ∀ (s' : Desk F X) (observed' : LocalOrderbook), s.UpToOrders s' → s'.OwnTracked ticker →
        s'.Echoes ticker others observed' →
          s.computes venue ticker observed = s'.computes venue ticker observed' ∧
            (update venue ticker observed s).2.priceKept = (update venue ticker observed' s').2.priceKept := by
  have seen := echoes.without tracked well
  refine ⟨seen, fun s' observed' same tracked' echoes' => ?_⟩
  have seen' := echoes'.without tracked' well
  have noted := same.noted ticker observed observed'
  have alike := upToNotes_pricesAlike (F := F) venue ticker
  -- without two sides nothing is computed; else both updates price off the others' book
  by_cases idle : others.Degenerate
  · constructor
    · unfold Desk.computes
      rw [seen, seen']
      dsimp only
      cases bid : others.bestBid with
      | none => rfl
      | some bestBid =>
        cases ask : others.bestAsk with
        | none => rfl
        | some bestAsk => simp only [idle bestBid bestAsk bid ask, ↓reduceIte]
    · rw [update_degenerate venue (seen.symm ▸ idle), update_degenerate venue (seen'.symm ▸ idle)]
      exact noted.priceKept
  · unfold Degenerate at idle
    push Not at idle
    obtain ⟨bestBid, bestAsk, bid, ask, apart⟩ := idle
    have smoothed := noted.smoothedMicro ticker (others.microPriceCents : F)
    have priced := alike.desiredQuotes bestBid.priceCents bestAsk.priceCents smoothed
    constructor
    · unfold Desk.computes
      rw [seen, seen']
      simp only [bid, ask, not_le.mpr apart, ↓reduceIte, (alike.fairValue smoothed).1, priced.1]
    · rw [update_priceKept seen bid ask (not_le.mpr apart), update_priceKept seen' bid ask (not_le.mpr apart)]
      exact priced.2.priceKept

end

/-! ### A bid that shrinks -/

def shrinkingBid (left : Int) : Order where
  id := "order-1"
  marketTicker := "M"
  side := .yes
  priceCents := 44
  quantity := ⟨left⟩

def steadyAsk : Order where
  id := "order-2"
  marketTicker := "M"
  side := .no
  priceCents := 48
  quantity := ⟨300⟩

def echoedOrders (left : Int) : OrderMap :=
  (AList.insert "order-2" steadyAsk ∅).insert "order-1" (shrinkingBid left)

def echoedDesk (left : Int) : Desk ℚ Script where
  orderMgr := { OrderManager.empty with openOrders := echoedOrders left }
  quoter :=
    { Quoter.make { useClearingPricing := true } { useClearingPricing := true : QuoterConfig ℚ }.pricingModel {} with
      ownQuotes := fun _ side =>
        if side = .yes then { orderId := "order-1", quotedCents := 44 }
          else { orderId := "order-2", quotedCents := 52 } }
  session := { tickers := ["M"] }
  outside := {}

/-- The other participants' book has a level of its own at the price of the bid. -/
def othersBook : LocalOrderbook := ⟨{ ticker := "M", yes := [⟨44, ⟨700⟩⟩, ⟨40, ⟨1000⟩⟩], no := [⟨50, ⟨900⟩⟩] }⟩

/-- The bid of five contracts, and the same bid once only two are left of it. -/
theorem own_quotes_unseen_shrunk :
    let venue : Venue Script := ⟨⟨"exchange"⟩, Script.host⟩
    let five := (echoedDesk 500).withOwnQuotes "M" othersBook
    let two := (echoedDesk 200).withOwnQuotes "M" othersBook
    five ≠ two ∧ (echoedDesk 500).bookWithoutOwnQuotes "M" five = othersBook ∧
      (echoedDesk 500).computes venue "M" five = (echoedDesk 200).computes venue "M" two := by
  intro venue five two
  have well : othersBook.WellFormed := by
    intro side
    cases side with
    | yes => exact ⟨by decide, by decide⟩
    | no => exact ⟨by decide, by decide⟩
  have bigger : (echoedDesk 500).OwnTracked "M" := by
    intro side _
    cases side with
    | yes => exact ⟨shrinkingBid 500, rfl, rfl, rfl, by decide⟩
    | no => exact ⟨steadyAsk, rfl, rfl, rfl, by decide⟩
  have smaller : (echoedDesk 200).OwnTracked "M" := by
    intro side _
    cases side with
    | yes => exact ⟨shrinkingBid 200, rfl, rfl, rfl, by decide⟩
    | no => exact ⟨steadyAsk, rfl, rfl, rfl, by decide⟩
  obtain ⟨seen, alike⟩ := own_quotes_unseen venue "M" well bigger (bigger.echoes well)
  exact ⟨by decide +kernel, seen, (alike _ _ ⟨echoedOrders 200, rfl⟩ smaller (smaller.echoes well)).1⟩

end Kalshi
