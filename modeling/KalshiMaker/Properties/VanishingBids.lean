import KalshiMaker.App.Drift
import KalshiMaker.Engine.BookLevels
import KalshiMaker.Engine.Looks
import KalshiMaker.Properties.Accounting
import KalshiMaker.Properties.SessionPnl

/-! What the kill-switch marks a holding at when the liquidity on its side thins out and goes. -/
namespace Kalshi

open Effect Eff Desk Relation TradingSession

/-! ### The best level of a thinned side -/

namespace LocalOrderbook

/-- A negative increment puts no new price on a side. -/
theorem shiftLevel_prices (levels : List Level) (price : Int) {delta : Quantity} (negative : delta.centi < 0)
    {level : Level} (member : level ∈ shiftLevel levels price delta) :
    ∃ before ∈ levels, before.priceCents = level.priceCents := by
  have whole := List.takeWhile_append_dropWhile (p := above price) (l := levels)
  have signed : delta.isPositive = false := by simp [Quantity.isPositive, negative.le]
  unfold shiftLevel at member
  cases split : levels.dropWhile (above price) with
  | nil =>
    simp only [split, signed, Bool.false_eq_true, if_false] at member
    exact ⟨level, member, rfl⟩
  | cons existing rest =>
    rw [split] at whole
    simp only [split, signed, Bool.false_eq_true, if_false] at member
    split_ifs at member with here gone
    · refine ⟨level, ?_, rfl⟩
      rw [← whole]
      exact (((List.sublist_cons_self existing rest).append_left _).subset) member
    · rcases List.mem_append.mp member with front | behind
      · exact ⟨level, whole ▸ List.mem_append_left _ front, rfl⟩
      · rcases List.mem_cons.mp behind with rfl | after
        · exact ⟨existing, whole ▸ by simp, rfl⟩
        · exact ⟨level, whole ▸ by simp [after], rfl⟩
    · exact ⟨level, member, rfl⟩

/-- The best price of a side does not rise when the side is thinned. -/
theorem head_shiftLevel {levels : List Level} (sorted : levels.Pairwise byPriceDescending) (price : Int)
    {delta : Quantity} (negative : delta.centi < 0) {best : Level}
    (thinned : (shiftLevel levels price delta).head? = some best) :
    ∃ before, levels.head? = some before ∧ best.priceCents ≤ before.priceCents := by
  obtain ⟨twin, among, same⟩ := shiftLevel_prices levels price negative (List.mem_of_mem_head? thinned)
  cases levels with
  | nil => cases among
  | cons first rest =>
    refine ⟨first, rfl, ?_⟩
    rw [← same]
    rcases List.mem_cons.mp among with rfl | behind
    · exact le_rfl
    · exact (List.pairwise_cons.mp sorted).1 twin behind

end LocalOrderbook

/-! ### Books and positions of a run -/

section

variable {F X : Type} [Floating F]

/-- A book is taken over from a snapshot, moved by a delta, or dropped. -/
def Rebooks (before after : OrderbookMap) : Prop :=
  (∃ seed : Orderbook, after = before.insert seed.ticker (LocalOrderbook.applySnapshot seed)) ∨
    (∃ ticker side price delta, after =
      before.insert ticker (((before.lookup ticker).getD {}).applyDelta side price delta)) ∨
    ∃ ticker, after = before.erase ticker

/-- Every book of the session keeps both sides in descending price. -/
def BooksSorted (books : OrderbookMap) : Prop := ∀ ticker, ((books.lookup ticker).getD {}).Sorted

theorem BooksSorted.rebooks {before after : OrderbookMap} (sorted : BooksSorted before)
    (rebooks : Rebooks before after) : BooksSorted after := by
  have inserted : ∀ (name : Ticker) {book : LocalOrderbook}, book.Sorted → BooksSorted (before.insert name book) := by
    intro name book ordered ticker
    by_cases same : ticker = name
    · subst same
      rw [AList.lookup_insert]
      exact ordered
    · rw [AList.lookup_insert_ne same]
      exact sorted ticker
  rcases rebooks with ⟨seed, rfl⟩ | ⟨name, side, price, delta, rfl⟩ | ⟨name, rfl⟩
  · exact inserted _ (LocalOrderbook.applySnapshot_sorted seed)
  · exact inserted _ (LocalOrderbook.applyDelta_sorted (sorted name) side price delta)
  · intro ticker
    by_cases same : ticker = name
    · subst same
      rw [AList.lookup_erase]
      intro side
      cases side <;> exact List.Pairwise.nil
    · rw [AList.lookup_erase_ne same]
      exact sorted ticker

variable (venue : Venue X)

theorem sweep_books (s : Desk F X) : (cancelAllQuotes venue s).2.books = s.books := by
  obtain ⟨cancels, x, ran, _⟩ := cancelAllQuotes_run venue s
  rw [ran]
  rfl

theorem books_blind : BookingBlind (Desk.books (F := F) (X := X)) where
  books _ _ _ := rfl
  emitted _ _ := rfl

theorem handle_rebooks (event : Event F) (s : Desk F X) : Leads Desk.books Rebooks (handle venue event) s := by
  cases event with
  | snapshot seed => exact Leads.single (.inl ⟨seed, rfl⟩)
  -- the delta itself is applied before anything is quoted
  | delta ticker side price qty =>
    exact Leads.single (.inr (.inl ⟨ticker, side, price, qty, (onDelta_shown venue ticker side price qty s).1⟩))
  | fill newFill =>
    have kept : (onFill newFill s).2.session = s.session := congrArg (Prod.fst ∘ Prod.snd) (onFill_market newFill s)
    exact Leads.bind (Leads.quiet (congrArg TradingSession.obMap kept)) fun _ _ _ => Leads.quiet rfl
  | addMarket seed =>
    refine Leads.bind (Leads.quiet ?_) (fun _ s₁ _ => ?_)
    · change (s.session.adopt seed.ticker).obMap = s.session.obMap
      unfold adopt
      split <;> rfl
    · exact Leads.single (.inl ⟨seed, congrArg Prod.fst (seedOrderbook_shown venue seed s₁)⟩)
  | seedOrderbook seed => exact Leads.single (.inl ⟨seed, congrArg Prod.fst (seedOrderbook_shown venue seed s)⟩)
  | removeMarketIfIdle ticker =>
    refine Leads.bind (Leads.bind (Leads.quiet rfl) (fun _ s₁ _ => ?_)) (fun _ s₂ _ => Leads.quiet rfl)
    refine Leads.ite (fun _ => ?_) (fun _ => Leads.quiet rfl)
    exact Leads.bind (Leads.single (.inr (.inr ⟨ticker, rfl⟩))) fun _ s₂ _ => Leads.quiet rfl
  | requoteIdleMarkets =>
    refine Leads.bind (Leads.quiet rfl) (fun _ s₁ _ => Leads.ite (fun _ => Leads.quiet rfl) (fun _ => ?_))
    exact Leads.forEach (P := fun _ _ => True) (fun ticker _ s₂ _ => Leads.quiet (requoteMarket_books venue ticker s₂))
      (AtEach.of_forall fun _ _ _ => trivial)
  | disconnect | cancelAllQuotes => exact Leads.quiet (sweep_books venue s)
  | enforceQuoteSafety =>
    refine Leads.bind (Leads.quiet rfl) (fun _ s₁ _ => Leads.ite (fun _ => ?_) (fun _ => ?_))
    · exact Leads.quiet (sweep_books venue s₁)
    · exact Leads.forEach (P := fun _ _ => True) (fun ticker _ s₂ _ => Leads.quiet (checkFeed_books venue ticker s₂))
        (AtEach.of_forall fun _ _ _ => trivial)
  | cancelPreexistingOrders orders =>
    obtain ⟨cancels, x, ran, _⟩ := OrderManager.cancelEach_run venue (orders.map Order.id) s
    apply Leads.quiet
    change (Eff.forEach (orders.map Order.id) (OrderManager.cancelBestEffort venue) s).2.books = s.books
    rw [ran]
    rfl
  | runPortfolioRisk => exact Leads.bind (Leads.quiet rfl) fun _ s₁ _ => Leads.quiet (feedPortfolio_books _ s₁)
  | updatePortfolio snapshot => exact Leads.quiet (feedPortfolio_books snapshot s)
  | recordFlatten order => exact Leads.quiet (books_blind.recordFlatten order s)
  | trade _ | setReduceOnly _ | resetQuotes | forgetTicker _ | forgetOrder _ _ | riskUpdate _ | setConstraint _
  | clearConstraint _ | halt | resume => exact Leads.quiet rfl

theorem dispatch_booksSorted (p : Process F X) (event : Event F) (sorted : BooksSorted p.desk.books) :
    BooksSorted (p.dispatch venue event).desk.books := by
  have handled : BooksSorted (handle venue event p.desk).2.books :=
    chain_invariant BooksSorted (fun _ _ rebooks sorted => sorted.rebooks rebooks) (handle_rebooks venue event p.desk)
      sorted
  rcases dispatch_cases venue p event with same | ⟨_, done⟩ | ⟨_, _, ended⟩
  · rw [same]
    exact sorted
  · rw [done]
    exact handled
  · rw [ended, sweep_books]
    exact handled

end

section

variable [Elementary ℚ] {X : Type}

/-- The books of a ledger come from fills of at least something. -/
def Ledger.FromFills (L : Ledger ℚ) : Prop :=
  ∃ fills, L.orderMgr.Netted fills ∧ ∀ fill ∈ fills, 0 < fill.quantity.centi

theorem Ledger.FromFills.booked {L L' : Ledger ℚ} (fromFills : L.FromFills) {fill : Fill ℚ}
    (valid : OrderManager.checkFill fill = .ok ()) (books : L'.orderMgr = L.orderMgr.bookFill fill) :
      L'.FromFills := by
  obtain ⟨fills, netted, positive⟩ := fromFills
  have fresh := OrderManager.positive_of_checkFill valid
  refine ⟨fills ++ [fill], ?_, ?_⟩
  · rw [books]
    exact netted.bookFill positive fresh
  · intro other among
    rcases List.mem_append.mp among with before | last
    · exact positive other before
    · rw [List.mem_singleton.mp last]
      exact fresh

theorem Ledger.FromFills.step {L L' : Ledger ℚ} {action : Action ℚ} (fromFills : L.FromFills)
    (step : Ledger.Step L action L') : L'.FromFills := by
  have same : (∃ openOrders, L'.orderMgr = { L.orderMgr with openOrders }) → L'.FromFills := by
    rintro ⟨openOrders, books⟩
    obtain ⟨fills, netted, positive⟩ := fromFills
    refine ⟨fills, ?_, positive⟩
    rw [books]
    exact ⟨netted.lots, netted.spread, netted.position, netted.fees, netted.seen⟩
  cases step with
  | quote step => exact same (Ledger.quoteStep_books step)
  | fill valid _ _ => exact fromFills.booked valid (Ledger.forgetFilled_orderMgr _ _ _)
  | flatten valid _ => exact fromFills.booked valid rfl
  | sweepAll _ | sweep _ | cancel => exact same (OrderManager.afterCancels_books _ _)
  | refill | reflatten | raise _ | clear | resume | track _ | untrack _ _ _ | forget _ => exact same ⟨_, rfl⟩

/-- What a run keeps: sorted books, and positions that come from fills. -/
structure Process.Sound (p : Process ℚ X) : Prop where
  books : BooksSorted p.desk.books
  positions : p.desk.ledger.FromFills

theorem Process.Sound.dispatch {p : Process ℚ X} (sound : p.Sound) (venue : Venue X) (event : Event ℚ) :
    (p.dispatch venue event).Sound where
  books := dispatch_booksSorted venue p event sound.books
  positions := by
    apply chain_invariant Ledger.FromFills _ (dispatch_leads venue p event) sound.positions
    rintro L L' ⟨_, _, step⟩ fromFills
    exact fromFills.step step

/-! ### The mark of a book -/

namespace LocalOrderbook

/-- What a holding is marked at: the mid of a two-sided book, to the cent. -/
def mark (book : LocalOrderbook) : Option Int :=
  if 0 < (book.midPriceCents : ℚ) then some (Floating.round (book.midPriceCents : ℚ)) else none

theorem mark_eq_some {book : LocalOrderbook} {mark : Int} (marked : book.mark = some mark) :
    ∃ bid ask : Level, book.bestBid = some bid ∧ book.bestAsk = some ask ∧
      mark = ⌊((bid.priceCents : ℚ) + ask.priceCents) / 2 + 1 / 2⌋ := by
  unfold LocalOrderbook.mark at marked
  split_ifs at marked with positive
  have rounded : Floating.round (book.midPriceCents : ℚ) = ⌊(book.midPriceCents : ℚ) + 1 / 2⌋ := if_pos positive.le
  rw [rounded] at marked
  unfold midPriceCents at positive marked
  cases bids : book.bestBid with
  | none =>
    simp only [bids] at positive
    exact absurd positive (lt_irrefl 0)
  | some bid =>
    cases asks : book.bestAsk with
    | none =>
      simp only [bids, asks] at positive
      exact absurd positive (lt_irrefl 0)
    | some ask =>
      simp only [bids, asks] at marked
      exact ⟨bid, ask, rfl, rfl, (Option.some.inj marked).symm⟩

/-- While both books have a mark, thinning a side does not raise the mark of what is held on it. -/
theorem mark_thinned {book : LocalOrderbook} (sorted : book.Sorted) (side : Side) (price : Int) {delta : Quantity}
    (negative : delta.centi < 0) {mark mark' : Int} (before : book.mark = some mark)
    (after : (book.applyDelta side price delta).mark = some mark') :
    OrderManager.nativeMark mark' side ≤ OrderManager.nativeMark mark side := by
  obtain ⟨bid, ask, bestBid, bestAsk, rfl⟩ := mark_eq_some before
  obtain ⟨bid', ask', bestBid', bestAsk', rfl⟩ := mark_eq_some after
  cases side with
  | yes =>
    have asks : some ask' = some ask := bestAsk'.symm.trans bestAsk
    obtain ⟨first, head, lower⟩ := head_shiftLevel (sorted .yes) price negative bestBid'
    have same : first = bid := Option.some.inj (head.symm.trans bestBid)
    subst same
    cases asks
    apply Int.floor_le_floor
    have : (bid'.priceCents : ℚ) ≤ first.priceCents := by exact_mod_cast lower
    linarith
  -- the ask is the complement of the best NO bid, so it rises as that falls
  | no =>
    have bids : some bid' = some bid := bestBid'.symm.trans bestBid
    cases bids
    obtain ⟨thinned, head', rfl⟩ := Option.map_eq_some_iff.mp bestAsk'
    obtain ⟨full, head, rfl⟩ := Option.map_eq_some_iff.mp bestAsk
    obtain ⟨first, head'', lower⟩ := head_shiftLevel (sorted .no) price negative head'
    have same : first = full := Option.some.inj (head''.symm.trans head)
    subst same
    have raised : (complementPrice first.priceCents : ℚ) ≤ complementPrice thinned.priceCents := by
      have : complementPrice first.priceCents ≤ complementPrice thinned.priceCents := by
        unfold complementPrice
        omega
      exact_mod_cast this
    apply sub_le_sub_left
    apply Int.floor_le_floor
    dsimp only
    linarith

end LocalOrderbook

/-! ### What the holding is worth -/

namespace OrderManager

/-- What the contracts held on a side would bring at a mark. -/
def worthAt (om : OrderManager ℚ) (ticker : Ticker) (side : Side) (mark : Int) : ℚ :=
  (nativeMark mark side : ℚ) * (om.netPosition ticker).abs.contracts

theorem positionCost_eq (om : OrderManager ℚ) (ticker : Ticker) :
    om.positionCost ticker = Fifo.worth lotCost (om.lots .yes ticker) + Fifo.worth lotCost (om.lots .no ticker) := by
  rw [positionCost, costLots_eq, costLots_eq, zero_add]

/-- A net holding has lots on its own side only, and gains what its worth at the mark exceeds its cost by. -/
theorem unrealizedPnl_held {om : OrderManager ℚ} {fills : List (Fill ℚ)} (netted : om.Netted fills)
    (positive : ∀ fill ∈ fills, 0 < fill.quantity.centi) {ticker : Ticker} {side : Side}
    (held : 0 < side.toward (om.netPosition ticker).centi) (mark : Int) :
    om.unrealizedPnl ticker mark = om.worthAt ticker side mark - om.positionCost ticker := by
  have closed := netted.closedForm positive ticker
  have net := closed.position
  rw [unrealizedPnl_eq, positionCost_eq, worthAt, contracts_eq, Quantity.abs_centi]
  cases side with
  | yes =>
    have long : 0 < (om.netPosition ticker).centi := held
    rw [net] at long ⊢
    obtain ⟨alone, units⟩ := closed.yesOnly (sub_nonneg.mp long.le)
    rw [alone, markedLots_nil, markedLots, units, abs_of_pos long]
    simp
  | no =>
    have short : 0 < -(om.netPosition ticker).centi := held
    rw [net] at short ⊢
    dsimp only at short ⊢
    obtain ⟨alone, units⟩ := closed.noOnly (by omega)
    rw [alone, markedLots_nil, markedLots, units, abs_of_neg (by omega)]
    simp

end OrderManager

/-- The sum over a list moves with the one amount that differs. -/
theorem sum_map_le_iff {tickers : List Ticker} {amount amount' : Ticker → ℚ} {ticker : Ticker}
    (listed : ticker ∈ tickers)
    (others : ∀ other, other ≠ ticker → amount' other = amount other) :
    (tickers.map amount').sum ≤ (tickers.map amount).sum ↔ amount' ticker ≤ amount ticker := by
  -- a ticker may be listed more than once, and each time it moves the sum alike
  have shifted : ∀ names : List Ticker, (names.map amount').sum =
      (names.map amount).sum + names.count ticker * (amount' ticker - amount ticker) := by
    intro names
    induction names with
    | nil => simp
    | cons name names ih =>
      rw [List.map_cons, List.sum_cons, List.map_cons, List.sum_cons, ih, List.count_cons]
      by_cases same : name = ticker
      · subst same
        simp only [beq_self_eq_true, if_true]
        push_cast
        ring
      · rw [others name same, if_neg (by simpa using same)]
        push_cast
        ring
  have often : (0 : ℚ) < tickers.count ticker := by exact_mod_cast List.count_pos_iff.mpr listed
  rw [shifted]
  constructor
  · intro lower
    have : (tickers.count ticker : ℚ) * (amount' ticker - amount ticker) ≤ 0 := by linarith
    have := nonpos_of_mul_nonpos_right this often
    linarith
  · intro lower
    have := mul_nonpos_of_nonneg_of_nonpos often.le (sub_nonpos.mpr lower)
    linarith

/-! ### The total across a delta -/

theorem TradingSession.buildMarks_eq (session : TradingSession ℚ) {ticker : Ticker}
    (tracked : ticker ∈ session.tickers) :
    session.buildMarks ticker = (session.book ticker).mark := by
  unfold buildMarks TradingSession.book
  rw [if_pos (by simpa [isTracked] using tracked)]
  cases session.obMap.lookup ticker <;> rfl

/-- The delta takes no mark from a holding that is under water, and gives none to a holding that gains by it. -/
def Desk.MarkStands (s : Desk ℚ X) (ticker : Ticker) (side : Side) (price : Int) (qty : Quantity) : Prop :=
  match (s.session.book ticker).mark, ((s.session.book ticker).applyDelta side price qty).mark with
  | some mark, none => s.orderMgr.positionCost ticker ≤ s.orderMgr.worthAt ticker side mark
  | none, some mark => s.orderMgr.worthAt ticker side mark ≤ s.orderMgr.positionCost ticker
  | some _, some _ | none, none => True

variable (venue : Venue X)

/-- A delta moves one book, and of the orders at most which are open. -/
structure Desk.DeltaOnly (before after : Desk ℚ X) (ticker : Ticker) (side : Side) (price : Int) (qty : Quantity) :
    Prop where
  tickers : after.session.tickers = before.session.tickers
  orders : ∃ openOrders, after.orderMgr = { before.orderMgr with openOrders }
  books : ∀ other, after.session.book other =
    if ticker = other then (before.session.book ticker).applyDelta side price qty else before.session.book other

theorem dispatch_deltaOnly {p : Process ℚ X} (alive : p.alive = true) (ticker : Ticker) (side : Side) (price : Int)
    (qty : Quantity) : p.desk.DeltaOnly (p.dispatch venue (.delta ticker side price qty)).desk ticker side
      price qty := by
  let Stands (L : Ledger ℚ) : Prop :=
    L.tickers = p.desk.session.tickers ∧ ∃ openOrders, L.orderMgr = { p.desk.orderMgr with openOrders }
  have stands : Stands (p.dispatch venue (.delta ticker side price qty)).desk.ledger := by
    refine chain_invariant Stands ?_ (dispatch_leads venue p (.delta ticker side price qty)) ⟨rfl, _, rfl⟩
    rintro L L' ⟨action, permitted, step⟩ ⟨tickers, openOrders, orders⟩
    have unfilled : ∀ fill, action ≠ .fill fill := by
      rintro fill rfl
      rcases permitted with quoted | swept
      · cases quoted
      · cases swept
    have unflattened : ∀ fill, action ≠ .flatten fill := by
      rintro fill rfl
      rcases permitted with quoted | swept
      · cases quoted
      · cases swept
    obtain ⟨openOrders', books⟩ := Ledger.step_books step unfilled unflattened
    refine ⟨?_, openOrders', by rw [books, orders]⟩
    rcases permitted with rfl | rfl
    · cases step with
      | quote step => exact (Ledger.quoteStep_tickers step).trans tickers
    · cases step with
      | sweepAll _ => exact tickers
  -- should the handler stop, the closing sweep still leaves the books alone
  have moved : (p.dispatch venue (.delta ticker side price qty)).desk.session.obMap =
      p.desk.session.obMap.insert ticker ((p.desk.session.book ticker).applyDelta side price qty) := by
    have inserted := (onDelta_shown venue ticker side price qty p.desk).1
    rcases dispatch_alive venue alive (.delta ticker side price qty) with done | ⟨_, ended⟩
    · rw [done]
      exact inserted
    · rw [ended]
      exact (sweep_books venue _).trans inserted
  exact ⟨stands.1, stands.2, book_of_insert moved⟩

theorem Desk.DeltaOnly.total_le_iff {before after : Desk ℚ X} {ticker : Ticker} {side : Side} {price : Int}
    {qty : Quantity} (only : before.DeltaOnly after ticker side price qty) (sorted : BooksSorted before.books)
    (fromFills : before.ledger.FromFills) (removes : qty.centi < 0) (tracked : ticker ∈ before.session.tickers)
    (held : 0 < side.toward (before.orderMgr.netPosition ticker).centi) :
    (portfolioSnapshot venue after).totalPnlCents ≤ (portfolioSnapshot venue before).totalPnlCents ↔
      before.MarkStands ticker side price qty := by
  obtain ⟨fills, netted, positive⟩ := fromFills
  obtain ⟨openOrders, orders⟩ := only.orders
  have realized : after.orderMgr.realizedPnl = before.orderMgr.realizedPnl := by
    rw [orders]
    rfl
  have unrealized : after.orderMgr.unrealizedPnl = before.orderMgr.unrealizedPnl := by
    rw [orders]
    rfl
  have shown : ∀ (marks : MarkMap) (name : Ticker), Portfolio.unrealized after.orderMgr marks name =
      Portfolio.unrealized before.orderMgr marks name := by
    intro marks name
    unfold Portfolio.unrealized
    rw [unrealized]
  have others : ∀ other, other ≠ ticker →
      Portfolio.unrealized before.orderMgr after.session.buildMarks other =
        Portfolio.unrealized before.orderMgr before.session.buildMarks other := by
    intro other different
    have same : after.session.buildMarks other = before.session.buildMarks other := by
      by_cases listed : other ∈ before.session.tickers
      · rw [buildMarks_eq _ listed, buildMarks_eq _ (only.tickers ▸ listed), only.books, if_neg (Ne.symm different)]
      · unfold buildMarks isTracked
        rw [only.tickers, decide_eq_false listed]
        rfl
    unfold Portfolio.unrealized
    rw [same]
  have here : after.session.buildMarks ticker = ((before.session.book ticker).applyDelta side price qty).mark := by
    rw [buildMarks_eq _ (only.tickers ▸ tracked), only.books, if_pos rfl]
  have gain : ∀ mark, before.orderMgr.unrealizedPnl ticker mark =
      before.orderMgr.worthAt ticker side mark - before.orderMgr.positionCost ticker :=
    OrderManager.unrealizedPnl_held netted positive held
  -- the realized part is the same, and only the one ticker's unrealized part differs
  have totals : (portfolioSnapshot venue after).totalPnlCents ≤ (portfolioSnapshot venue before).totalPnlCents ↔
      Portfolio.unrealized before.orderMgr after.session.buildMarks ticker ≤
        Portfolio.unrealized before.orderMgr before.session.buildMarks ticker := by
    unfold portfolioSnapshot PortfolioSnapshot.totalPnlCents Portfolio.snapshot
    dsimp only
    rw [realized, only.tickers, add_le_add_iff_left, sumOver_eq_sum, sumOver_eq_sum]
    rw [show Portfolio.unrealized after.orderMgr after.session.buildMarks =
      Portfolio.unrealized before.orderMgr after.session.buildMarks from funext (shown _)]
    exact sum_map_le_iff tracked others
  rw [totals]
  unfold Portfolio.unrealized Desk.MarkStands
  rw [here, buildMarks_eq _ tracked]
  cases marked : (before.session.book ticker).mark with
  | none =>
    cases marked' : ((before.session.book ticker).applyDelta side price qty).mark with
    | none => exact iff_of_true le_rfl trivial
    | some mark' =>
      dsimp only
      rw [gain mark', sub_nonpos]
  | some mark =>
    cases marked' : ((before.session.book ticker).applyDelta side price qty).mark with
    | none =>
      dsimp only
      rw [gain mark, sub_nonneg]
    | some mark' =>
      have lower := LocalOrderbook.mark_thinned (sorted ticker) side price removes marked marked'
      refine iff_of_true ?_ trivial
      dsimp only
      rw [gain mark, gain mark']
      apply sub_le_sub_right
      apply mul_le_mul_of_nonneg_right
      · exact_mod_cast lower
      · rw [OrderManager.contracts_eq, Quantity.abs_centi]
        positivity

/-- In any state of a run, thinning the side a market is held on leaves the total no higher exactly if the market's
mark stands, or the mark that goes shows no loss, or the mark that comes no gain. -/
theorem thinned_total_le_iff (session : TradingSession ℚ) (config : QuoterConfig ℚ)
    (limits : RiskLimits ℚ) (outside : X)
    (flowGuard : Option (FlowImbalanceGuard ℚ)) (tradeTape : Option (TradeTape ℚ)) (analytics pnlListener : Bool)
    (sorted : BooksSorted session.obMap) (events : List (Event ℚ)) (ticker : Ticker) (side : Side) (price : Int)
    (qty : Quantity) (removes : qty.centi < 0) :
    let p := (Process.start session config limits outside flowGuard tradeTape analytics pnlListener).run venue events
    p.alive = true → ticker ∈ p.desk.session.tickers → 0 < side.toward (p.desk.orderMgr.netPosition ticker).centi →
      ((portfolioSnapshot venue (p.dispatch venue (.delta ticker side price qty)).desk).totalPnlCents ≤
          (portfolioSnapshot venue p.desk).totalPnlCents ↔
        p.desk.MarkStands ticker side price qty) := by
  intro p alive tracked held
  have sound : p.Sound := by
    apply Run.invariant Process.Sound (fun p event sound => sound.dispatch venue event)
    exact ⟨sorted, [], OrderManager.empty_netted, fun fill member => absurd member List.not_mem_nil⟩
  have only := dispatch_deltaOnly venue alive ticker side price qty
  exact only.total_le_iff venue sound.books sound.positions removes tracked held

end

/-- One of the two bid levels goes, and the mark falls with it. -/
theorem thinned_total_le_iff_thinned :
    let venue : Venue Script := ⟨⟨"exchange"⟩, Script.host⟩
    let bought : Fill ℚ :=
      { tradeId := "a", orderId := "order", marketTicker := "M", side := .yes, priceCents := 60, quantity := ⟨1000⟩,
        feeCents := 0, isTaker := false, timestamp := 0 }
    let seed : Orderbook := { ticker := "M", yes := [⟨40, ⟨500⟩⟩, ⟨30, ⟨500⟩⟩], no := [⟨58, ⟨500⟩⟩] }
    let p := (Process.start { tickers := ["M"] } {} {} ({} : Script) none none false false).run venue
      [.snapshot seed, .fill bought]
    (portfolioSnapshot venue p.desk).totalPnlCents = -190 ∧
      (portfolioSnapshot venue (p.dispatch venue (.delta "M" .yes 40 ⟨-500⟩)).desk).totalPnlCents ≤
        (portfolioSnapshot venue p.desk).totalPnlCents := by
  intro venue bought seed p
  have sorted : BooksSorted ({ tickers := ["M"] } : TradingSession ℚ).obMap := by
    intro ticker side
    cases side <;> exact List.Pairwise.nil
  refine ⟨by decide +kernel, ?_⟩
  apply (thinned_total_le_iff venue { tickers := ["M"] } {} {} {} none none false false sorted
    [.snapshot seed, .fill bought]
    "M" .yes 40 ⟨-500⟩ (by decide) (by decide +kernel) (by decide +kernel) (by decide +kernel)).mpr
  have before : (p.desk.session.book "M").mark = some 41 := by decide +kernel
  have after : ((p.desk.session.book "M").applyDelta .yes 40 ⟨-500⟩).mark = some 36 := by decide +kernel
  unfold Desk.MarkStands
  rw [before, after]
  trivial

/-- The last bid goes and takes a loss of $1.90 with it, which a kill-switch at $1 would have seen. -/
theorem last_bid_hides_loss :
    let venue : Venue Script := ⟨⟨"exchange"⟩, Script.host⟩
    let bought : Fill ℚ :=
      { tradeId := "a", orderId := "order", marketTicker := "M", side := .yes, priceCents := 60, quantity := ⟨1000⟩,
        feeCents := 0, isTaker := false, timestamp := 0 }
    let seed : Orderbook := { ticker := "M", yes := [⟨40, ⟨500⟩⟩], no := [⟨58, ⟨500⟩⟩] }
    let limits : RiskLimits ℚ := { maxTotalLossDollars := -1 }
    let p := (Process.start { tickers := ["M"] } {} limits ({} : Script) none none false false).run venue
      [.snapshot seed, .fill bought]
    let thinned := p.dispatch venue (.delta "M" .yes 40 ⟨-500⟩)
    (portfolioSnapshot venue p.desk).totalPnlCents = -190 ∧ (portfolioSnapshot venue thinned.desk).totalPnlCents = 0 ∧
      ¬ (portfolioSnapshot venue thinned.desk).totalPnlCents ≤ (portfolioSnapshot venue p.desk).totalPnlCents ∧
      (p.dispatch venue .runPortfolioRisk).desk.riskMgr.isSet .kPortfolioLoss = true ∧
      (thinned.dispatch venue .runPortfolioRisk).desk.riskMgr.isSet .kPortfolioLoss = false := by
  decide +kernel

end Kalshi
