import KalshiMaker.Properties.OfflineTruth
import KalshiMaker.Properties.RotatedUniverse
import KalshiMaker.Properties.VanishingBids

/-! What is kept of a market is decided by that market's own events. -/
namespace Kalshi

open Effect Eff Desk Relation TradingSession OrderManager

variable {F X : Type} [Floating F]

/-! ### One market's part -/

/-- What a map has of one market. -/
def restricted {α : Type} (ticker : Ticker) (default : α) (f : Ticker → α) : Ticker → α :=
  fun other => if other = ticker then f other else default

section

variable {α : Type} (ticker : Ticker) (default : α) (f : Ticker → α)

@[simp] theorem restricted_self : restricted ticker default f ticker = f ticker := if_pos rfl

theorem restricted_update (other : Ticker) (a : α) :
    restricted ticker default (Function.update f other a) =
      if other = ticker then Function.update (restricted ticker default f) other a
      else restricted ticker default f := by
  funext market
  unfold restricted
  by_cases same : other = ticker
  · subst same
    rw [if_pos rfl]
    by_cases here : market = other
    · subst here
      simp
    · simp [here]
  · rw [if_neg same]
    by_cases here : market = ticker
    · subst here
      simp [Ne.symm same]
    · simp [here]

end

namespace FlowImbalanceGuard

def only (ticker : Ticker) (guard : FlowImbalanceGuard F) : FlowImbalanceGuard F :=
  { guard with fills := restricted ticker [] guard.fills }

theorem only_recordFill (guard : FlowImbalanceGuard F) (ticker other : Ticker) (side : Side) (quantity : Quantity)
    (time : TimePoint) :
    (guard.recordFill other side quantity time).only ticker =
      if other = ticker then (guard.only ticker).recordFill other side quantity time else guard.only ticker := by
  unfold recordFill only
  split
  next same =>
    subst same
    congr 1
    funext market
    by_cases here : market = other
    · subst here
      simp only [restricted, ↓reduceIte]
      rfl
    · simp only [restricted, here, ↓reduceIte]
  next apart =>
    congr 1
    funext market
    by_cases here : market = ticker
    · subst here
      simp only [restricted, Ne.symm apart, ↓reduceIte]
    · simp only [restricted, here, ↓reduceIte]

end FlowImbalanceGuard

namespace TradeTape

/-- `own` tells the trade ids of the market's own fills. -/
def only (own : String → Bool) (ticker : Ticker) (tape : TradeTape F) : TradeTape F :=
  { tape with
    printsByTicker := restricted ticker [] tape.printsByTicker
    ownTradeIds := tape.ownTradeIds.filter own }

theorem only_recordTrade (own : String → Bool) (tape : TradeTape F) (ticker : Ticker) (trade : PublicTrade) :
    (tape.recordTrade trade).only own ticker =
      if trade.marketTicker = ticker then (tape.only own ticker).recordTrade trade else tape.only own ticker := by
  unfold recordTrade only
  split
  next same =>
    subst same
    congr 1
    funext market
    by_cases here : market = trade.marketTicker
    · rw [here]
      simp only [restricted, ↓reduceIte]
      rfl
    · simp only [restricted, here, ↓reduceIte]
  next apart =>
    congr 1
    funext market
    by_cases here : market = ticker
    · subst here
      simp only [restricted, Ne.symm apart, ↓reduceIte]
    · simp only [restricted, here, ↓reduceIte]

theorem only_recordOwnFill (own : String → Bool) (tape : TradeTape F) (ticker : Ticker) (tradeId : String) :
    (tape.recordOwnFill tradeId).only own ticker =
      if own tradeId then (tape.only own ticker).recordOwnFill tradeId else tape.only own ticker := by
  unfold recordOwnFill
  by_cases nameless : tradeId = ""
  · simp [nameless]
  · cases named : own tradeId <;> simp [nameless, only, named]

end TradeTape

namespace OrderManager

/-- The account of one market, where `own` tells the keys of its fills. The resting orders are no part of it. -/
def only (own : String → Bool) (ticker : Ticker) (om : OrderManager F) : OrderManager F where
  netPosition := restricted ticker {} om.netPosition
  realizedSpread := restricted ticker 0 om.realizedSpread
  feesPaid := restricted ticker 0 om.feesPaid
  lots side := restricted ticker [] (om.lots side)
  seenFills := om.seenFills.filter own

theorem only_bookFill {own : String → Bool} {ticker : Ticker} {fill : Fill F}
    (keyed : own (fillKey fill) = decide (fill.marketTicker = ticker)) (om : OrderManager F) :
    (om.bookFill fill).only own ticker =
      if fill.marketTicker = ticker then (om.only own ticker).bookFill fill else om.only own ticker := by
  unfold bookFill only
  simp only [restricted_update]
  split
  next same =>
    subst same
    simp only [decide_true] at keyed
    simp only [restricted_self, OrderManager.mk.injEq, true_and]
    refine ⟨rfl, ?_, ?_⟩
    · funext side other
      by_cases here : other = fill.marketTicker <;> simp [restricted, here]
    · simp [keyed]
  next apart =>
    simp only [apart, decide_false] at keyed
    simp only [OrderManager.mk.injEq, true_and]
    constructor
    · funext side other
      by_cases here : other = ticker
      · simp [restricted, here, Ne.symm apart]
      · simp [restricted, here]
    · simp [keyed]

end OrderManager

/-! ### What is kept of a market -/

/-- The flow guard, the tape and the account are as they would be had there been no other market. -/
structure MarketRecord (F : Type) [Floating F] where
  tracked : Bool
  book : Option LocalOrderbook
  flowGuard : Option (FlowImbalanceGuard F)
  tradeTape : Option (TradeTape F)
  account : OrderManager F

def Desk.record (own : String → Bool) (ticker : Ticker) (s : Desk F X) : MarketRecord F where
  tracked := s.session.isTracked ticker
  book := s.session.obMap.lookup ticker
  flowGuard := s.flowGuard.map (FlowImbalanceGuard.only ticker)
  tradeTape := s.tradeTape.map (TradeTape.only own ticker)
  account := s.orderMgr.only own ticker

/-- The market an event is about. -/
def Event.market : Event F → Option Ticker
  | .snapshot book | .addMarket book | .seedOrderbook book => some book.ticker
  | .delta ticker _ _ _ | .removeMarketIfIdle ticker => some ticker
  | .fill newFill => some newFill.marketTicker
  | .trade print => some print.marketTicker
  | .recordFlatten order => some order.marketTicker
  | _ => none

/-- An event of the market, the record alone at hand. -/
def MarketRecord.take (record : MarketRecord F) : Event F → MarketRecord F
  | .snapshot book | .seedOrderbook book => { record with book := some (LocalOrderbook.applySnapshot book) }
  | .addMarket book => { record with tracked := true, book := some (LocalOrderbook.applySnapshot book) }
  | .delta _ side priceCents qty =>
    { record with book := some ((record.book.getD {}).applyDelta side priceCents qty) }
  | .trade trade => { record with tradeTape := record.tradeTape.map fun tape => tape.recordTrade trade }
  | .fill fill =>
    let noted := { record with tradeTape := record.tradeTape.map fun tape => tape.recordOwnFill fill.tradeId }
    if record.tracked ∧ fillKey fill ∉ record.account.seenFills then
      { noted with
        flowGuard := record.flowGuard.map fun guard =>
          guard.recordFill fill.marketTicker fill.side fill.quantity fill.timestamp
        account := record.account.bookFill fill }
    else noted
  | .recordFlatten order =>
    if order.filledQuantity.isPositive then
      { record with account := (record.account.recorded (flattenFill order)).2 }
    else record
  | _ => record

/-- `own` tells the keys of the market's fills from those of other markets. -/
def Event.Keyed (own : String → Bool) (ticker : Ticker) : Event F → Prop
  | .fill newFill => own (fillKey newFill) = decide (newFill.marketTicker = ticker)
  | .recordFlatten order => own (fillKey (flattenFill (F := F) order)) = decide (order.marketTicker = ticker)
  | _ => True

/-! ### What fills leave -/

theorem settleFill_kept (fill : Fill F) (s : Desk F X) :
    (settleFill fill s).2.session = s.session ∧ (settleFill fill s).2.tradeTape = s.tradeTape ∧
      (settleFill fill s).2.orderMgr = s.orderMgr ∧
      (settleFill fill s).2.flowGuard = s.flowGuard.map fun guard =>
        guard.recordFill fill.marketTicker fill.side fill.quantity fill.timestamp := by
  unfold settleFill
  simp only [bind_apply, get_apply, andThen_ok]
  split
  · simp only [mapQuoter, mapRisk, modify_apply, bind_apply, andThen_ok]
    obtain ⟨emitted, reported⟩ := reportFill_run fill _
    rw [reported]
    exact ⟨rfl, rfl, rfl, rfl⟩
  · simp only [mapRisk, modify_apply, bind_apply, andThen_ok]
    obtain ⟨emitted, reported⟩ := reportFill_run fill _
    rw [reported]
    exact ⟨rfl, rfl, rfl, rfl⟩

/-- A fill that does not end the process is noted on the tape, and booked where its market is tracked and its key is
new. -/
theorem onFill_kept {fill : Fill F} {s : Desk F X}
    (sound : fill.marketTicker ∈ s.session.tickers → checkFill fill = .ok ()) :
    let booked := fill.marketTicker ∈ s.session.tickers ∧ fillKey fill ∉ s.orderMgr.seenFills
    (onFill fill s).2.session = s.session ∧
      (onFill fill s).2.tradeTape = s.tradeTape.map (fun tape => tape.recordOwnFill fill.tradeId) ∧
      (onFill fill s).2.orderMgr = (if booked then s.orderMgr.bookFill fill else s.orderMgr) ∧
      (onFill fill s).2.flowGuard = if booked then s.flowGuard.map fun guard =>
        guard.recordFill fill.marketTicker fill.side fill.quantity fill.timestamp else s.flowGuard := by
  intro booked
  by_cases tracked : fill.marketTicker ∈ s.session.tickers
  · have valid := sound tracked
    unfold onFill
    simp only [bind_apply, modify_apply, andThen_ok, get_apply]
    rw [if_pos (by simpa [isTracked] using tracked), bind_apply]
    rcases OrderManager.recordFill_cases fill
      { s with tradeTape := s.tradeTape.map fun tape => tape.recordOwnFill fill.tradeId }
      with ⟨what, h, invalid⟩ | ⟨h, _⟩
    · exact absurd valid invalid
    · rw [h, andThen_ok]
      unfold OrderManager.recorded
      by_cases seen : fillKey fill ∈ s.orderMgr.seenFills
      · have unbooked : ¬ booked := fun new => new.2 seen
        simp only [seen, ↓reduceIte, Bool.false_eq_true, if_neg unbooked]
        exact ⟨rfl, rfl, rfl, rfl⟩
      · have new : booked := ⟨tracked, seen⟩
        simp only [seen, ↓reduceIte, bind_apply, andThen_pure_state, if_pos new]
        exact settleFill_kept fill _
  · have unbooked : ¬ booked := fun new => tracked new.1
    rw [onFill_untracked tracked, if_neg unbooked, if_neg unbooked]
    exact ⟨rfl, rfl, rfl, rfl⟩

/-! ### One event -/

section

variable {own : String → Bool} {ticker : Ticker}

theorem OrderManager.mem_only {key : String} (keyed : own key = true) (om : OrderManager F) :
    key ∈ (om.only own ticker).seenFills ↔ key ∈ om.seenFills := by
  simp [only, keyed]

/-- The trade id of a fill is its key, where it has one. -/
theorem only_noteFill {fill : Fill F} (keyed : own (fillKey fill) = decide (fill.marketTicker = ticker))
    (tape : TradeTape F) :
    (tape.recordOwnFill fill.tradeId).only own ticker =
      if fill.marketTicker = ticker then (tape.only own ticker).recordOwnFill fill.tradeId
      else tape.only own ticker := by
  by_cases nameless : fill.tradeId = ""
  · simp [TradeTape.recordOwnFill, nameless]
  · have key : fillKey fill = fill.tradeId := if_pos nameless
    rw [TradeTape.only_recordOwnFill, ← key, keyed]
    by_cases here : fill.marketTicker = ticker <;> simp [here]

theorem onFill_record {fill : Fill F} {s : Desk F X}
    (keyed : own (fillKey fill) = decide (fill.marketTicker = ticker))
    (sound : fill.marketTicker ∈ s.session.tickers → checkFill fill = .ok ()) :
    (onFill fill s).2.record own ticker =
      if fill.marketTicker = ticker then (s.record own ticker).take (.fill fill) else s.record own ticker := by
  obtain ⟨session, tape, orders, flow⟩ := onFill_kept sound
  have noted : (s.tradeTape.map fun tape => tape.recordOwnFill fill.tradeId).map (TradeTape.only own ticker) =
      if fill.marketTicker = ticker then
        (s.tradeTape.map (TradeTape.only own ticker)).map fun tape => tape.recordOwnFill fill.tradeId
      else s.tradeTape.map (TradeTape.only own ticker) := by
    cases s.tradeTape with
    | none => split <;> rfl
    | some tape =>
      rw [Option.map_some, Option.map_some, only_noteFill keyed]
      split <;> rfl
  unfold Desk.record
  rw [session, tape, orders, flow, noted]
  by_cases here : fill.marketTicker = ticker
  · subst here
    have named : own (fillKey fill) = true := by simpa using keyed
    have new : (s.session.isTracked fill.marketTicker = true ∧
        fillKey fill ∉ (s.orderMgr.only own fill.marketTicker).seenFills) ↔
        fill.marketTicker ∈ s.session.tickers ∧ fillKey fill ∉ s.orderMgr.seenFills := by
      rw [OrderManager.mem_only named]
      simp [isTracked]
    rw [if_pos rfl, if_pos rfl]
    unfold MarketRecord.take
    dsimp only
    by_cases booked : fill.marketTicker ∈ s.session.tickers ∧ fillKey fill ∉ s.orderMgr.seenFills
    · rw [if_pos booked, if_pos booked, if_pos (new.mpr booked), only_bookFill keyed, if_pos rfl]
      cases s.flowGuard with
      | none => rfl
      | some guard => simp only [Option.map_some, FlowImbalanceGuard.only_recordFill, ↓reduceIte]
    · rw [if_neg booked, if_neg booked, if_neg (fun again => booked (new.mp again))]
  · -- a fill elsewhere is booked elsewhere
    have account : (if fill.marketTicker ∈ s.session.tickers ∧ fillKey fill ∉ s.orderMgr.seenFills then
        s.orderMgr.bookFill fill else s.orderMgr).only own ticker = s.orderMgr.only own ticker := by
      split
      · rw [only_bookFill keyed, if_neg here]
      · rfl
    have guarded : (if fill.marketTicker ∈ s.session.tickers ∧ fillKey fill ∉ s.orderMgr.seenFills then
        s.flowGuard.map fun guard => guard.recordFill fill.marketTicker fill.side fill.quantity fill.timestamp
        else s.flowGuard).map (FlowImbalanceGuard.only ticker) = s.flowGuard.map (FlowImbalanceGuard.only ticker) := by
      split
      · cases s.flowGuard with
        | none => rfl
        | some guard => simp only [Option.map_some, FlowImbalanceGuard.only_recordFill, if_neg here]
      · rfl
    rw [if_neg here, if_neg here, account, guarded]

theorem recordFlatten_record {order : Order} {s : Desk F X}
    (keyed : own (fillKey (flattenFill (F := F) order)) = decide (order.marketTicker = ticker))
    (lived : ∀ what, (recordFlatten order s).1 ≠ .error (.abort what)) :
    (recordFlatten order s).2.record own ticker =
      if order.marketTicker = ticker then (s.record own ticker).take (.recordFlatten order)
      else s.record own ticker := by
  unfold recordFlatten at lived ⊢
  by_cases filled : order.filledQuantity.isPositive = true
  · rw [if_pos filled] at lived ⊢
    rw [bind_apply] at lived ⊢
    rcases OrderManager.recordFill_cases (flattenFill order) s with ⟨what, h, _⟩ | ⟨h, _⟩
    · rw [h] at lived
      exact absurd rfl (lived what)
    · rw [h, andThen_ok]
      obtain ⟨emitted, reported⟩ := reportFill_run (flattenFill order)
        ((s.called (.recordFill (flattenFill order) (s.orderMgr.recorded (flattenFill order)).1) s.outside).withOrders
          (s.orderMgr.recorded (flattenFill order)).2)
      rw [reported]
      have booked : (s.orderMgr.recorded (flattenFill order)).2.only own ticker =
          if order.marketTicker = ticker then ((s.orderMgr.only own ticker).recorded (flattenFill order)).2
          else s.orderMgr.only own ticker := by
        unfold OrderManager.recorded
        by_cases here : order.marketTicker = ticker
        · have named : own (fillKey (flattenFill (F := F) order)) = true := by simpa [here] using keyed
          rw [if_pos here]
          simp only [OrderManager.mem_only named]
          split
          · rfl
          · exact (only_bookFill keyed _).trans (if_pos here)
        · rw [if_neg here]
          split
          · rfl
          · exact (only_bookFill keyed _).trans (if_neg here)
      have kept : Desk.record own ticker { (s.called (.recordFill (flattenFill order)
          (s.orderMgr.recorded (flattenFill order)).1) s.outside).withOrders
            (s.orderMgr.recorded (flattenFill order)).2 with emitted } =
          { s.record own ticker with account := (s.orderMgr.recorded (flattenFill order)).2.only own ticker } := rfl
      rw [kept, booked]
      split
      · exact (if_pos filled).symm
      · rfl
  · have unfilled : (s.record own ticker).take (.recordFlatten order) = s.record own ticker := if_neg filled
    rw [if_neg filled, unfilled, ite_self]
    rfl

end

/-! ### What other events leave -/

/-- What the quoter reads and never writes. -/
def Desk.noted (s : Desk F X) :
    List Ticker × OrderbookMap × Option (FlowImbalanceGuard F) × Option (TradeTape F) :=
  (s.session.tickers, s.session.obMap, s.flowGuard, s.tradeTape)

theorem noted_detached : Quoter.Detached (Desk.noted (F := F) (X := X)) where
  quoter _ _ := rfl
  outside _ _ := rfl
  called _ _ _ := rfl
  orders _ _ := rfl
  emit _ _ _ := rfl

section

variable (venue : Venue X)

theorem caughtUpdate_noted (ticker : Ticker) (book : LocalOrderbook) {handler : String → Eff (Desk F X) String Unit}
    (quiet : ∀ what s, (handler what s).2.noted = s.noted) (s : Desk F X) :
    (Eff.tryCatch (Quoter.update venue ticker book) handler s).2.noted = s.noted := by
  have updated : (Quoter.update venue ticker book s).2.noted = s.noted :=
    chain_unmoved (Quoter.update_moves (noted_detached.moves venue ticker) book s)
  rw [← updated, tryCatch_apply]
  cases Quoter.update venue ticker book s with
  | mk r s' =>
    rcases r with (what | what) | _
    · exact quiet what s'
    · rfl
    · rfl

theorem seedOrderbook_noted (seed : Orderbook) (s : Desk F X) :
    (seedOrderbook venue seed s).2.noted =
      (s.session.tickers, s.session.obMap.insert seed.ticker (LocalOrderbook.applySnapshot seed), s.flowGuard,
        s.tradeTape) :=
  caughtUpdate_noted venue seed.ticker _ (fun _ _ => rfl)
    { s with
      session := ((s.session.setBook seed.ticker (LocalOrderbook.applySnapshot seed)).seeded
        seed.ticker (venue.host.steadyNow s.outside).1)
      outside := (venue.host.steadyNow s.outside).2 }

theorem onDelta_noted (ticker : Ticker) (side : Side) (priceCents : Int) (qty : Quantity) (s : Desk F X) :
    (onDelta venue ticker side priceCents qty s).2.noted =
      (s.session.tickers,
        s.session.obMap.insert ticker ((s.session.book ticker).applyDelta side priceCents qty), s.flowGuard,
        s.tradeTape) := by
  let ticked : Desk F X :=
    { s with
      session := ((s.session.setBook ticker ((s.session.book ticker).applyDelta side priceCents qty)).ticked
        ticker (venue.host.steadyNow s.outside).1)
      outside := (venue.host.steadyNow s.outside).2 }
  have unfolded : onDelta venue ticker side priceCents qty s =
      (if s.session.isTracked ticker then do
        if ← coolingDown venue ticker then pure ()
        else quoteOrCoolDown venue ticker ((s.session.book ticker).applyDelta side priceCents qty)
      else pure ()) ticked := rfl
  rw [unfolded]
  split
  next =>
    obtain ⟨cooling, x, ran⟩ := coolingDown_run venue ticker ticked
    rw [bind_apply, ran, andThen_ok]
    cases cooling with
    | true => rfl
    | false => exact caughtUpdate_noted venue ticker _ (fun _ _ => rfl) { ticked with outside := x }
  next => rfl

theorem requoteMarket_noted (ticker : Ticker) (s : Desk F X) : (requoteMarket venue ticker s).2.noted = s.noted := by
  unfold requoteMarket
  obtain ⟨wanted, x, ran⟩ := wantsRequote_run venue ticker s
  rw [bind_apply, get_apply, andThen_ok, bind_apply, ran, andThen_ok]
  cases wanted with
  | false => rfl
  | true => exact caughtUpdate_noted venue ticker _ (fun _ _ => rfl) { s with outside := x }

theorem checkFeed_noted (ticker : Ticker) (s : Desk F X) : (checkFeed venue ticker s).2.noted = s.noted := by
  rcases checkFeed_run venue ticker s with ⟨x, ran, _⟩ | ⟨cancels, x, ran, _⟩
  · rw [ran]
    rfl
  · rw [ran]
    rfl

theorem cancelAllQuotes_noted (s : Desk F X) : (cancelAllQuotes venue s).2.noted = s.noted := by
  obtain ⟨cancels, x, ran, _⟩ := cancelAllQuotes_run venue s
  rw [ran]
  rfl

theorem feedPortfolio_noted (snapshot : PortfolioSnapshot F) (s : Desk F X) :
    (feedPortfolio snapshot s).2.noted = s.noted := by
  unfold feedPortfolio
  rw [bind_apply, get_apply, andThen_ok]
  cases (s.riskMgr.updatePortfolio snapshot).1 <;> rfl

/-- An event that is about no market changes none of it. -/
theorem handle_noted {event : Event F} (general : event.market = none) (s : Desk F X) :
    (handle venue event s).2.noted = s.noted := by
  refine Leads.unmoved (?_ : Leads Desk.noted (fun _ _ => False) (handle venue event) s)
  cases event with
  | snapshot _ | delta _ _ _ _ | fill _ | trade _ | addMarket _ | removeMarketIfIdle _ | seedOrderbook _
  | recordFlatten _ => cases general
  | requoteIdleMarkets =>
    refine Leads.bind (Leads.quiet rfl) (fun _ s₁ _ => Leads.ite (fun _ => Leads.quiet rfl) (fun _ => ?_))
    exact Leads.forEach (P := fun _ _ => True) (fun ticker _ s₂ _ => Leads.quiet (requoteMarket_noted venue ticker s₂))
      (AtEach.of_forall fun _ _ _ => trivial)
  | enforceQuoteSafety =>
    refine Leads.bind (Leads.quiet rfl) (fun _ s₁ _ => Leads.ite (fun _ => ?_) (fun _ => ?_))
    · exact Leads.quiet (cancelAllQuotes_noted venue s₁)
    · exact Leads.forEach (P := fun _ _ => True) (fun ticker _ s₂ _ => Leads.quiet (checkFeed_noted venue ticker s₂))
        (AtEach.of_forall fun _ _ _ => trivial)
  | disconnect | cancelAllQuotes => exact Leads.quiet (cancelAllQuotes_noted venue s)
  | cancelPreexistingOrders orders =>
    obtain ⟨cancels, x, ran, _⟩ := OrderManager.cancelEach_run venue (orders.map Order.id) s
    apply Leads.quiet
    change (Eff.forEach (orders.map Order.id) (OrderManager.cancelBestEffort venue) s).2.noted = s.noted
    rw [ran]
    rfl
  | runPortfolioRisk => exact Leads.bind (Leads.quiet rfl) fun _ s₁ _ => Leads.quiet (feedPortfolio_noted _ s₁)
  | updatePortfolio snapshot => exact Leads.quiet (feedPortfolio_noted snapshot s)
  | setReduceOnly _ | resetQuotes | forgetTicker _ | forgetOrder _ _ | riskUpdate _ | setConstraint _
  | clearConstraint _ | halt | resume => exact Leads.quiet rfl

/-- Apart from fills and flattens no event changes an account. -/
theorem handle_account {event : Event F} (quiet : event.accounts = false) (own : String → Bool) (ticker : Ticker)
    (s : Desk F X) : (handle venue event s).2.orderMgr.only own ticker = s.orderMgr.only own ticker :=
  congrArg (fun journal => journal.1.only own ticker) ((journal_untouched venue).handle quiet s)

end

/-! ### One event of a run -/

/-- The record of a desk from what is noted and the account. -/
theorem record_eq {own : String → Bool} {ticker : Ticker} {s : Desk F X} {tickers : List Ticker} {books : OrderbookMap}
    {flowGuard : Option (FlowImbalanceGuard F)} {tradeTape : Option (TradeTape F)} {account : OrderManager F}
    (noted : s.noted = (tickers, books, flowGuard, tradeTape)) (kept : s.orderMgr.only own ticker = account) :
    s.record own ticker =
      { tracked := decide (ticker ∈ tickers)
        book := books.lookup ticker
        flowGuard := flowGuard.map (FlowImbalanceGuard.only ticker)
        tradeTape := tradeTape.map (TradeTape.only own ticker)
        account } := by
  cases noted
  cases kept
  rfl

variable (venue : Venue X) {own : String → Bool} {ticker : Ticker}

theorem insert_record (s : Desk F X) {s' : Desk F X} {other : Ticker} {book : LocalOrderbook}
    (noted : s'.noted = (s.session.tickers, s.session.obMap.insert other book, s.flowGuard, s.tradeTape))
    (kept : s'.orderMgr.only own ticker = s.orderMgr.only own ticker) :
    s'.record own ticker =
      if other = ticker then { s.record own ticker with book := some book } else s.record own ticker := by
  rw [record_eq noted kept]
  split
  next same =>
    subst same
    rw [AList.lookup_insert]
    rfl
  next apart =>
    rw [AList.lookup_insert_ne (Ne.symm apart)]
    rfl

theorem adopt_record (s : Desk F X) (adopted : Ticker) :
    ({ s with session := s.session.adopt adopted } : Desk F X).record own ticker =
      if adopted = ticker then { s.record own ticker with tracked := true } else s.record own ticker := by
  have books : (s.session.adopt adopted).obMap = s.session.obMap := by
    unfold adopt
    split <;> rfl
  have tracked : (s.session.adopt adopted).isTracked ticker =
    (decide (adopted = ticker) || s.session.isTracked ticker) := by
    unfold adopt isTracked
    by_cases already : adopted ∈ s.session.tickers
    · by_cases same : adopted = ticker
      · subst same
        simp [already]
      · simp [already, same]
    · by_cases same : adopted = ticker
      · subst same
        simp [already]
      · simp [already, same, Ne.symm same]
  unfold Desk.record
  rw [books, tracked]
  split
  next same => simp [same]
  next apart => simp [apart]

theorem handle_record {event : Event F} {s : Desk F X} (stays : event ≠ .removeMarketIfIdle ticker)
    (keyed : event.Keyed own ticker) (lived : ∀ what, (handle venue event s).1 ≠ .error (.abort what)) :
    (handle venue event s).2.record own ticker =
      if event.market = some ticker then (s.record own ticker).take event else s.record own ticker := by
  have account : event.accounts = false → (handle venue event s).2.orderMgr.only own ticker =
    s.orderMgr.only own ticker :=
    fun quiet => handle_account venue quiet own ticker s
  cases event with
  | snapshot seed =>
    have noted : (handle venue (.snapshot seed) s).2.noted =
        (s.session.tickers, s.session.obMap.insert seed.ticker (LocalOrderbook.applySnapshot seed), s.flowGuard,
          s.tradeTape) := rfl
    simp only [Event.market, Option.some.injEq]
    exact insert_record s noted (account rfl)
  | delta other side priceCents qty =>
    refine (insert_record s (onDelta_noted venue other side priceCents qty s) (account rfl)).trans ?_
    simp only [Event.market, Option.some.injEq]
    split
    next same =>
      subst same
      rfl
    next => rfl
  | seedOrderbook seed =>
    have shelved := insert_record s (seedOrderbook_noted venue seed s) (account rfl)
    simp only [Event.market, Option.some.injEq]
    exact shelved
  | addMarket seed =>
    -- the market is adopted first, and then seeded
    have shelved := insert_record { s with session := s.session.adopt seed.ticker }
      (seedOrderbook_noted venue seed { s with session := s.session.adopt seed.ticker }) (account rfl)
    refine shelved.trans ?_
    rw [adopt_record]
    simp only [Event.market, Option.some.injEq]
    split <;> rfl
  | removeMarketIfIdle other =>
    have apart : other ≠ ticker := fun same => stays (congrArg Event.removeMarketIfIdle same)
    have kept : (removeMarketIfIdle other s).2.record own ticker = s.record own ticker := by
      rw [Rotation.removeMarketIfIdle_run]
      split
      · have tracked : (s.session.dropMarket other).isTracked ticker = s.session.isTracked ticker := by
          simp [dropMarket, isTracked, List.mem_filter, Ne.symm apart]
        have book : (s.session.dropMarket other).obMap.lookup ticker = s.session.obMap.lookup ticker :=
          AList.lookup_erase_ne (Ne.symm apart)
        unfold Desk.record
        rw [tracked, book]
      · rfl
    have elsewhere : (Event.removeMarketIfIdle (F := F) other).market ≠ some ticker := fun same =>
      apart (Option.some.inj same)
    rw [if_neg elsewhere]
    simpa [handle] using kept
  | fill newFill =>
    have sound : newFill.marketTicker ∈ s.session.tickers → checkFill newFill = .ok () := by
      intro tracked
      by_contra invalid
      obtain ⟨what, aborted⟩ := (onFill_aborts_iff newFill s).mpr ⟨tracked, invalid⟩
      apply lived what
      simp only [handle, bind_apply]
      cases ran : onFill newFill s with
      | mk r s' =>
        rw [ran] at aborted
        cases aborted
        rfl
    have recorded := onFill_record keyed sound
    simp only [Event.market, Option.some.injEq]
    rw [← recorded]
    simp [handle]
  | recordFlatten order =>
    have recorded := recordFlatten_record keyed lived
    simp only [Event.market, Option.some.injEq]
    exact recorded
  | trade print =>
    have taped : (s.tradeTape.map fun tape => tape.recordTrade print).map (TradeTape.only own ticker) =
        if print.marketTicker = ticker then
          (s.tradeTape.map (TradeTape.only own ticker)).map fun tape => tape.recordTrade print
        else s.tradeTape.map (TradeTape.only own ticker) := by
      cases s.tradeTape with
      | none => split <;> rfl
      | some tape =>
        rw [Option.map_some, Option.map_some, TradeTape.only_recordTrade]
        split <;> rfl
    change Desk.record own ticker { s with tradeTape := s.tradeTape.map fun tape => tape.recordTrade print } = _
    unfold Desk.record
    rw [taped]
    simp only [Event.market, Option.some.injEq]
    split <;> rfl
  | riskUpdate tickers => rfl
  | disconnect | requoteIdleMarkets | enforceQuoteSafety | runPortfolioRisk | cancelAllQuotes
  | cancelPreexistingOrders _ | setReduceOnly _ | resetQuotes | forgetTicker _ | forgetOrder _ _ | updatePortfolio _
  | setConstraint _ | clearConstraint _ | halt | resume =>
    exact record_eq (handle_noted venue rfl s) (account rfl)

/-! ### Runs -/

/-- The event neither ends the process nor drops the market, and its fill has a key of its own market. -/
def Process.Lives (own : String → Bool) (ticker : Ticker) (p : Process F X) (event : Event F) : Prop :=
  (p.dispatch venue event).alive = true ∧ event ≠ .removeMarketIfIdle ticker ∧ event.Keyed own ticker

theorem dispatch_record {p : Process F X} {event : Event F} (lives : p.Lives venue own ticker event) :
    (p.dispatch venue event).desk.record own ticker =
      if event.market = some ticker then (p.desk.record own ticker).take event else p.desk.record own ticker := by
  obtain ⟨alive, stays, keyed⟩ := lives
  have lived : ∀ what, (handle venue event p.desk).1 ≠ .error (.abort what) := by
    intro what aborted
    unfold Process.dispatch at alive
    rw [if_pos (dispatch_was_alive venue alive)] at alive
    cases ran : handle venue event p.desk with
    | mk r desk =>
      rw [ran] at aborted alive
      cases aborted
      cases alive
  have handled : (p.dispatch venue event).desk = (handle venue event p.desk).2 := by
    rcases dispatch_alive venue (dispatch_was_alive venue alive) event with done | ⟨⟨what, aborted⟩, _⟩
    · rw [done]
    · exact absurd aborted (lived what)
  rw [handled]
  exact handle_record venue stays keyed lived

theorem lives_of_alive {events : List (Event F)} (stays : .removeMarketIfIdle ticker ∉ events)
    (keyed : ∀ event ∈ events, event.Keyed own ticker) {p : Process F X}
    (alive : (p.run venue events).alive = true) : p.Meets venue (Process.Lives venue own ticker) events := by
  induction events generalizing p with
  | nil => trivial
  | cons event events ih =>
    refine ⟨⟨run_was_alive venue alive, ?_, keyed event List.mem_cons_self⟩, ih ?_ ?_ alive⟩
    · rintro rfl
      exact stays List.mem_cons_self
    · exact fun later => stays (List.mem_cons_of_mem _ later)
    · exact fun other later => keyed other (List.mem_cons_of_mem _ later)

/-- Whatever else a run did, what is kept of a market is what that market's own events make of it. -/
theorem record_of_own_events (own : String → Bool) (ticker : Ticker) (p : Process F X) (events : List (Event F))
    (stays : .removeMarketIfIdle ticker ∉ events) (keyed : ∀ event ∈ events, event.Keyed own ticker)
    (alive : (p.run venue events).alive = true) :
    (p.run venue events).desk.record own ticker =
      (events.filter fun event => decide (event.market = some ticker)).foldl MarketRecord.take
        (p.desk.record own ticker) := by
  refine Run.project (fun p : Process F X => p.desk.record own ticker) MarketRecord.take _ ?_
    (lives_of_alive venue stays keyed alive)
  intro p event lives
  simpa only [decide_eq_true_eq] using dispatch_record venue lives

/-- A fill and a book of another market, a requote and a halt come between the events of the market. -/
theorem record_of_own_events_two :
    let venue : Venue Script := ⟨⟨"exchange"⟩, Script.host⟩
    let book (ticker : Ticker) : Orderbook := { ticker, yes := [⟨40, ⟨1000⟩⟩], no := [⟨40, ⟨1000⟩⟩] }
    let fill (ticker : Ticker) (trade : String) : Fill ℚ :=
      { tradeId := trade, orderId := "order", marketTicker := ticker, side := .yes, priceCents := 40
        quantity := ⟨100⟩, feeCents := 0, isTaker := false, timestamp := 0 }
    let p : Process ℚ Script := Process.start { tickers := ["M", "N"] } {} {} {} (some {}) (some {}) false false
    let own (key : String) : Bool := key == "a"
    (p.run venue [.snapshot (book "M"), .snapshot (book "N"), .fill (fill "N" "b"), .requoteIdleMarkets,
        .fill (fill "M" "a"), .halt, .delta "M" .yes 40 ⟨-500⟩]).desk.record own "M" =
      [Event.snapshot (book "M"), .fill (fill "M" "a"), .delta "M" .yes 40 ⟨-500⟩].foldl MarketRecord.take
        (p.desk.record own "M") := by
  intro venue book fill p own
  refine record_of_own_events venue own "M" p _ ?_ ?_ ?_
  · simp
  · intro event among
    simp only [List.mem_cons, List.not_mem_nil, or_false] at among
    rcases among with rfl | rfl | rfl | rfl | rfl | rfl | rfl <;> trivial
  · decide +kernel

end Kalshi
