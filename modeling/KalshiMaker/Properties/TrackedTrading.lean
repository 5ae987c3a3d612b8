import KalshiMaker.Properties.SlotAgreement
import KalshiMaker.Net.ScriptedHost

/-! Trading on tracked markets only, as long as the requote loop quotes no market that left. -/
namespace Kalshi

open Effect Eff Relation

variable {F X : Type} [Floating F]

namespace Ledger

/-- Every order was sent on a market tracked at that moment, and rests on one tracked now. -/
structure Tracked (L : Ledger F) : Prop where
  sent : ∀ entry ∈ L.calls, ∀ ticker, entry.call.sentOn = some ticker → ticker ∈ entry.tickers
  resting : ∀ id order, L.order? id = some order → order.marketTicker ∈ L.tickers

/-- A quote on a tracked market rests on that market, or on the one its slot's order was on. -/
theorem quoteStep_resting {ticker : Ticker} {L L' : Ledger F} (step : QuoteStep ticker L L')
    (here : ticker ∈ L.tickers)
    (resting : ∀ id order, L.order? id = some order → order.marketTicker ∈ L.tickers) :
    ∀ id order, L'.order? id = some order → order.marketTicker ∈ L.tickers := by
  intro id order found
  cases step with
  | @placed side desired quantity placed _ _ on _ _ =>
    rw [order?_setSlot, order?_withOrders, OrderManager.placed_lookup] at found
    split at found
    · cases found
      exact on ▸ here
    · exact resting id order found
  | @amended side desired quantity newId _ _ =>
    rw [order?_setSlot, order?_withOrders] at found
    -- an amended order stays on the market it was on
    cases was : L.order? (L.slots ticker side).1 with
    | none =>
      rw [OrderManager.amended_untracked was] at found
      exact resting id order found
    | some before =>
      rw [OrderManager.amended_lookup was] at found
      split at found
      · cases found
        exact resting _ before was
      · split at found
        · cases found
        · exact resting id order found
  | @released side =>
    rw [order?_setSlot, order?_withOrders, OrderManager.cancelled_lookup] at found
    split at found
    · cases found
    · exact resting id order found
  | placeFailed _ | amendFailed _ | forgotten _ | kept => exact resting id order found

theorem step_tracked {L L' : Ledger F} {action : Action F} (step : Step L action L')
    (quotes : ∀ ticker, action = .quote ticker → ticker ∈ L.tickers) (tracked : L.Tracked) : L'.Tracked := by
  constructor
  · obtain ⟨later, calls, sends⟩ := step.calls
    intro entry member ticker sent
    rw [calls] at member
    rcases List.mem_append.mp member with member | member
    · exact tracked.sent entry member ticker sent
    · rw [(sends entry member).1]
      exact quotes ticker ((sends entry member).2 ticker sent).1
  · have shrunk : (∀ ticker, action ≠ .quote ticker) → L'.tickers = L.tickers →
        ∀ id order, L'.order? id = some order → order.marketTicker ∈ L'.tickers := by
      intro other same id order found
      obtain ⟨before, was, on, _⟩ := (step_shrinks step other).1 id order found
      rw [on, same]
      exact tracked.resting id before was
    cases step with
    | quote step =>
      rw [quoteStep_tickers step]
      exact quoteStep_resting step (quotes _ rfl) tracked.resting
    | track new => exact fun id order found => List.mem_append_left _ (tracked.resting id order found)
    | @untrack ticker _ _ idle =>
      intro id order found
      refine List.mem_filter.mpr ⟨tracked.resting id order found, ?_⟩
      -- a market is dropped only once it has no open order
      have elsewhere : order.marketTicker ≠ ticker := by
        intro here
        have member := (L.orderMgr.mem_openOn ticker id).mpr ⟨order, found, here⟩
        rw [idle] at member
        cases member
      simpa using elsewhere
    | fill _ _ _ => exact shrunk nofun (forgetFilled_tickers _ _ _)
    | refill | flatten _ _ | reflatten | sweepAll _ | sweep _ | cancel | raise _ | clear | resume | forget _ =>
      exact shrunk nofun rfl

end Ledger

variable (venue : Venue X)

/-- An event that only quotes, and that on tracked markets, trades on tracked markets only. -/
theorem quoting_tracked (event : Event F) {s : Desk F X}
    (quotes : ∀ action, event.permits action → ∃ ticker, action = .quote ticker)
    (only : event.QuotesOnly venue (· ∈ s.session.tickers) s) (tracked : s.ledger.Tracked) :
    (handle venue event s).2.ledger.Tracked := by
  refine (chain_invariant (fun L : Ledger F => L.Tracked ∧ L.tickers = s.session.tickers) ?_
    (handle_quotes venue only) ⟨tracked, rfl⟩).1
  rintro L L' ⟨action, ⟨permitted, allowed⟩, step⟩ ⟨tracked, same⟩
  refine ⟨Ledger.step_tracked step (fun ticker quote => same ▸ allowed ticker quote) tracked, ?_⟩
  obtain ⟨ticker, rfl⟩ := quotes action permitted
  cases step with
  | quote step => exact (Ledger.quoteStep_tickers step).trans same

theorem quoteless_tracked (event : Event F) {s : Desk F X}
    (quoteless : ∀ action, event.permits action → ∀ ticker, action ≠ .quote ticker)
    (tracked : s.ledger.Tracked) : (handle venue event s).2.ledger.Tracked := by
  refine chain_invariant Ledger.Tracked ?_ (handle_leads venue event s) tracked
  rintro L L' ⟨action, permitted, step⟩ tracked
  exact Ledger.step_tracked step (fun ticker quote => absurd quote (quoteless action permitted ticker)) tracked

theorem adopt_tracked {s : Desk F X} (ticker : Ticker) (tracked : s.ledger.Tracked) :
    ({ s with session := s.session.adopt ticker } : Desk F X).ledger.Tracked ∧
      ticker ∈ (s.session.adopt ticker).tickers := by
  unfold TradingSession.adopt TradingSession.isTracked
  by_cases here : ticker ∈ s.session.tickers
  · simp only [here, decide_true, ↓reduceIte, and_true]
    exact tracked
  · simp only [here, decide_false, Bool.false_eq_true, ↓reduceIte, List.mem_append, List.mem_singleton,
      or_true, and_true]
    exact ⟨tracked.sent, fun id order found => List.mem_append_left _ (tracked.resting id order found)⟩

namespace Process

/-- The requote loop runs the quoter on tracked markets only, and so do the seeds at start-up. -/
def RequotesTracked (p : Process F X) : Event F → Prop
  | .requoteIdleMarkets =>
    p.alive = true → TradingSession.RequotesOnly venue (· ∈ p.desk.session.tickers) p.desk
  | .seedOrderbook seed => p.alive = true → seed.ticker ∈ p.desk.session.tickers
  | _ => True

theorem handle_tracked {p : Process F X} {event : Event F} (alive : p.alive = true)
    (requotes : RequotesTracked venue p event) (tracked : p.desk.ledger.Tracked) :
    (handle venue event p.desk).2.ledger.Tracked := by
  cases event with
  | delta _ _ _ _ => exact quoting_tracked venue _ (fun _ quote => ⟨_, quote⟩) id tracked
  | requoteIdleMarkets => exact quoting_tracked venue _ (fun _ quote => quote) (requotes alive) tracked
  | seedOrderbook seed => exact quoting_tracked venue _ (fun _ quote => ⟨_, quote⟩) (requotes alive) tracked
  | addMarket seed =>
    obtain ⟨adopted, here⟩ := adopt_tracked seed.ticker tracked
    exact quoting_tracked venue (.seedOrderbook seed) (fun _ quote => ⟨_, quote⟩) here adopted
  | fill _ => exact quoteless_tracked venue _ (by rintro _ (rfl | rfl) ticker <;> nofun) tracked
  | enforceQuoteSafety =>
    exact quoteless_tracked venue _ (by rintro _ (rfl | ⟨_, rfl⟩) ticker <;> nofun) tracked
  | cancelPreexistingOrders _ =>
    exact quoteless_tracked venue _ (by rintro _ ⟨_, _, rfl⟩ ticker; nofun) tracked
  | snapshot _ | trade _ | setReduceOnly _ => exact quoteless_tracked venue _ (fun _ => False.elim) tracked
  | disconnect | cancelAllQuotes | removeMarketIfIdle _ | recordFlatten _ | resetQuotes | forgetTicker _
  | forgetOrder _ _ | runPortfolioRisk | riskUpdate _ | updatePortfolio _ | setConstraint _ | halt
  | clearConstraint _ | resume =>
    exact quoteless_tracked venue _ (by rintro _ rfl ticker; nofun) tracked

theorem dispatch_tracked (p : Process F X) (event : Event F) (requotes : RequotesTracked venue p event)
    (tracked : p.desk.ledger.Tracked) : (p.dispatch venue event).desk.ledger.Tracked := by
  rcases dispatch_cases venue p event with same | ⟨alive, done⟩ | ⟨alive, _, ended⟩
  · rw [same]
    exact tracked
  · rw [done]
    exact handle_tracked venue alive requotes tracked
  · rw [ended]
    exact quoteless_tracked venue .cancelAllQuotes (by rintro _ rfl ticker; nofun)
      (handle_tracked venue alive requotes tracked)

end Process

/-- Orders are sent and rest on tracked markets; so a sweep reaches every resting order, and the new
fills of resting orders are booked, as are all others on a tracked market. -/
structure Desk.TradesTracked (s : Desk F X) : Prop where
  sent : ∀ entry ∈ s.calls, ∀ ticker, entry.call.sentOn = some ticker → ticker ∈ entry.tickers
  resting : ∀ id order, s.orderMgr.openOrders.lookup id = some order →
    order.marketTicker ∈ s.session.tickers
  swept : ∃ cancels : List (OrderId × Bool),
    (TradingSession.cancelAllQuotes venue s).2.calls =
      s.calls ++ cancels.map (fun sent => ⟨.cancel sent.1 sent.2, s.session.tickers⟩) ∧
    ∀ id ∈ s.orderMgr.openOrders.keys, id ∈ cancels.map Prod.fst
  booked : ∀ fill : Fill F, OrderManager.checkFill fill = .ok () →
    OrderManager.fillKey fill ∉ s.orderMgr.seenFills →
    (fill.marketTicker ∈ s.session.tickers ∨ ∃ order,
      s.orderMgr.openOrders.lookup fill.orderId = some order ∧ order.marketTicker = fill.marketTicker) →
    (TradingSession.onFill fill s).1 = .ok true ∧
      (TradingSession.onFill fill s).2.orderMgr = s.orderMgr.bookFill fill

theorem Desk.TradesTracked.of_tracked {s : Desk F X} (tracked : s.ledger.Tracked) :
    s.TradesTracked venue where
  sent := tracked.sent
  resting := tracked.resting
  swept := by
    obtain ⟨cancels, x, ran, sent⟩ := TradingSession.cancelAllQuotes_run venue s
    refine ⟨cancels, by rw [ran]; rfl, fun id member => ?_⟩
    obtain ⟨order, found⟩ := Option.isSome_iff_exists.mp (AList.lookup_isSome.mpr (AList.mem_keys.mpr member))
    exact sent.reaches id order found (tracked.resting id order found)
  booked := by
    intro fill valid new own
    have here : fill.marketTicker ∈ s.session.tickers := by
      rcases own with here | ⟨order, found, on⟩
      · exact here
      · exact on ▸ tracked.resting _ order found
    rcases TradingSession.onFill_cases fill s with
      ⟨_, _, untracked | invalid⟩ | ⟨_, _, seen⟩ | ⟨done, _, _, _, filled⟩
    · exact absurd here untracked
    · exact absurd valid invalid
    · exact absurd seen new
    · refine ⟨done, ?_⟩
      have booked := congrArg Ledger.orderMgr filled
      rw [Ledger.forgetFilled_orderMgr] at booked
      exact booked

/-- In a run whose requotes and seeds keep to tracked markets, trading does. -/
theorem trades_tracked_only (venue : Venue X) (session : TradingSession F) (config : QuoterConfig F)
    (limits : RiskLimits F) (outside : X) (flowGuard : Option (FlowImbalanceGuard F))
    (tradeTape : Option (TradeTape F)) (analytics pnlListener : Bool) (events : List (Event F))
    (requotes : (Process.start session config limits outside flowGuard tradeTape analytics
      pnlListener).Meets venue (Process.RequotesTracked venue) events) :
    ((Process.start session config limits outside flowGuard tradeTape analytics
      pnlListener).run venue events).desk.TradesTracked venue := by
  have initial : (Process.start session config limits outside flowGuard tradeTape analytics
      pnlListener).desk.ledger.Tracked := by
    refine ⟨fun entry member => (by cases member), fun id order found => ?_⟩
    cases found
  exact .of_tracked venue <| Run.invariant_of_meets (fun p : Process F X => p.desk.ledger.Tracked)
    (fun p event => Process.dispatch_tracked venue p event) initial requotes

/-- A tracked market gets its book from the feed and its quotes from the requote loop. -/
theorem trades_tracked_only_requote :
    let venue : Venue Script := ⟨⟨"exchange"⟩, Script.host⟩
    let book : Orderbook := { ticker := "M", yes := [⟨40, ⟨1000⟩⟩], no := [⟨40, ⟨1000⟩⟩] }
    let p : Process ℚ Script := Process.start { tickers := ["M"] } {} {} {} none none false false
    (p.run venue [.snapshot book, .requoteIdleMarkets]).desk.TradesTracked venue := by
  intro venue book p
  refine trades_tracked_only venue _ _ _ _ _ _ _ _ _ ⟨trivial, fun _ => .inr ?_, trivial⟩
  refine AtEach.of_forall fun ticker member _ _ => ?_
  have books : (p.run venue [.snapshot book]).desk.session.obMap.keys = ["M"] := by decide +kernel
  exact books ▸ member

/-- A snapshot in flight brings back the book of a market just rotated out, and the requote loop
quotes it. -/
theorem rotated_out_market_requoted :
    let venue : Venue Script := ⟨⟨"exchange"⟩, Script.host⟩
    let book : Orderbook := { ticker := "M", yes := [⟨40, ⟨1000⟩⟩], no := [⟨40, ⟨1000⟩⟩] }
    let p : Process ℚ Script := Process.start { tickers := ["M"] } {} {} {} none none false false
    let desk := (p.run venue
      [.snapshot book, .removeMarketIfIdle "M", .snapshot book, .requoteIdleMarkets]).desk
    desk.session.tickers = [] ∧ desk.orderMgr.openOn "M" = ["order-2", "order-1"] ∧
      ¬ desk.TradesTracked venue := by
  intro venue book p desk
  have gone : desk.session.tickers = [] := by decide +kernel
  have resting : desk.orderMgr.openOn "M" = ["order-2", "order-1"] := by decide +kernel
  refine ⟨gone, resting, fun tracked => ?_⟩
  obtain ⟨order, found, _⟩ := (desk.orderMgr.mem_openOn "M" "order-1").mp (by simp [resting])
  have here := tracked.resting _ order found
  rw [gone] at here
  cases here

end Kalshi
