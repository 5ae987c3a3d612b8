import KalshiMaker.Engine.Steps
import KalshiMaker.Net.ScriptedHost
import Mathlib.Algebra.BigOperators.Group.Finset.Basic

/-! The loss limits see the realized PnL of every market with a fill, as long as each such market is
listed once and leaves without a profit or loss. -/
namespace Kalshi

open Effect Eff Relation

variable {F X : Type} [Floating F]

def Call.recorded : Call F → Option Ticker
  | .recordFill fill true => some fill.marketTicker
  | .recordFill _ false | .place _ _ _ _ _ | .amend _ _ _ _ _ _ | .cancel _ _ => none

/-- The markets in which a fill was recorded. -/
def recordedMarkets (calls : List (Entry F)) : List Ticker := calls.filterMap fun entry => entry.call.recorded

namespace OrderManager

theorem bookFill_realizedPnl_ne (om : OrderManager F) (fill : Fill F) {ticker : Ticker}
    (other : ticker ≠ fill.marketTicker) : (om.bookFill fill).realizedPnl ticker = om.realizedPnl ticker := by
  simp [bookFill, realizedPnl, Function.update_of_ne other]

theorem amended_realizedPnl (om : OrderManager F) (orderId newId : OrderId) (price : Int) :
    (om.amended orderId newId price).realizedPnl = om.realizedPnl := by
  obtain ⟨openOrders, books⟩ := om.amended_books orderId newId price
  rw [books]
  rfl

theorem afterCancels_realizedPnl (om : OrderManager F) (cancels : List (OrderId × Bool)) :
    (om.afterCancels cancels).realizedPnl = om.realizedPnl := by
  obtain ⟨openOrders, books⟩ := om.afterCancels_books cancels
  rw [books]
  rfl

end OrderManager

namespace Ledger

/-- A market with a profit or loss had a fill recorded, and is listed once. -/
def Counted (L : Ledger F) : Prop :=
  ∀ ticker, L.orderMgr.realizedPnl ticker ≠ 0 →
    ticker ∈ recordedMarkets L.calls ∧ L.tickers.count ticker = 1

/-- What an action must not do: book a fill of a market listed twice or not at all, or drop a market
with a profit or loss. -/
def Counts (L : Ledger F) : Action F → Prop
  | .fill fill => L.tickers.count fill.marketTicker ≤ 1
  | .flatten fill => L.tickers.count fill.marketTicker = 1
  | .untrack ticker => L.orderMgr.realizedPnl ticker = 0
  | _ => True

theorem quoteStep_realizedPnl {ticker : Ticker} {L L' : Ledger F} (step : QuoteStep ticker L L') :
    L'.orderMgr.realizedPnl = L.orderMgr.realizedPnl := by
  cases step with
  | amended _ _ => exact OrderManager.amended_realizedPnl _ _ _ _
  | placed _ _ _ _ _ | placeFailed _ | amendFailed _ | released | forgotten _ | kept => rfl

/-- Recorded markets stay recorded. -/
theorem recorded_of_step {L L' : Ledger F} {action : Action F} (step : Step L action L') {ticker : Ticker}
    (was : ticker ∈ recordedMarkets L.calls) : ticker ∈ recordedMarkets L'.calls := by
  obtain ⟨later, calls, _⟩ := step.calls
  rw [calls, recordedMarkets, List.filterMap_append]
  exact List.mem_append_left _ was

/-- A market with a profit or loss had a fill recorded. -/
def Accounted (L : Ledger F) : Prop :=
  ∀ ticker, L.orderMgr.realizedPnl ticker ≠ 0 → ticker ∈ recordedMarkets L.calls

theorem recordedMarkets_recorded (L : Ledger F) (fill : Fill F) :
    recordedMarkets (L.recorded fill).calls = recordedMarkets L.calls ++ [fill.marketTicker] := by
  simp [Ledger.recorded, called, recordedMarkets, Call.recorded]

theorem recorded_accounted {L : Ledger F} (fill : Fill F) (accounted : L.Accounted) :
    (L.recorded fill).Accounted := by
  intro ticker nonzero
  rw [recordedMarkets_recorded, List.mem_append, List.mem_singleton]
  by_cases here : ticker = fill.marketTicker
  · exact .inr here
  · apply Or.inl
    apply accounted ticker
    rw [← L.orderMgr.bookFill_realizedPnl_ne fill here]
    exact nonzero

theorem step_accounted {L L' : Ledger F} {action : Action F} (step : Step L action L')
    (accounted : L.Accounted) : L'.Accounted := by
  have same : L'.orderMgr.realizedPnl = L.orderMgr.realizedPnl → L'.Accounted := by
    intro pnl ticker nonzero
    rw [pnl] at nonzero
    exact recorded_of_step step (accounted ticker nonzero)
  cases step with
  | quote step => exact same (quoteStep_realizedPnl step)
  | @fill fill _ _ _ =>
    intro ticker nonzero
    rw [forgetFilled_orderMgr] at nonzero
    rw [forgetFilled_calls]
    exact recorded_accounted fill accounted ticker nonzero
  | flatten _ _ => exact recorded_accounted _ accounted
  | sweepAll _ | sweep _ | cancel => exact same (OrderManager.afterCancels_realizedPnl _ _)
  | refill | reflatten | raise _ | clear | resume | track _ | untrack _ _ _ | forget _ => exact same rfl

theorem step_counted {L L' : Ledger F} {action : Action F} (step : Step L action L')
    (counts : L.Counts action) (counted : L.Counted) : L'.Counted := by
  have accounted : L'.Accounted := step_accounted step fun ticker nonzero => (counted ticker nonzero).1
  have once : ∀ ticker, L'.orderMgr.realizedPnl ticker ≠ 0 → L'.tickers.count ticker = 1 := by
    have same : L'.orderMgr.realizedPnl = L.orderMgr.realizedPnl → L'.tickers = L.tickers →
        ∀ ticker, L'.orderMgr.realizedPnl ticker ≠ 0 → L'.tickers.count ticker = 1 := by
      intro pnl tickers ticker nonzero
      rw [pnl] at nonzero
      rw [tickers]
      exact (counted ticker nonzero).2
    -- The fill's own market is listed once by the condition, the others were before it.
    have booked : ∀ fill : Fill F, L.tickers.count fill.marketTicker = 1 → ∀ ticker,
        (L.orderMgr.bookFill fill).realizedPnl ticker ≠ 0 → L.tickers.count ticker = 1 := by
      intro fill listed ticker nonzero
      by_cases here : ticker = fill.marketTicker
      · rw [here]
        exact listed
      · rw [L.orderMgr.bookFill_realizedPnl_ne fill here] at nonzero
        exact (counted ticker nonzero).2
    cases step with
    | quote step => exact same (quoteStep_realizedPnl step) (quoteStep_tickers step)
    | @fill fill _ tracked _ =>
      have listed : L.tickers.count fill.marketTicker = 1 :=
        le_antisymm counts (List.count_pos_iff.mpr tracked)
      rw [forgetFilled_orderMgr, forgetFilled_tickers]
      exact booked fill listed
    | flatten _ _ => exact booked _ counts
    | sweepAll _ | sweep _ | cancel => exact same (OrderManager.afterCancels_realizedPnl _ _) rfl
    | @track new untracked =>
      intro ticker nonzero
      have once := (counted ticker nonzero).2
      have other : new ≠ ticker := by
        rintro rfl
        rw [List.count_eq_zero_of_not_mem untracked] at once
        cases once
      simpa [List.count_append, List.count_singleton, other] using once
    | @untrack gone _ _ _ =>
      intro ticker nonzero
      have other : ticker ≠ gone := fun same => nonzero (same ▸ counts)
      simpa [List.count_filter, other] using (counted ticker nonzero).2
    | refill | reflatten | raise _ | clear | resume | forget _ => exact same rfl rfl
  exact fun ticker nonzero => ⟨accounted ticker nonzero, once ticker nonzero⟩

end Ledger

section

variable (venue : Venue X)

/-- An event whose actions all count keeps the markets counted; `K` is what they need of the ledger. -/
theorem counted_of_counts (event : Event F) {s : Desk F X} (K : Ledger F → Prop)
    (enough : ∀ L action, K L → event.permits action → L.Counts action)
    (stable : ∀ L L' action, event.permits action → Ledger.Step L action L' → K L → K L')
    (start : K s.ledger) (counted : s.ledger.Counted) : (handle venue event s).2.ledger.Counted := by
  refine (chain_invariant (fun L : Ledger F => L.Counted ∧ K L) ?_ (handle_leads venue event s)
    ⟨counted, start⟩).1
  rintro L L' ⟨action, permitted, step⟩ ⟨counted, kept⟩
  exact ⟨Ledger.step_counted step (enough L action kept permitted) counted, stable L L' action permitted step kept⟩

theorem counting_always (event : Event F) {s : Desk F X}
    (enough : ∀ action, event.permits action → ∀ L : Ledger F, L.Counts action)
    (counted : s.ledger.Counted) : (handle venue event s).2.ledger.Counted :=
  counted_of_counts venue event (fun _ => True) (fun L action _ permitted => enough action permitted L)
    (fun _ _ _ _ _ => id) trivial counted

namespace Process

/-- Fills are recorded on markets listed once, and markets leave without a profit or loss. -/
def CountsOnce (p : Process F X) : Event F → Prop
  | .fill newFill => p.alive = true → p.desk.session.tickers.count newFill.marketTicker ≤ 1
  | .recordFlatten order => p.alive = true → order.filledQuantity.isPositive = true →
      p.desk.session.tickers.count order.marketTicker = 1
  | .removeMarketIfIdle ticker => p.alive = true → TradingSession.removable p.desk ticker = true →
      p.desk.orderMgr.realizedPnl ticker = 0
  | _ => True

theorem handle_counted {p : Process F X} {event : Event F} (alive : p.alive = true)
    (once : CountsOnce p event) (counted : p.desk.ledger.Counted) :
    (handle venue event p.desk).2.ledger.Counted := by
  cases event with
  | fill newFill =>
    refine counted_of_counts venue _ (fun L => L.tickers.count newFill.marketTicker ≤ 1) ?_ ?_ (once alive) counted
    · rintro L _ listed (rfl | rfl)
      · exact listed
      · trivial
    · rintro L L' _ (rfl | rfl) step listed
      · cases step with
        | fill _ _ _ => rwa [Ledger.forgetFilled_tickers]
        | refill => exact listed
      · cases step
        exact listed
  | recordFlatten order =>
    -- a flatten that filled nothing is not recorded
    cases positive : order.filledQuantity.isPositive with
    | false => simpa [handle, TradingSession.recordFlatten, positive] using counted
    | true =>
      refine counted_of_counts venue _ (fun L => L.tickers.count order.marketTicker = 1) ?_ ?_ (once alive positive)
        counted
      · rintro L _ listed rfl
        exact listed
      · rintro L L' _ rfl step listed
        cases step <;> exact listed
  | removeMarketIfIdle ticker =>
    -- a removed market takes its realized total out of the sum, so nothing may have been realized on it
    cases idle : TradingSession.removable p.desk ticker with
    | false => simpa [handle, TradingSession.removeMarketIfIdle, idle] using counted
    | true =>
      refine counted_of_counts venue _ (fun L => L.orderMgr.realizedPnl ticker = 0) ?_ ?_ (once alive idle) counted
      · rintro L _ even rfl
        exact even
      · rintro L L' _ rfl step even
        cases step
        exact even
  | snapshot _ | trade _ | setReduceOnly _ => exact counting_always venue _ (fun _ => False.elim) counted
  | addMarket _ | enforceQuoteSafety =>
    exact counting_always venue _ (by rintro _ (rfl | ⟨_, rfl⟩) <;> exact fun _ => trivial) counted
  | requoteIdleMarkets => exact counting_always venue _ (by rintro _ ⟨_, rfl⟩; exact fun _ => trivial) counted
  | cancelPreexistingOrders _ =>
    exact counting_always venue _ (by rintro _ ⟨_, _, rfl⟩; exact fun _ => trivial) counted
  | delta _ _ _ _ | disconnect | cancelAllQuotes | seedOrderbook _ | resetQuotes | forgetTicker _
  | forgetOrder _ _ | runPortfolioRisk | riskUpdate _ | updatePortfolio _ | setConstraint _ | halt
  | clearConstraint _ | resume =>
    exact counting_always venue _ (by rintro _ rfl; exact fun _ => trivial) counted

theorem dispatch_counted (p : Process F X) (event : Event F) (once : CountsOnce p event)
    (counted : p.desk.ledger.Counted) : (p.dispatch venue event).desk.ledger.Counted := by
  rcases dispatch_cases venue p event with same | ⟨alive, done⟩ | ⟨alive, _, ended⟩
  · rw [same]
    exact counted
  · rw [done]
    exact handle_counted venue alive once counted
  · rw [ended]
    exact counting_always venue .cancelAllQuotes (by rintro _ rfl; exact fun _ => trivial)
      (handle_counted venue alive once counted)

end Process

end

/-! ### Exact sums -/

section

variable [Elementary ℚ]

open Finset

theorem sumOver_eq_sum (tickers : List Ticker) (amount : Ticker → ℚ) :
    Portfolio.sumOver tickers amount = (tickers.map amount).sum := by
  have walk : ∀ start : ℚ, tickers.foldl (fun sum ticker => sum + amount ticker) start =
      start + (tickers.map amount).sum := by
    induction tickers with
    | nil => exact fun start => (add_zero start).symm
    | cons ticker tickers ih =>
      intro start
      rw [List.foldl_cons, ih, List.map_cons, List.sum_cons, add_assoc]
  exact (walk 0).trans (zero_add _)

/-- A list that has each market with a nonzero amount once adds up to the sum over any set that has
them all. -/
theorem sumOver_eq_sum_recorded {tickers recorded : List Ticker} {amount : Ticker → ℚ}
    (counted : ∀ ticker, amount ticker ≠ 0 → ticker ∈ recorded ∧ tickers.count ticker = 1) :
    Portfolio.sumOver tickers amount = ∑ ticker ∈ recorded.toFinset, amount ticker := by
  have once : ∀ ticker ∈ tickers.toFinset, tickers.count ticker • amount ticker = amount ticker := by
    intro ticker _
    by_cases zero : amount ticker = 0
    · rw [zero, nsmul_zero]
    · rw [(counted ticker zero).2, one_nsmul]
  have listed : ∀ ticker, amount ticker ≠ 0 → ticker ∈ tickers := fun ticker nonzero =>
    List.count_pos_iff.mp (by rw [(counted ticker nonzero).2]; exact one_pos)
  have same : (tickers.toFinset.filter fun ticker => amount ticker ≠ 0) =
      recorded.toFinset.filter fun ticker => amount ticker ≠ 0 := by
    ext ticker
    simp only [mem_filter, List.mem_toFinset]
    exact ⟨fun ⟨_, nonzero⟩ => ⟨(counted ticker nonzero).1, nonzero⟩,
      fun ⟨_, nonzero⟩ => ⟨listed ticker nonzero, nonzero⟩⟩
  calc Portfolio.sumOver tickers amount
      = (tickers.map amount).sum := sumOver_eq_sum tickers amount
    _ = ∑ ticker ∈ tickers.toFinset, tickers.count ticker • amount ticker := sum_list_map_count tickers amount
    _ = ∑ ticker ∈ tickers.toFinset, amount ticker := sum_congr rfl once
    _ = ∑ ticker ∈ tickers.toFinset with amount ticker ≠ 0, amount ticker := (sum_filter_ne_zero _).symm
    _ = ∑ ticker ∈ recorded.toFinset with amount ticker ≠ 0, amount ticker := by rw [same]
    _ = ∑ ticker ∈ recorded.toFinset, amount ticker := sum_filter_ne_zero _

/-- A booked fill leaves the risk manager with the realized PnL of the tracked markets. -/
theorem cached_after_fill {fill : Fill ℚ} {s : Desk ℚ X}
    (booked : (TradingSession.onFill fill s).1 = .ok true) :
    (TradingSession.onFill fill s).2.riskMgr.cachedTotalPnlCents =
      Portfolio.sumOver (TradingSession.onFill fill s).2.session.tickers
        (TradingSession.onFill fill s).2.orderMgr.realizedPnl := by
  rcases TradingSession.onFill_cases fill s with ⟨_, refused, _⟩ | ⟨_, refused, _⟩ | ⟨_, _, _, _, filled⟩
  · exact absurd booked refused
  · exact absurd (booked.symm.trans refused) nofun
  · have risk := congrArg Ledger.riskMgr filled
    have orders := congrArg Ledger.orderMgr filled
    have tickers := congrArg Ledger.tickers filled
    rw [Ledger.forgetFilled_orderMgr] at orders
    rw [Ledger.forgetFilled_tickers] at tickers
    change (TradingSession.onFill fill s).2.riskMgr = _ at risk
    change (TradingSession.onFill fill s).2.orderMgr = s.orderMgr.bookFill fill at orders
    change (TradingSession.onFill fill s).2.session.tickers = s.session.tickers at tickers
    rw [risk, orders, tickers]
    exact RiskManager.update_cachedTotalPnlCents _ _ _

/-- Realized PnL of every market with a fill, each counted once. -/
def Desk.sessionPnl (s : Desk ℚ X) : ℚ :=
  ∑ ticker ∈ (recordedMarkets s.calls).toFinset, s.orderMgr.realizedPnl ticker

/-- After the fill, the loss limits work with the PnL of the session: the portfolio's total always does,
and what the risk manager compares, where the fill was booked and it looked again. -/
structure Process.LossLimitsSee (venue : Venue X) (p : Process ℚ X) (fill : Fill ℚ) : Prop where
  portfolio : (TradingSession.portfolioSnapshot venue (p.dispatch venue (.fill fill)).desk).totalRealizedCents =
    (p.dispatch venue (.fill fill)).desk.sessionPnl
  daily : p.alive = true → (TradingSession.onFill fill p.desk).1 = .ok true →
    (p.dispatch venue (.fill fill)).desk.riskMgr.cachedTotalPnlCents =
      (p.dispatch venue (.fill fill)).desk.sessionPnl

theorem loss_limits_see_session_pnl (venue : Venue X) (session : TradingSession ℚ) (config : QuoterConfig ℚ)
    (limits : RiskLimits ℚ) (outside : X) (flowGuard : Option (FlowImbalanceGuard ℚ))
    (tradeTape : Option (TradeTape ℚ)) (analytics pnlListener : Bool) (events : List (Event ℚ))
    (fill : Fill ℚ)
    (once : (Process.start session config limits outside flowGuard tradeTape analytics
      pnlListener).Meets venue Process.CountsOnce (events ++ [.fill fill])) :
    ((Process.start session config limits outside flowGuard tradeTape analytics
      pnlListener).run venue events).LossLimitsSee venue fill := by
  have initial : (Process.start session config limits outside flowGuard tradeTape analytics
      pnlListener).desk.ledger.Counted := fun ticker nonzero => absurd (sub_self _) nonzero
  obtain ⟨first, last⟩ := Run.meets_append.mp once
  generalize reached : (Process.start session config limits outside flowGuard tradeTape analytics
    pnlListener).run venue events = before
  have countedBefore : before.desk.ledger.Counted := reached ▸
    Run.invariant_of_meets (fun p : Process ℚ X => p.desk.ledger.Counted)
      (fun p event => Process.dispatch_counted venue p event) initial first
  have counted : (before.dispatch venue (.fill fill)).desk.ledger.Counted :=
    Process.dispatch_counted venue before (.fill fill) (reached ▸ last.1) countedBefore
  have total : Portfolio.sumOver (before.dispatch venue (.fill fill)).desk.session.tickers
      (before.dispatch venue (.fill fill)).desk.orderMgr.realizedPnl =
        (before.dispatch venue (.fill fill)).desk.sessionPnl := sumOver_eq_sum_recorded counted
  refine ⟨total, fun alive booked => ?_⟩
  -- the fill was booked, so its handler ran to the end
  have handled : (before.dispatch venue (.fill fill)).desk = (TradingSession.onFill fill before.desk).2 := by
    have ran : handle venue (.fill fill) before.desk = (.ok (), (TradingSession.onFill fill before.desk).2) :=
      Prod.ext (andThen_pure_result (fun _ => ()) booked) (andThen_pure_state (fun _ => ()) _)
    simp [Process.dispatch, alive, ran]
  rw [← total, handled]
  exact cached_after_fill booked

end

/-- A losing round trip on `M`, then `N`, which had no fill, leaves, and `M` is filled again. -/
theorem loss_limits_see_session_pnl_rotation :
    let venue : Venue Script := ⟨⟨"exchange"⟩, Script.host⟩
    let fill (trade : String) (side : Side) : Fill ℚ :=
      { tradeId := trade, orderId := "order", marketTicker := "M", side, priceCents := 60,
        quantity := ⟨100⟩, feeCents := 0, isTaker := false, timestamp := 0 }
    let p : Process ℚ Script := Process.start { tickers := ["M", "N"] } {} {} {} none none false false
    (p.run venue [.fill (fill "a" .yes), .fill (fill "b" .no), .removeMarketIfIdle "N"]).LossLimitsSee venue
      (fill "c" .yes) := by
  intro venue fill p
  have once : p.Meets venue Process.CountsOnce
      [.fill (fill "a" .yes), .fill (fill "b" .no), .removeMarketIfIdle "N", .fill (fill "c" .yes)] :=
    ⟨fun _ => by decide +kernel, fun _ => by decide +kernel, fun _ _ => by decide +kernel,
      fun _ => by decide +kernel, trivial⟩
  exact loss_limits_see_session_pnl venue _ _ _ _ _ _ _ _ _ (fill "c" .yes) once

/-- A ticker listed twice counts its fee of 10 twice; and a market that left after losing 20 counts
no more. -/
theorem loss_limits_miscount :
    let venue : Venue Script := ⟨⟨"exchange"⟩, Script.host⟩
    let fill (trade : String) (ticker : Ticker) (side : Side) (fee : ℚ) : Fill ℚ :=
      { tradeId := trade, orderId := "order", marketTicker := ticker, side, priceCents := 60,
        quantity := ⟨100⟩, feeCents := fee, isTaker := false, timestamp := 0 }
    let start (tickers : List Ticker) : Process ℚ Script :=
      Process.start { tickers } {} {} {} none none false false
    let twice := ((start ["M", "M"]).run venue [.fill (fill "a" "M" .yes 10)]).desk
    let rotated := ((start ["M", "N"]).run venue [.fill (fill "a" "M" .yes 0), .fill (fill "b" "M" .no 0),
      .removeMarketIfIdle "M", .fill (fill "c" "N" .yes 0)]).desk
    (twice.riskMgr.cachedTotalPnlCents = -20 ∧ twice.sessionPnl = -10) ∧
      (rotated.riskMgr.cachedTotalPnlCents = 0 ∧ rotated.sessionPnl = -20 ∧
        (TradingSession.portfolioSnapshot venue rotated).totalRealizedCents = 0) := by
  decide +kernel

end Kalshi
