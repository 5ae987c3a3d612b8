import KalshiMaker.Engine.Steps
import KalshiMaker.Net.ScriptedHost

/-! A set risk bit latches: no order is sent until the bit is cleared. -/
namespace Kalshi

open Effect Eff Relation Ledger

variable {F X : Type} [Floating F]

/-- The bit is set, and no order was sent since `before`. -/
def Latched (bit : Constraint) (before : List (Entry F)) (L : Ledger F) : Prop :=
  L.riskMgr.constraints bit = true ∧
    ∃ later, L.calls = before ++ later ∧ ∀ entry ∈ later, entry.call.sentOn = none

theorem step_keeps_bit {bit : Constraint} {action : Action F} {L L' : Ledger F} (step : Step L action L')
    (kept : action ≠ .resume ∧ action ≠ .clear bit) (set : L.riskMgr.constraints bit = true) :
    L'.riskMgr.constraints bit = true := by
  cases step with
  | quote step => cases step <;> exact set
  | fill _ _ _ =>
    rw [forgetFilled_riskMgr]
    exact set
  | raise raises => exact raises bit set
  | @clear other =>
    have different : bit ≠ other := fun same => kept.2 (by rw [same])
    simpa [Function.update_of_ne different] using set
  | resume => exact absurd rfl kept.1
  | refill | flatten _ _ | reflatten | sweepAll _ | sweep _ | cancel | track _ | untrack _ _ _ | forget _ =>
    exact set

theorem step_keeps_latched {bit : Constraint} {before : List (Entry F)} {action : Action F}
    {L L' : Ledger F} (step : Step L action L') (kept : action ≠ .resume ∧ action ≠ .clear bit)
    (latched : Latched bit before L) : Latched bit before L' := by
  obtain ⟨set, later, calls, silent⟩ := latched
  obtain ⟨more, added, sends⟩ := step.calls
  refine ⟨step_keeps_bit step kept set, later ++ more, by rw [added, calls, List.append_assoc], ?_⟩
  intro entry member
  rcases List.mem_append.mp member with member | member
  · exact silent entry member
  · cases sent : entry.call.sentOn with
    | none => rfl
    | some ticker =>
      have clear := ((sends entry member).2 ticker sent).2 bit
      rw [set] at clear
      cases clear

/-- Only two events let go of a bit. -/
theorem permits_keeps {bit : Constraint} {event : Event F}
    (kept : event ≠ .resume ∧ event ≠ .clearConstraint bit) {action : Action F}
    (permitted : event.permits action ∨ action = .sweepAll) :
    action ≠ .resume ∧ action ≠ .clear bit := by
  rcases permitted with permitted | rfl
  · cases event with
    | resume => exact absurd rfl kept.1
    | clearConstraint other =>
      cases permitted
      refine ⟨nofun, fun same => kept.2 ?_⟩
      cases same
      rfl
    | fill fill => rcases permitted with rfl | rfl <;> exact ⟨nofun, nofun⟩
    | addMarket snapshot => rcases permitted with rfl | rfl <;> exact ⟨nofun, nofun⟩
    | enforceQuoteSafety => rcases permitted with rfl | ⟨ticker, rfl⟩ <;> exact ⟨nofun, nofun⟩
    | requoteIdleMarkets => obtain ⟨ticker, rfl⟩ := permitted; exact ⟨nofun, nofun⟩
    | cancelPreexistingOrders orders => obtain ⟨order, _, rfl⟩ := permitted; exact ⟨nofun, nofun⟩
    | snapshot _ | trade _ | setReduceOnly _ => cases permitted
    | delta _ _ _ _ | disconnect | cancelAllQuotes | removeMarketIfIdle _ | seedOrderbook _
    | recordFlatten _ | resetQuotes | forgetTicker _ | forgetOrder _ _ | runPortfolioRisk
    | riskUpdate _ | updatePortfolio _ | setConstraint _ | halt =>
      cases permitted
      exact ⟨nofun, nofun⟩
  · exact ⟨nofun, nofun⟩

theorem dispatch_keeps_latched (venue : Venue X) {bit : Constraint} {before : List (Entry F)}
    {event : Event F} (kept : event ≠ .resume ∧ event ≠ .clearConstraint bit) (p : Process F X)
    (latched : Latched bit before p.desk.ledger) :
    Latched bit before (p.dispatch venue event).desk.ledger := by
  refine chain_invariant (Latched bit before) ?_ (dispatch_leads venue p event) latched
  rintro L L' ⟨action, permitted, step⟩ latched
  exact step_keeps_latched step (permits_keeps kept permitted) latched

theorem run_keeps_latched (venue : Venue X) {bit : Constraint} {events : List (Event F)}
    (kept : ∀ event ∈ events, event ≠ .resume ∧ event ≠ .clearConstraint bit) (p : Process F X)
    {before : List (Entry F)} (latched : Latched bit before p.desk.ledger) :
    Latched bit before (p.run venue events).desk.ledger := by
  induction events generalizing p with
  | nil => exact latched
  | cons event events ih =>
    refine ih (fun later member => kept later (List.mem_cons_of_mem event member)) _ ?_
    exact dispatch_keeps_latched venue (kept event List.mem_cons_self) p latched

/-- While halted, the safety net still sends a cancel for every open order on a tracked market. -/
theorem enforceQuoteSafety_cancels (venue : Venue X) {p : Process F X} (alive : p.alive = true)
    (halted : p.desk.riskMgr.isHalted = true) :
    ∃ cancels : List (OrderId × Bool),
      (p.dispatch venue .enforceQuoteSafety).desk.calls =
        p.desk.calls ++ cancels.map (fun sent => ⟨.cancel sent.1 sent.2, p.desk.session.tickers⟩) ∧
      ∀ id order, p.desk.orderMgr.openOrders.lookup id = some order →
        order.marketTicker ∈ p.desk.session.tickers → ∃ accepted, (id, accepted) ∈ cancels := by
  obtain ⟨cancels, x, ran, sent⟩ := TradingSession.cancelAllQuotes_run venue p.desk
  refine ⟨cancels, ?_, fun id order found tracked => ?_⟩
  · simp [Process.dispatch, alive, handle, TradingSession.enforceQuoteSafety, halted, ran,
      Desk.afterCancels]
  · obtain ⟨cancel, member, rfl⟩ := List.mem_map.mp (sent.reaches id order found tracked)
    exact ⟨cancel.2, member⟩

/-- Once a bit is set, no run that neither resumes nor clears that bit sends another order, whatever
becomes of the other bits; and the quotes still open can be cancelled. -/
theorem kill_switch_latches (venue : Venue X) (bit : Constraint) (p : Process F X)
    (set : p.desk.riskMgr.isSet bit = true) (events : List (Event F))
    (kept : ∀ event ∈ events, event ≠ .resume ∧ event ≠ .clearConstraint bit) :
    (p.run venue events).desk.riskMgr.isSet bit = true ∧
    (∃ later, (p.run venue events).desk.calls = p.desk.calls ++ later ∧
      ∀ entry ∈ later, entry.call.sentOn = none) ∧
    ((p.run venue events).alive = true →
      ∃ cancels : List (OrderId × Bool),
        ((p.run venue events).dispatch venue .enforceQuoteSafety).desk.calls =
          (p.run venue events).desk.calls ++ cancels.map
            (fun sent => ⟨.cancel sent.1 sent.2, (p.run venue events).desk.session.tickers⟩) ∧
        ∀ id order, (p.run venue events).desk.orderMgr.openOrders.lookup id = some order →
          order.marketTicker ∈ (p.run venue events).desk.session.tickers →
          ∃ accepted, (id, accepted) ∈ cancels) := by
  obtain ⟨still, silent⟩ : Latched bit p.desk.calls (p.run venue events).desk.ledger :=
    run_keeps_latched venue kept p ⟨set, [], by simp [Desk.ledger], by simp⟩
  refine ⟨still, silent, fun alive => enforceQuoteSafety_cancels venue alive ?_⟩
  exact (RiskManager.isHalted_iff _).mpr ⟨bit, still⟩

/-- A market quoted on both sides, then halted by hand; a delta on it sends nothing. -/
theorem kill_switch_latches_manual_halt :
    let venue : Venue Script := ⟨⟨"exchange"⟩, Script.host⟩
    let book : Orderbook := { ticker := "M", yes := [⟨40, ⟨1000⟩⟩], no := [⟨40, ⟨1000⟩⟩] }
    let p : Process ℚ Script :=
      (Process.start { tickers := ["M"] } {} {} {} none none false false).run venue
        [.seedOrderbook book, .halt]
    ∃ later, (p.run venue [.delta "M" .yes 41 ⟨500⟩, .setConstraint .kStaleBook,
        .clearConstraint .kStaleBook, .requoteIdleMarkets]).desk.calls = p.desk.calls ++ later ∧
      ∀ entry ∈ later, entry.call.sentOn = none := by
  intro venue book p
  refine (kill_switch_latches venue .kManualHalt p (by decide +kernel) _ ?_).2.1
  intro event member
  simp only [List.mem_cons, List.not_mem_nil, or_false] at member
  rcases member with rfl | rfl | rfl | rfl <;> simp

end Kalshi
