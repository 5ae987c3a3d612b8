import KalshiMaker.App.PnlFile
import KalshiMaker.Properties.CarriedPnl

/-! Realized PnL over any number of sessions: each loads what the sessions before it wrote. -/
namespace Kalshi

open Effect Eff Relation Ledger TradingSession

variable {F X : Type} [Floating F]

/-- What a session starts with beside the PnL file, and what reaches it. -/
structure Startup (F X : Type) [Floating F] where
  session : TradingSession F
  config : QuoterConfig F
  limits : RiskLimits F
  outside : X
  flowGuard : Option (FlowImbalanceGuard F)
  tradeTape : Option (TradeTape F)
  analytics : Bool
  events : List (Event F)

def Startup.launch (startup : Startup F X) (file : PnlFile F) : Process F X :=
  .start { startup.session with priorPnl := loadPnl file } startup.config startup.limits startup.outside
    startup.flowGuard startup.tradeTape startup.analytics true

def Startup.finish (venue : Venue X) (startup : Startup F X) (file : PnlFile F) : Process F X :=
  (startup.launch file).run venue startup.events

/-- The file a session leaves: each map handed to the listener replaces it. -/
def Process.pnlFile (file : PnlFile F) (p : Process F X) : PnlFile F :=
  match p.desk.persisted.getLast? with
  | some totals => persistPnl totals
  | none => file

/-- Sessions one after the other on one file: how each ended, and the file after the last. -/
def restarts (venue : Venue X) : PnlFile F → List (Startup F X) → List (Process F X) × PnlFile F
  | file, [] => ([], file)
  | file, startup :: later =>
    let ended := startup.finish venue file
    let rest := restarts venue (ended.pnlFile file) later
    (ended :: rest.1, rest.2)

/-! ### Where PnL is realized -/

/-- Realized PnL stays on tracked markets. -/
def Ledger.Carries (L : Ledger F) : Prop := ∀ ticker, L.orderMgr.realizedPnl ticker ≠ 0 → ticker ∈ L.tickers

def Action.books : Action F → Prop
  | .fill _ | .flatten _ => True
  | _ => False

/-- What an action must not do: drop a market with a profit or loss, or flatten one outside the list. -/
def Action.carries (L : Ledger F) : Action F → Prop
  | .untrack ticker => L.orderMgr.realizedPnl ticker = 0
  | .flatten closing => closing.marketTicker ∈ L.tickers
  | _ => True

namespace Ledger

variable {L L' : Ledger F} {action : Action F}

theorem step_realizedPnl (step : Step L action L') (quiet : ¬ action.books) :
    L'.orderMgr.realizedPnl = L.orderMgr.realizedPnl := by
  cases step with
  | fill _ _ _ | flatten _ _ => exact (quiet trivial).elim
  | quote step => exact quoteStep_realizedPnl step
  | sweepAll _ | sweep _ | cancel => exact OrderManager.afterCancels_realizedPnl _ _
  | reflatten | refill | raise _ | clear | resume | track _ | untrack _ _ _ | forget _ => rfl

theorem bookFill_carries {fill : Fill F} (tracked : fill.marketTicker ∈ L.tickers) (carries : L.Carries) :
    ∀ ticker, (L.orderMgr.bookFill fill).realizedPnl ticker ≠ 0 → ticker ∈ L.tickers := by
  intro ticker nonzero
  by_cases here : ticker = fill.marketTicker
  · rw [here]
    exact tracked
  · rw [L.orderMgr.bookFill_realizedPnl_ne fill here] at nonzero
    exact carries ticker nonzero

theorem step_carries (step : Step L action L') (keeps : action.carries L) (carries : L.Carries) : L'.Carries := by
  intro ticker nonzero
  cases step with
  | @fill fill _ tracked _ =>
    rw [forgetFilled_orderMgr] at nonzero
    rw [forgetFilled_tickers]
    exact bookFill_carries tracked carries ticker nonzero
  | flatten _ _ => exact bookFill_carries keeps carries ticker nonzero
  | quote step =>
    rw [quoteStep_realizedPnl step] at nonzero
    rw [quoteStep_tickers step]
    exact carries ticker nonzero
  | sweepAll _ | sweep _ | cancel =>
    exact carries ticker (by rwa [← OrderManager.afterCancels_realizedPnl])
  | track _ => exact List.mem_append_left _ (carries ticker nonzero)
  | @untrack gone _ _ _ =>
    have other : ticker ≠ gone := fun same => nonzero (same ▸ keeps)
    exact List.mem_filter.mpr ⟨carries ticker nonzero, by simpa using other⟩
  | reflatten | refill | raise _ | clear | resume | forget _ => exact carries ticker nonzero

end Ledger

/-- Only a fill or a flatten realizes anything. -/
theorem Event.permits_books {event : Event F} (quiet : ¬ event.Books) {action : Action F}
    (permitted : event.permits action ∨ action = .sweepAll) : ¬ action.books := by
  rcases permitted with permitted | rfl
  · cases event with
    | fill _ | recordFlatten _ => exact (quiet trivial).elim
    | snapshot _ | trade _ | setReduceOnly _ => cases permitted
    | addMarket _ | enforceQuoteSafety => rcases permitted with rfl | ⟨_, rfl⟩ <;> exact id
    | requoteIdleMarkets => obtain ⟨_, rfl⟩ := permitted; exact id
    | cancelPreexistingOrders _ => obtain ⟨_, _, rfl⟩ := permitted; exact id
    | delta _ _ _ _ | disconnect | cancelAllQuotes | removeMarketIfIdle _ | seedOrderbook _ | resetQuotes
    | forgetTicker _ | forgetOrder _ _ | runPortfolioRisk | riskUpdate _ | updatePortfolio _ | setConstraint _
    | halt | clearConstraint _ | resume =>
      cases permitted
      exact id
  · exact id

/-! ### What is written -/

/-- Nothing is realized and nothing written, or all that is realized by then is written. -/
def BooksTotals {α : Type} (m : Eff (Desk F X) String α) (s : Desk F X) : Prop :=
  ((m s).2.persisted = s.persisted ∧ (m s).2.orderMgr.realizedPnl = s.orderMgr.realizedPnl) ∨
  (m s).2.persisted = s.persisted ++ [(m s).2.session.carriedTotals (m s).2.orderMgr]

theorem reportFill_totals (fill : Fill F) (s : Desk F X) (listening : s.pnlListener = true) :
    (reportFill fill s).2.persisted =
      s.persisted ++ [(reportFill fill s).2.session.carriedTotals (reportFill fill s).2.orderMgr] := by
  unfold reportFill
  simp only [bind_apply, get_apply, andThen_ok, Desk.emit, listening, ↓reduceIte]
  cases s.analytics <;> simp [Desk.persisted]

theorem settleFill_run (fill : Fill F) (s : Desk F X) :
    ∃ quoter riskMgr flowGuard, settleFill fill s = reportFill fill { s with quoter, riskMgr, flowGuard } := by
  unfold settleFill
  rw [bind_apply, get_apply, andThen_ok]
  split <;> exact ⟨_, _, _, rfl⟩

theorem onFill_totals (fill : Fill F) (s : Desk F X) (listening : s.pnlListener = true) :
    BooksTotals (onFill fill) s := by
  unfold BooksTotals onFill
  simp only [bind_apply, modify_apply, andThen_ok, get_apply]
  split
  · rw [bind_apply]
    rcases OrderManager.recordFill_cases fill
      { s with tradeTape := s.tradeTape.map fun tape => tape.recordOwnFill fill.tradeId }
      with ⟨what, aborted, _⟩ | ⟨recorded, _⟩
    · rw [aborted]
      exact .inl ⟨rfl, rfl⟩
    · rw [recorded, andThen_ok]
      unfold OrderManager.recorded
      split
      -- a fill seen before is dropped, a new one is reported
      · exact .inl ⟨rfl, rfl⟩
      · obtain ⟨quoter, riskMgr, flowGuard, settled⟩ := settleFill_run fill
          ((({ s with tradeTape := s.tradeTape.map fun tape => tape.recordOwnFill fill.tradeId } :
            Desk F X).called (.recordFill fill true) s.outside).withOrders (s.orderMgr.bookFill fill))
        simp only [↓reduceIte, bind_apply, andThen_pure_state]
        rw [settled]
        exact .inr (reportFill_totals fill _ listening)
  · exact .inl ⟨rfl, rfl⟩

theorem recordFlatten_totals (order : Order) (s : Desk F X) (listening : s.pnlListener = true) :
    BooksTotals (recordFlatten order) s := by
  unfold BooksTotals recordFlatten
  split
  · rw [bind_apply]
    rcases OrderManager.recordFill_cases (flattenFill order) s with ⟨what, aborted, _⟩ | ⟨recorded, _⟩
    · rw [aborted]
      exact .inl ⟨rfl, rfl⟩
    · rw [recorded, andThen_ok]
      exact .inr (reportFill_totals (flattenFill order) _ listening)
  · exact .inl ⟨rfl, rfl⟩

section

variable (venue : Venue X)

theorem handle_totals {event : Event F} (books : event.Books) (s : Desk F X) (listening : s.pnlListener = true) :
    BooksTotals (handle venue event) s := by
  cases event with
  | fill newFill =>
    unfold BooksTotals
    simp only [handle, bind_apply, andThen_pure_state]
    exact onFill_totals newFill s listening
  | recordFlatten order => exact recordFlatten_totals order s listening
  | _ => exact books.elim

theorem listener_blind : FillBlind fun s : Desk F X => s.pnlListener where
  books _ _ _ := rfl
  emitted _ _ := rfl
  slots _ _ := rfl
  risk _ _ := rfl
  flow _ _ := rfl
  tape _ _ := rfl

/-- The listener installed at start-up stays. -/
theorem handle_listener (event : Event F) (s : Desk F X) :
    (handle venue event s).2.pnlListener = s.pnlListener := by
  by_cases books : event.Books
  · cases event with
    | fill newFill =>
      have leads : Leads (fun s : Desk F X => s.pnlListener) (fun _ _ => False) (handle venue (.fill newFill)) s :=
        Leads.bind (Leads.quiet (listener_blind.onFill newFill s)) fun _ s₁ _ => Leads.quiet rfl
      exact leads.unmoved
    | recordFlatten order => exact listener_blind.booking.recordFlatten order s
    | _ => exact books.elim
  · exact congrArg (fun carried => carried.2.2) (handle_carried venue books s)

/-! ### Which markets a session may drop or flatten -/

/-- A market is dropped without a profit or loss, and flattened while it is tracked. -/
def Process.KeepsPnl (p : Process F X) : Event F → Prop
  | .removeMarketIfIdle ticker => p.alive = true → removable p.desk ticker = true →
      p.desk.orderMgr.realizedPnl ticker = 0
  | .recordFlatten order => p.alive = true → order.filledQuantity.isPositive = true →
      order.marketTicker ∈ p.desk.session.tickers
  | _ => True

/-- `K` is what the actions of an event need of the ledger, and what they keep. -/
theorem carries_of_keeps (event : Event F) {s : Desk F X} (K : Ledger F → Prop)
    (enough : ∀ L action, K L → event.permits action → action.carries L)
    (stable : ∀ L L' action, event.permits action → Ledger.Step L action L' → K L → K L')
    (start : K s.ledger) (carries : s.ledger.Carries) : (handle venue event s).2.ledger.Carries := by
  refine (chain_invariant (fun L : Ledger F => L.Carries ∧ K L) ?_ (handle_leads venue event s) ⟨carries, start⟩).1
  rintro L L' ⟨action, permitted, step⟩ ⟨carries, kept⟩
  exact ⟨step_carries step (enough L action kept permitted) carries, stable L L' action permitted step kept⟩

/-- Other events drop and flatten nothing. -/
theorem Event.permits_carries {event : Event F} (keeps : ∀ ticker, event ≠ .removeMarketIfIdle ticker)
    (unflattened : ∀ order, event ≠ .recordFlatten order) {action : Action F} (permitted : event.permits action)
    (L : Ledger F) : action.carries L := by
  cases event with
  | removeMarketIfIdle ticker => exact (keeps ticker rfl).elim
  | recordFlatten order => exact (unflattened order rfl).elim
  | snapshot _ | trade _ | setReduceOnly _ => cases permitted
  | fill _ => rcases permitted with rfl | rfl <;> trivial
  | addMarket _ | enforceQuoteSafety => rcases permitted with rfl | ⟨_, rfl⟩ <;> trivial
  | requoteIdleMarkets => obtain ⟨_, rfl⟩ := permitted; trivial
  | cancelPreexistingOrders _ => obtain ⟨_, _, rfl⟩ := permitted; trivial
  | delta _ _ _ _ | disconnect | cancelAllQuotes | seedOrderbook _ | resetQuotes | forgetTicker _ | forgetOrder _ _
  | runPortfolioRisk | riskUpdate _ | updatePortfolio _ | setConstraint _ | halt | clearConstraint _ | resume =>
    cases permitted
    trivial

theorem handle_carries {p : Process F X} {event : Event F} (alive : p.alive = true) (keeps : p.KeepsPnl event)
    (carries : p.desk.ledger.Carries) : (handle venue event p.desk).2.ledger.Carries := by
  by_cases drops : ∃ ticker, event = .removeMarketIfIdle ticker
  · obtain ⟨ticker, rfl⟩ := drops
    cases idle : removable p.desk ticker with
    | false => simpa [handle, removeMarketIfIdle, idle] using carries
    | true =>
      refine carries_of_keeps venue _ (fun L => L.orderMgr.realizedPnl ticker = 0) ?_ ?_ (keeps alive idle) carries
      · rintro L _ even rfl
        exact even
      · rintro L L' _ rfl step even
        cases step
        exact even
  · by_cases flattens : ∃ order, event = .recordFlatten order
    · obtain ⟨order, rfl⟩ := flattens
      -- a flatten that filled nothing is not recorded
      cases positive : order.filledQuantity.isPositive with
      | false => simpa [handle, recordFlatten, positive] using carries
      | true =>
        refine carries_of_keeps venue _ (fun L => order.marketTicker ∈ L.tickers) ?_ ?_ (keeps alive positive) carries
        · rintro L _ listed rfl
          exact listed
        · rintro L L' _ rfl step listed
          cases step <;> exact listed
    · refine carries_of_keeps venue event (fun _ => True) (fun L action _ permitted => ?_) (fun _ _ _ _ _ => id)
        trivial carries
      exact Event.permits_carries (fun ticker same => drops ⟨ticker, same⟩) (fun order same => flattens ⟨order, same⟩)
        permitted L

theorem dispatch_carries {p : Process F X} {event : Event F} (keeps : p.KeepsPnl event)
    (carries : p.desk.ledger.Carries) : (p.dispatch venue event).desk.ledger.Carries := by
  rcases dispatch_cases venue p event with same | ⟨alive, done⟩ | ⟨alive, _, ended⟩
  · rw [same]
    exact carries
  · rw [done]
    exact handle_carries venue alive keeps carries
  · rw [ended]
    refine carries_of_keeps venue .cancelAllQuotes (fun _ => True) ?_ (fun _ _ _ _ _ => id) trivial
      (handle_carries venue alive keeps carries)
    rintro L _ _ rfl
    trivial

theorem dispatch_listener (p : Process F X) (event : Event F) :
    (p.dispatch venue event).desk.pnlListener = p.desk.pnlListener := by
  rcases dispatch_cases venue p event with same | ⟨_, done⟩ | ⟨_, _, ended⟩
  · rw [same]
  · rw [done]
    exact handle_listener venue event p.desk
  · obtain ⟨cancels, x, swept, _⟩ := cancelAllQuotes_run venue (handle venue event p.desk).2
    rw [ended, swept]
    exact handle_listener venue event p.desk

/-- The cancels a failed `ensure` ends with realize nothing and write nothing. -/
theorem cancelAllQuotes_totals (s : Desk F X) :
    (cancelAllQuotes venue s).2.persisted = s.persisted ∧
    (cancelAllQuotes venue s).2.orderMgr.realizedPnl = s.orderMgr.realizedPnl ∧
    (cancelAllQuotes venue s).2.session = s.session := by
  obtain ⟨cancels, x, ran, _⟩ := cancelAllQuotes_run venue s
  rw [ran]
  exact ⟨rfl, OrderManager.afterCancels_realizedPnl _ _, rfl⟩

theorem carriedTotals_congr (session : TradingSession F) {om other : OrderManager F}
    (same : om.realizedPnl = other.realizedPnl) : session.carriedTotals om = session.carriedTotals other := by
  simp only [carriedTotals, same]

/-- An event writes nothing and realizes nothing, or it writes what is realized by then. -/
theorem dispatch_totals (p : Process F X) (event : Event F) (listening : p.desk.pnlListener = true) :
    let after := (p.dispatch venue event).desk
    (after.persisted = p.desk.persisted ∧ after.orderMgr.realizedPnl = p.desk.orderMgr.realizedPnl) ∨
    after.persisted = p.desk.persisted ++ [after.session.carriedTotals after.orderMgr] := by
  intro after
  have totals : BooksTotals (handle venue event) p.desk := by
    by_cases books : event.Books
    · exact handle_totals venue books p.desk listening
    · refine .inl ⟨congrArg (fun carried => carried.2.1) (handle_carried venue books p.desk), ?_⟩
      refine chain_invariant (fun L : Ledger F => L.orderMgr.realizedPnl = p.desk.orderMgr.realizedPnl) ?_
        (handle_leads venue event p.desk) rfl
      rintro L L' ⟨action, permitted, step⟩ same
      exact (step_realizedPnl step (Event.permits_books books (.inl permitted))).trans same
  rcases dispatch_cases venue p event with same | ⟨_, done⟩ | ⟨_, _, ended⟩
  · simp only [after, same]
    exact .inl ⟨trivial, trivial⟩
  · simp only [after, done]
    exact totals
  · obtain ⟨persisted, realized, session⟩ := cancelAllQuotes_totals venue (handle venue event p.desk).2
    simp only [after, ended]
    rw [persisted, session, carriedTotals_congr _ realized, realized]
    exact totals

end

/-! ### One session after another -/

section

variable [Elementary ℚ] (venue : Venue X)

/-- The last map written, or the prior one, has all that earlier sessions and this one realized. -/
structure Process.Saved (prior : PnlMap ℚ) (p : Process ℚ X) : Prop where
  loaded : p.desk.prior = prior
  listening : p.desk.pnlListener = true
  carries : p.desk.ledger.Carries
  written : ∀ ticker, PnlMap.read (p.desk.persisted.getLast?.getD prior) ticker =
    PnlMap.read prior ticker + p.desk.orderMgr.realizedPnl ticker

theorem dispatch_saved {prior : PnlMap ℚ} {p : Process ℚ X} {event : Event ℚ} (keeps : p.KeepsPnl event)
    (saved : p.Saved prior) : (p.dispatch venue event).Saved prior := by
  have carries := dispatch_carries venue keeps saved.carries
  have kept := (dispatch_prior venue p event).trans saved.loaded
  refine ⟨kept, (dispatch_listener venue p event).trans saved.listening, carries, fun ticker => ?_⟩
  rcases dispatch_totals venue p event saved.listening with ⟨unwritten, unmoved⟩ | written
  · rw [unwritten, unmoved]
    exact saved.written ticker
  · rw [written, List.getLast?_concat, Option.getD_some, carriedTotals_read]
    rw [Desk.prior] at kept
    rw [kept]
    split
    next => rfl
    next untracked =>
      -- an untracked market has realized nothing
      have even : (p.dispatch venue event).desk.orderMgr.realizedPnl ticker = 0 := by
        by_contra nonzero
        exact untracked (carries ticker nonzero)
      rw [even]

theorem launch_saved (startup : Startup ℚ X) (file : PnlFile ℚ) : (startup.launch file).Saved (loadPnl file) where
  loaded := rfl
  listening := rfl
  carries _ nonzero := absurd (sub_self _) nonzero
  written ticker := by
    have even : (startup.launch file).desk.orderMgr.realizedPnl ticker = 0 := sub_self _
    rw [even, add_zero]
    rfl

/-- A session may write to the file only totals that a JSON number can hold, and gives no market up with a profit or
loss. -/
def Startup.Orderly (startup : Startup ℚ X) (file : PnlFile ℚ) : Prop :=
  Process.Meets venue Process.KeepsPnl (startup.launch file) startup.events ∧
  ∀ totals ∈ (startup.finish venue file).desk.persisted, totals.Finite

theorem finish_saved {startup : Startup ℚ X} {file : PnlFile ℚ} (orderly : startup.Orderly venue file)
    (ticker : Ticker) :
    PnlMap.read (loadPnl ((startup.finish venue file).pnlFile file)) ticker = PnlMap.read (loadPnl file) ticker +
      (startup.finish venue file).desk.orderMgr.realizedPnl ticker := by
  have saved : (startup.finish venue file).Saved (loadPnl file) :=
    Run.invariant_of_meets (Process.Saved (loadPnl file)) (fun _ _ keeps saved => dispatch_saved venue keeps saved)
      (launch_saved startup file) orderly.1
  have written := saved.written ticker
  unfold Process.pnlFile
  cases last : (startup.finish venue file).desk.persisted.getLast? with
  | none =>
    rw [last] at written
    exact written
  | some totals =>
    rw [last] at written
    have finite := orderly.2 totals (List.mem_of_getLast? last)
    rw [← written]
    exact congrArg (Option.getD · 0) (load_persist finite ticker)

/-- Every session is orderly on the file the sessions before it left. -/
def Orderly : PnlFile ℚ → List (Startup ℚ X) → Prop
  | _, [] => True
  | file, startup :: later =>
    startup.Orderly venue file ∧ Orderly ((startup.finish venue file).pnlFile file) later

theorem pnl_file_sums_sessions (file : PnlFile ℚ) (startups : List (Startup ℚ X))
    (orderly : Orderly venue file startups)
    (ticker : Ticker) :
    PnlMap.read (loadPnl (restarts venue file startups).2) ticker = PnlMap.read (loadPnl file) ticker +
      ((restarts venue file startups).1.map fun ended => ended.desk.orderMgr.realizedPnl ticker).sum := by
  induction startups generalizing file with
  | nil => exact (add_zero _).symm
  | cons startup later ih =>
    obtain ⟨first, rest⟩ := orderly
    rw [restarts, ih _ rest, finish_saved venue first, List.map_cons, List.sum_cons, add_assoc]

end

/-! ### Two sessions -/

def contractAt49 (trade : String) (ticker : Ticker) (side : Side) : Fill ℚ :=
  { tradeId := trade, orderId := "order", marketTicker := ticker, side, priceCents := 49, quantity := ⟨100⟩
    feeCents := 0, isTaker := false, timestamp := 0 }

def onMarkets (tickers : List Ticker) (events : List (Event ℚ)) : Startup ℚ Script where
  session := { tickers }
  config := {}
  limits := {}
  outside := {}
  flowGuard := none
  tradeTape := none
  analytics := false
  events

def firstDay : Startup ℚ Script := onMarkets ["M", "K"]
  [.fill (contractAt49 "a" "M" .yes), .removeMarketIfIdle "K", .fill (contractAt49 "b" "M" .no)]

def secondDay : Startup ℚ Script := onMarkets ["N", "M"]
  [.fill (contractAt49 "c" "M" .yes), .fill (contractAt49 "d" "M" .no), .disconnect, .fill (contractAt49 "e" "N" .yes)]

/-- Two cents on top of 100 on each of two days; an untraded market was dropped on the first. -/
theorem pnl_file_sums_sessions_two :
    let venue : Venue Script := ⟨⟨"exchange"⟩, Script.host⟩
    let file : PnlFile ℚ := .items [("M", some 100)]
    PnlMap.read (loadPnl (restarts venue file [firstDay, secondDay]).2) "M" = 104 := by
  intro venue file
  have ended := pnl_file_sums_sessions venue file [firstDay, secondDay] ?_ "M"
  · rw [ended]
    decide +kernel
  · have dropped : ((firstDay.launch file).dispatch venue
      (.fill (contractAt49 "a" "M" .yes))).desk.orderMgr.realizedPnl
        "K" = 0 := by decide +kernel
    refine ⟨⟨⟨trivial, fun _ _ => dropped, trivial, trivial⟩, ?_⟩, ⟨⟨trivial, trivial, trivial, trivial, trivial⟩, ?_⟩,
      trivial⟩
    · unfold PnlMap.Finite
      decide +kernel
    · unfold PnlMap.Finite
      decide +kernel

end Kalshi
