import KalshiMaker.App.Drift
import KalshiMaker.Properties.CarriedPnl
import KalshiMaker.Properties.FlattenCash

/-! What a shutdown closes, and what it carries over. -/
namespace Kalshi

open Effect Eff Relation Desk TradingSession OrderManager Executed

/-! ### The last booking -/

section

variable {F : Type} [Floating F]

/-- The markets that were tracked when a fill was last booked. -/
def lastBooking (calls : List (Entry F)) : List Ticker :=
  ((calls.filter fun entry => entry.call.recorded.isSome).getLast?.map Entry.tickers).getD []

omit [Floating F] in
theorem lastBooking_quiet (calls : List (Entry F)) {later : List (Entry F)}
    (quiet : ∀ entry ∈ later, entry.call.recorded = none) : lastBooking (calls ++ later) = lastBooking calls := by
  have none : later.filter (fun entry => entry.call.recorded.isSome) = [] := by
    apply List.filter_eq_nil_iff.mpr
    intro entry member
    simp [quiet entry member]
  rw [lastBooking, List.filter_append, none, List.append_nil]
  rfl

omit [Floating F] in
theorem lastBooking_booked (calls : List (Entry F)) (fill : Fill F) (tickers : List Ticker) :
    lastBooking (calls ++ [⟨.recordFill fill true, tickers⟩]) = tickers := by
  simp [lastBooking, Call.recorded]

namespace Ledger

theorem QuoteStep.unbooked {ticker : Ticker} {L L' : Ledger F} (step : QuoteStep ticker L L') :
    lastBooking L'.calls = lastBooking L.calls := by
  cases step with
  | placed _ _ _ _ _ | placeFailed _ | amended _ _ | amendFailed _ | released | forgotten _ | kept =>
    exact lastBooking_quiet _ (by simp [Call.recorded])

/-- Where no fill and no flatten is booked, the last booking stays the last. -/
theorem step_unbooked {L L' : Ledger F} {action : Action F} (step : Step L action L')
    (unfilled : ∀ fill, action ≠ .fill fill) (unflattened : ∀ fill, action ≠ .flatten fill) :
    lastBooking L'.calls = lastBooking L.calls := by
  have cancelled : ∀ cancels, lastBooking (L.afterCancels cancels).calls = lastBooking L.calls := by
    intro cancels
    apply lastBooking_quiet
    intro entry member
    obtain ⟨sent, _, rfl⟩ := List.mem_map.mp member
    rfl
  cases step with
  | quote step => exact step.unbooked
  | fill _ _ _ | refill => exact absurd rfl (unfilled _)
  | flatten _ _ | reflatten => exact absurd rfl (unflattened _)
  | sweepAll _ | sweep _ | cancel => exact cancelled _
  | raise _ | clear | resume | track _ | untrack _ _ _ | forget _ => rfl

end Ledger

end

/-! ### The file of the carried PnL -/

section

variable {X : Type} [Elementary ℚ]

/-- What is on file: the last map written, and before any the prior PnL. -/
def Desk.onFile (s : Desk ℚ X) : PnlMap ℚ := s.persisted.getLast?.getD s.prior

/-- The file holds the realized PnL of the markets that were tracked when a fill was last booked. -/
structure Desk.Filed (s : Desk ℚ X) : Prop where
  listening : s.pnlListener = true
  file : ∀ ticker, PnlMap.read s.onFile ticker =
    PnlMap.read s.prior ticker + if ticker ∈ lastBooking s.calls then s.orderMgr.realizedPnl ticker else 0

theorem Desk.Filed.quiet {s s' : Desk ℚ X} (filed : s.Filed) (carried : s'.carried = s.carried)
    (bookings : lastBooking s'.calls = lastBooking s.calls)
    (realized : s'.orderMgr.realizedPnl = s.orderMgr.realizedPnl) : s'.Filed := by
  have prior : s'.prior = s.prior := congrArg Prod.fst carried
  have persisted : s'.persisted = s.persisted := congrArg (fun carried => carried.2.1) carried
  constructor
  · exact (congrArg (fun carried => carried.2.2) carried).trans filed.listening
  · intro ticker
    rw [Desk.onFile, prior, persisted, bookings, realized]
    exact filed.file ticker

/-- The totals written after a booking are those of the markets tracked then. -/
theorem reportFill_filed (fill : Fill ℚ) {s : Desk ℚ X} (listening : s.pnlListener = true)
    (booked : lastBooking s.calls = s.session.tickers) :
    (reportFill fill s).1 = .ok () ∧ (reportFill fill s).2.Filed := by
  obtain ⟨emitted, reported⟩ := reportFill_run fill s
  have written : (reportFill fill s).2.persisted = s.persisted ++ [s.session.carriedTotals s.orderMgr] := by
    unfold reportFill
    simp only [bind_apply, get_apply, andThen_ok, Desk.emit, listening, ↓reduceIte]
    cases s.analytics <;> simp [Desk.persisted]
  rw [reported] at written ⊢
  refine ⟨rfl, listening, fun ticker => ?_⟩
  dsimp only at written ⊢
  rw [Desk.onFile, written, List.getLast?_append]
  exact (carriedTotals_read s.session s.orderMgr ticker).trans (by rw [booked]; rfl)

/-- The desk once a new fill is booked. -/
def Desk.booking (s : Desk ℚ X) (fill : Fill ℚ) : Desk ℚ X :=
  (s.called (.recordFill fill true) s.outside).withOrders (s.orderMgr.bookFill fill)

theorem recordFill_fresh {fill : Fill ℚ} {s : Desk ℚ X} (valid : checkFill fill = .ok ())
    (fresh : fillKey fill ∉ s.orderMgr.seenFills) : recordFill fill s = (.ok true, s.booking fill) := by
  rcases recordFill_cases fill s with ⟨what, _, invalid⟩ | ⟨ran, _⟩
  · exact absurd valid invalid
  · have new : s.orderMgr.recorded fill = (true, s.orderMgr.bookFill fill) := if_neg fresh
    rw [ran, new]
    rfl

theorem settleFill_report (fill : Fill ℚ) (s : Desk ℚ X) :
    ∃ quoter riskMgr flowGuard, settleFill fill s = reportFill fill { s with quoter, riskMgr, flowGuard } := by
  unfold settleFill
  simp only [bind_apply, get_apply, andThen_ok]
  cases s.orderMgr.openOrders.lookup fill.orderId with
  | none => exact ⟨_, _, _, rfl⟩
  | some order => exact ⟨_, _, _, rfl⟩

theorem onFill_filed (fill : Fill ℚ) {s : Desk ℚ X} (filed : s.Filed) : (onFill fill s).2.Filed := by
  have booked : ∀ s₁ : Desk ℚ X, s₁.Filed → ((do
      if ← recordFill fill then do
        settleFill fill
        pure true
      else pure false : Eff (Desk ℚ X) String Bool) s₁).2.Filed := by
    intro s₁ same
    rw [bind_apply]
    rcases recordFill_cases fill s₁ with ⟨what, aborted, _⟩ | ⟨ran, valid⟩
    · rw [aborted]
      exact same
    -- a fill that was booked before is not booked again, and the last report stands
    · by_cases known : fillKey fill ∈ s₁.orderMgr.seenFills
      · have old : s₁.orderMgr.recorded fill = (false, s₁.orderMgr) := if_pos known
        rw [ran, old]
        exact same.quiet rfl (lastBooking_quiet _ (by simp [Call.recorded])) rfl
      · rw [recordFill_fresh valid known, andThen_ok, if_pos rfl, bind_apply]
        obtain ⟨quoter, riskMgr, flowGuard, settled⟩ := settleFill_report fill (s₁.booking fill)
        obtain ⟨finished, written⟩ := reportFill_filed fill
          (s := ({ s₁.booking fill with quoter, riskMgr, flowGuard } : Desk ℚ X)) same.listening
          (lastBooking_booked _ _ _)
        rw [settled, andThen_pure_state]
        exact written
  unfold onFill
  simp only [bind_apply, modify_apply, get_apply, andThen_ok]
  split
  · exact booked _ (filed.quiet rfl rfl rfl)
  · exact filed.quiet rfl rfl rfl

theorem handle_filed (venue : Venue X) {event : Event ℚ} (fills : ∀ fill, event ≠ .fill fill)
    (flattens : ∀ order, event ≠ .recordFlatten order) {s : Desk ℚ X} (filed : s.Filed) :
    (handle venue event s).2.Filed := by
  have quiet : ¬ event.Books := by
    intro books
    cases event with
    | fill fill => exact fills fill rfl
    | recordFlatten order => exact flattens order rfl
    | _ => exact books.elim
  have kept : lastBooking (handle venue event s).2.ledger.calls = lastBooking s.calls ∧
      (handle venue event s).2.ledger.orderMgr.realizedPnl = s.orderMgr.realizedPnl := by
    -- no other step of an event books anything
    refine chain_invariant (fun L => lastBooking L.calls = lastBooking s.calls ∧
      L.orderMgr.realizedPnl = s.orderMgr.realizedPnl) ?_ (handle_leads venue event s) ⟨rfl, rfl⟩
    rintro L L' ⟨action, permitted, step⟩ ⟨bookings, realized⟩
    have unfilled : ∀ fill, action ≠ .fill fill := by
      rintro fill rfl
      exact fills fill (Event.permits_fill permitted)
    have unflattened : ∀ fill, action ≠ .flatten fill := by
      rintro fill rfl
      obtain ⟨order, flattened⟩ := Event.permits_flatten permitted
      exact flattens order flattened
    obtain ⟨openOrders, books⟩ := Ledger.step_books step unfilled unflattened
    refine ⟨(Ledger.step_unbooked step unfilled unflattened).trans bookings, ?_⟩
    rw [books]
    exact realized
  exact filed.quiet (handle_carried venue quiet s) kept.1 kept.2

/-! ### The books of a session -/

/-- The cash a fill brings in once the position is closed. -/
def Fill.cash (fill : Fill ℚ) : ℚ := fill.quantity.contracts * yesCash fill.side fill.priceCents - fill.feeCents

def Executed.cash (execution : Executed ℚ) : ℚ := execution.record.cash

theorem Fill.cash_terms {fill other : Fill ℚ} (same : fill.terms = other.terms) : fill.cash = other.cash := by
  have side : fill.side = other.side := congrArg (fun terms => terms.2.2.1) same
  have price : fill.priceCents = other.priceCents := congrArg (fun terms => terms.2.2.2.1) same
  have quantity : fill.quantity = other.quantity := congrArg (fun terms => terms.2.2.2.2.1) same
  have fee : fill.feeCents = other.feeCents := congrArg (fun terms => terms.2.2.2.2.2) same
  rw [Fill.cash, side, price, quantity, fee, Fill.cash]

/-- The books come from fills with the cash of the executions booked. -/
structure Ledger.Sourced (L : Ledger ℚ) (executions : List (Executed ℚ)) : Prop where
  booked : L.Booked executions
  source : ∃ fills, L.orderMgr.Netted fills ∧ (∀ fill ∈ fills, 0 < fill.quantity.centi) ∧
    ∀ ticker, ((fillsOn fills ticker).map Fill.cash).sum =
      tally Executed.cash (among L.orderMgr.seenFills executions) ticker

namespace Ledger

variable {L L' : Ledger ℚ} {executions : List (Executed ℚ)}

omit [Elementary ℚ] in
theorem fillsOn_append_sum {M : Type} [AddCommMonoid M] (fills more : List (Fill ℚ)) (worth : Fill ℚ → M)
    (ticker : Ticker) : ((fillsOn (fills ++ more) ticker).map worth).sum =
      ((fillsOn fills ticker).map worth).sum +
        (more.map fun fill => if fill.marketTicker = ticker then worth fill else 0).sum := by
  induction more using List.reverseRecOn with
  | nil => simp
  | append_singleton more fill ih =>
    rw [← List.append_assoc]
    unfold fillsOn at ih ⊢
    rw [List.filter_append, List.map_append, List.sum_append, ih, List.map_append, List.sum_append, add_assoc]
    by_cases here : fill.marketTicker = ticker <;> simp [here]

theorem Sourced.of_books (sourced : L.Sourced executions) {openOrders : OrderMap}
    (books : L'.orderMgr = { L.orderMgr with openOrders })
    (kept : ∀ ticker ∈ L.tickers, ticker ∈ L'.tickers ∨ (L.orderMgr.netPosition ticker).centi = 0) :
    L'.Sourced executions := by
  obtain ⟨fills, netted, positive, cash⟩ := sourced.source
  refine ⟨sourced.booked.of_books books kept, fills, ?_, positive, ?_⟩
  · rw [books]
    exact ⟨netted.lots, netted.spread, netted.position, netted.fees, netted.seen⟩
  · rw [books]
    exact cash

theorem Sourced.step (sourced : L.Sourced executions) {action : Action ℚ} (step : Step L action L')
    (unfilled : ∀ fill, action ≠ .fill fill) (unflattened : ∀ fill, action ≠ .flatten fill) :
    L'.Sourced executions := by
  obtain ⟨openOrders, books⟩ := step_books step unfilled unflattened
  exact sourced.of_books books (step_flat step)

/-- Executions that the session has not heard of leave its books as they are. -/
theorem Sourced.later (sourced : L.Sourced executions) {later : List (Executed ℚ)}
    (distinct : ((executions ++ later).map Executed.key).Nodup) : L.Sourced (executions ++ later) := by
  obtain ⟨fills, netted, positive, cash⟩ := sourced.source
  have unseen : among L.orderMgr.seenFills later = [] := by
    apply List.filter_eq_nil_iff.mpr
    intro execution member seen
    rw [List.map_append] at distinct
    have before := sourced.booked.known _ (of_decide_eq_true seen)
    exact (List.nodup_append.mp distinct).2.2 _ before _ (List.mem_map_of_mem member) rfl
  have same : among L.orderMgr.seenFills (executions ++ later) = among L.orderMgr.seenFills executions := by
    unfold among at unseen ⊢
    rw [List.filter_append, unseen, List.append_nil]
  refine ⟨sourced.booked.later distinct, fills, netted, positive, ?_⟩
  rw [same]
  exact cash

theorem Sourced.recorded (sourced : L.Sourced executions) {execution : Executed ℚ} (member : execution ∈ executions)
    {fill : Fill ℚ} (sameKey : fillKey fill = execution.key) (sameTerms : fill.terms = execution.record.terms)
    (valid : checkFill fill = .ok ()) (fresh : fillKey fill ∉ L.orderMgr.seenFills)
    (tracked : fill.marketTicker ∈ L.tickers) (sameTickers : L'.tickers = L.tickers)
    (sameOrders : L'.orderMgr = L.orderMgr.bookFill fill) : L'.Sourced executions := by
  obtain ⟨fills, netted, positive, cash⟩ := sourced.source
  have market : fill.marketTicker = execution.ticker := congrArg Prod.fst sameTerms
  have worth : fill.cash = execution.cash := Fill.cash_terms sameTerms
  have present : 0 < fill.quantity.centi := positive_of_checkFill valid
  refine ⟨sourced.booked.recorded member sameKey sameTerms valid fresh tracked sameTickers sameOrders,
    fills ++ [fill], ?_, ?_, fun ticker => ?_⟩
  · rw [sameOrders]
    exact netted.bookFill positive present
  · intro other among
    rcases List.mem_append.mp among with before | last
    · exact positive other before
    · rw [List.mem_singleton.mp last]
      exact present
  · rw [fillsOn_append_sum, List.map_singleton, List.sum_singleton, cash, sameOrders, bookFill_seenFills, sameKey,
      market, worth]
    exact (tally_among_cons Executed.cash sourced.booked.distinct member (sameKey ▸ fresh) ticker).symm

end Ledger

theorem onFill_sourced {executions : List (Executed ℚ)} {execution : Executed ℚ} {fill : Fill ℚ} {s : Desk ℚ X}
    (sourced : s.ledger.Sourced executions) (member : execution ∈ executions) (sameKey : fillKey fill = execution.key)
    (sameTerms : fill.terms = execution.record.terms) : (onFill fill s).2.ledger.Sourced executions := by
  rcases onFill_cases fill s with ⟨same, _⟩ | ⟨refilled, _⟩ | ⟨_, valid, tracked, fresh, filled⟩
  · rw [same]
    exact sourced
  · refine ⟨onFill_booked sourced.booked member sameKey sameTerms, ?_⟩
    rw [refilled]
    exact sourced.source
  · apply sourced.recorded member sameKey sameTerms valid fresh tracked
    · rw [filled]
      exact Ledger.forgetFilled_tickers _ _ _
    · rw [filled]
      exact Ledger.forgetFilled_orderMgr _ _ _

/-! ### A session up to its shutdown -/

/-- A desk before its first event, with the totals written after each fill. -/
structure Desk.Opening (s : Desk ℚ X) : Prop where
  orders : s.orderMgr = .empty
  calls : s.calls = []
  emitted : s.emitted = []
  listening : s.pnlListener = true

theorem Desk.Opening.sourced {s : Desk ℚ X} (opening : s.Opening) : s.ledger.Sourced [] := by
  have orders : s.ledger.orderMgr = .empty := opening.orders
  refine ⟨Ledger.Booked.initial orders, [], ?_, fun fill member => absurd member List.not_mem_nil, fun ticker => rfl⟩
  rw [orders]
  exact empty_netted

theorem Desk.Opening.filed {s : Desk ℚ X} (opening : s.Opening) : s.Filed := by
  refine ⟨opening.listening, fun ticker => ?_⟩
  have unwritten : s.persisted = [] := by simp [Desk.persisted, opening.emitted]
  rw [Desk.onFile, unwritten, opening.calls]
  exact (add_zero _).symm

theorem AccountTurn.kept {venue : Venue X} {before after : List (Executed ℚ) × Live ℚ X}
    (turn : AccountTurn venue before after)
    (kept : before.2.desk.ledger.Sourced before.1 ∧ before.2.desk.Filed) :
    after.2.desk.ledger.Sourced after.1 ∧ after.2.desk.Filed := by
  obtain ⟨sourced, filed⟩ := kept
  -- fills are booked by the announcement or by the replay; every other turn books none
  cases turn with
  | executed execution new => exact ⟨sourced.later (sourced.booked.executed new).distinct, filed⟩
  | announced execution among =>
    dsimp only
    rw [Live.onFill_desk]
    exact ⟨onFill_sourced sourced among execution.sameKey.symm execution.sameTerms.symm, onFill_filed _ filed⟩
  | @replayed executions live execution among =>
    by_cases tracked : execution.record.marketTicker ∈ live.desk.session.tickers
    · have sourced' := onFill_sourced sourced among rfl rfl
      have filed' := onFill_filed execution.record filed
      cases ran : TradingSession.onFill execution.record live.desk with
      | mk result desk =>
        rw [ran] at sourced' filed'
        cases result with
        | ok new =>
          rw [Live.replayFills_ok tracked ran]
          exact ⟨sourced', filed'⟩
        | error stop =>
          rw [Live.replayFills_error tracked ran]
          exact ⟨sourced', filed'⟩
    · rw [Live.replayFills_untracked tracked]
      exact ⟨sourced, filed⟩
  | @event executions live event fills flattens =>
    refine ⟨?_, handle_filed venue fills flattens filed⟩
    refine chain_invariant (fun L => L.Sourced executions) ?_ (handle_leads venue event live.desk) sourced
    rintro L L' ⟨action, permitted, step⟩ sourced
    apply sourced.step step
    · rintro fill rfl
      exact fills fill (Event.permits_fill permitted)
    · rintro fill rfl
      obtain ⟨order, flattened⟩ := Event.permits_flatten permitted
      exact flattens order flattened

/-- However a session went, its books are those of the executions booked, and the file follows them. -/
theorem AccountTurn.run_kept {venue : Venue X} {start live : Live ℚ X} {executions : List (Executed ℚ)}
    (opening : start.desk.Opening) (run : ReflTransGen (AccountTurn venue) ([], start) (executions, live)) :
    live.desk.ledger.Sourced executions ∧ live.desk.Filed :=
  chain_invariant (fun state : List (Executed ℚ) × Live ℚ X =>
    state.2.desk.ledger.Sourced state.1 ∧ state.2.desk.Filed)
    (fun _ _ turn => turn.kept) run ⟨opening.sourced, opening.filed⟩

/-! ### The closing flattens -/

/-- A flatten of the shutdown, which fills completely. -/
structure Closing extends Flattening where
  ticker : Ticker
  complete : filled = position.abs

namespace Closing

def listed (c : Closing) : MarketPosition := ⟨c.ticker, c.position⟩

/-- What it adds to the position, in centi-contracts. -/
def signed (c : Closing) : Int := c.side.toward c.filled.centi

def booked (c : Closing) : Fill ℚ := c.toFlattening.fill c.ticker

/-- What closings add to the position on a market. -/
def units (closings : List Closing) (ticker : Ticker) : Int :=
  (closings.map fun c => if c.ticker = ticker then c.signed else 0).sum

/-- What they bring in there. -/
def cash (closings : List Closing) (ticker : Ticker) : ℚ :=
  (closings.map fun c => if c.ticker = ticker then c.booked.cash else 0).sum

omit [Elementary ℚ] in
theorem signed_eq (c : Closing) : c.signed = -c.position.centi := by
  have opened := c.held
  unfold signed Flattening.side RestClient.closeSide
  rw [c.complete, Quantity.abs]
  by_cases bought : 0 < c.position.centi
  · have long : c.position.isPositive = true := (Quantity.isPositive_iff _).mpr bought
    simp [long, Side.toward]
  · have short : c.position.isPositive = false := Bool.eq_false_iff.mpr fun long =>
      bought ((Quantity.isPositive_iff _).mp long)
    have nonzero : c.position.isZero = false := Bool.eq_false_iff.mpr fun zero =>
      opened ((Quantity.isZero_iff _).mp zero)
    simp [short, nonzero, Side.toward]

end Closing

/-- The exchange fills the closing flattens in turn. -/
def Settles (venue : Venue X) : List Closing → X → Prop
  | [], _ => True
  | c :: closings, x =>
    (venue.host.post venue.rest.ordersUrl (RestClient.flattenBody c.ticker c.position) x).1 = .ok c.response ∧
      Settles venue closings (venue.host.post venue.rest.ordersUrl (RestClient.flattenBody c.ticker c.position) x).2

/-- A desk after some closings: their fills are booked, and on file. -/
structure Closed (s s' : Desk ℚ X) (closings : List Closing) : Prop where
  session : s'.session = s.session
  filed : s'.Filed
  bookings : lastBooking s'.calls = if closings = [] then lastBooking s.calls else s.session.tickers
  netted : ∀ fills, s.orderMgr.Netted fills → (∀ fill ∈ fills, 0 < fill.quantity.centi) →
    s'.orderMgr.Netted (fills ++ closings.map Closing.booked)

section

variable {venue : Venue X}

theorem flattenPosition_aborts {c : Closing} {s : Desk ℚ X}
    (answered : (venue.host.post venue.rest.ordersUrl (RestClient.flattenBody c.ticker c.position) s.outside).1 =
      .ok c.response) (rounds : c.RoundsToDollar) :
    ∃ what, (flattenPosition venue c.ticker c.position s).1 = .error (.abort what) := by
  rcases flattenPosition_run answered with ⟨_, aborted⟩ | ⟨valid, _⟩
  · exact aborted
  · exact absurd rounds ((c.checkFill_iff c.ticker).mp valid)

/-- One closing flatten: its fill is booked, and the totals are written. -/
theorem flattenPosition_closed {c : Closing} {s : Desk ℚ X} (filed : s.Filed)
    (answered : (venue.host.post venue.rest.ordersUrl (RestClient.flattenBody c.ticker c.position) s.outside).1 =
      .ok c.response) (whole : ¬ c.RoundsToDollar) (fresh : fillKey c.booked ∉ s.orderMgr.seenFills) :
    ∃ s', flattenPosition venue c.ticker c.position s = (.ok (), s') ∧ Closed s s' [c] ∧
      s'.orderMgr.seenFills = fillKey c.booked :: s.orderMgr.seenFills ∧
      s'.outside =
        (venue.host.post venue.rest.ordersUrl (RestClient.flattenBody c.ticker c.position) s.outside).2 := by
  have positive : (c.order c.ticker).filledQuantity.isPositive = true := (Quantity.isPositive_iff _).mpr c.executed
  have valid : checkFill c.booked = .ok () := (c.checkFill_iff c.ticker).mpr whole
  -- the order is answered as filled, so it is booked and reported within the call
  generalize moved : (venue.host.post venue.rest.ordersUrl
    (RestClient.flattenBody c.ticker c.position) s.outside).2 = x
  have ran : flattenPosition venue c.ticker c.position s =
      reportFill c.booked (({ s with outside := x } : Desk ℚ X).booking c.booked) := by
    unfold flattenPosition
    rw [bind_apply, onPart_apply, c.flatten_answered answered, moved, andThen_ok]
    unfold recordFlatten
    rw [if_pos positive, bind_apply]
    change andThen _ (recordFill c.booked ({ s with outside := x } : Desk ℚ X)) = _
    rw [recordFill_fresh (s := ({ s with outside := x } : Desk ℚ X)) valid fresh, andThen_ok]
    rfl
  obtain ⟨emitted, reported⟩ := reportFill_run c.booked (({ s with outside := x } : Desk ℚ X).booking c.booked)
  obtain ⟨_, written⟩ := reportFill_filed c.booked
    (s := ({ s with outside := x } : Desk ℚ X).booking c.booked) filed.listening (lastBooking_booked _ _ _)
  rw [reported] at written
  refine ⟨_, ran.trans reported, ⟨rfl, written, ?_, ?_⟩, rfl, rfl⟩
  · rw [if_neg (List.cons_ne_nil _ _)]
    exact lastBooking_booked _ _ _
  · intro fills netted positive
    exact netted.bookFill positive (positive_of_checkFill valid)

theorem flattenEach_closings {closings : List Closing} {s : Desk ℚ X} (filed : s.Filed)
    (settles : Settles venue closings s.outside)
    (distinct : (closings.map fun c => fillKey c.booked).Nodup)
    (fresh : ∀ c ∈ closings, fillKey c.booked ∉ s.orderMgr.seenFills) :
    ((∃ c ∈ closings, c.RoundsToDollar) ∧
      ∃ what, (flattenEach venue (closings.map Closing.listed) s).1 = .error (.abort what)) ∨
    (∀ c ∈ closings, ¬ c.RoundsToDollar) ∧
      ∃ s', flattenEach venue (closings.map Closing.listed) s = (.ok (), s') ∧ Closed s s' closings := by
  induction closings generalizing s with
  | nil =>
    refine .inr ⟨fun c member => absurd member List.not_mem_nil, s, rfl, rfl, filed, rfl, fun fills netted _ => ?_⟩
    rw [List.map_nil, List.append_nil]
    exact netted
  | cons c closings ih =>
    rw [List.map_cons, List.nodup_cons] at distinct
    unfold flattenEach at ih ⊢
    rw [List.map_cons, forEach_cons, tryCatch_apply]
    -- a closing order whose price rounds to a dollar aborts, and those after it are not sent
    by_cases rounds : c.RoundsToDollar
    · left
      obtain ⟨what, aborted⟩ := flattenPosition_aborts settles.1 rounds
      refine ⟨⟨c, List.mem_cons_self .., rounds⟩, what, ?_⟩
      change (andThen _ (handleWith _ (flattenPosition venue c.ticker c.position s))).1 = _
      cases ran : flattenPosition venue c.ticker c.position s with
      | mk result after =>
        rw [ran] at aborted
        cases aborted
        rfl
    · obtain ⟨s₁, ran, first, seen, moved⟩ :=
        flattenPosition_closed filed settles.1 rounds (fresh c (List.mem_cons_self ..))
      change (_ ∧ ∃ what, (andThen _ (handleWith _ (flattenPosition venue c.ticker c.position s))).1 = _) ∨
        _ ∧ ∃ s', andThen _ (handleWith _ (flattenPosition venue c.ticker c.position s)) = _ ∧ _
      rw [ran, handleWith_ok, andThen_ok]
      -- the keys are distinct, so the next closings are still new
      have later : ∀ other ∈ closings, fillKey other.booked ∉ s₁.orderMgr.seenFills := by
        intro other member
        rw [seen, List.mem_cons, not_or]
        refine ⟨fun same => distinct.1 ?_, fresh other (List.mem_cons_of_mem _ member)⟩
        exact List.mem_map.mpr ⟨other, member, same⟩
      rcases ih first.filed (moved ▸ settles.2) distinct.2 later with
        ⟨⟨other, member, dollar⟩, stopped⟩ | ⟨kept, s', ended, rest⟩
      · exact .inl ⟨⟨other, List.mem_cons_of_mem _ member, dollar⟩, stopped⟩
      · refine .inr ⟨?_, s', ended, rest.session.trans first.session, rest.filed, ?_, fun fills netted positive => ?_⟩
        · intro other member
          rcases List.mem_cons.mp member with rfl | later
          · exact rounds
          · exact kept other later
        · rw [rest.bookings, first.session, if_neg (List.cons_ne_nil _ _), first.bookings,
            if_neg (List.cons_ne_nil _ _), ite_self]
        · have both := rest.netted _ (first.netted fills netted positive) ?_
          · rw [List.append_assoc] at both
            exact both
          · intro fill member
            rcases List.mem_append.mp member with before | last
            · exact positive fill before
            · obtain ⟨other, among, rfl⟩ := List.mem_map.mp last
              exact other.executed

/-! ### The guard -/

/-- The desk when the guard reads the positions: its cancels are sent. -/
def Desk.swept (s : Desk ℚ X) (venue : Venue X) (account : Account ℚ X) (accountWide : Bool) : Desk ℚ X :=
  (cancelSweep venue account accountWide kShutdownAttempts (cancelAllQuotes venue s).2).2

theorem swept_run (venue : Venue X) (account : Account ℚ X) (accountWide : Bool) (s : Desk ℚ X) :
    (shutdownGuard venue account false accountWide s =
      closePositions venue account accountWide (s.swept venue account accountWide)) ∧
    ∃ cancels x quoter, s.swept venue account accountWide = { s.afterCancels cancels x with quoter } := by
  obtain ⟨cancels, x, cleared, _⟩ := cancelAllQuotes_run venue s
  obtain ⟨more, y, swept⟩ := cancelSweep_run venue account accountWide kShutdownAttempts
    ({ s.afterCancels cancels x with quoter := s.quoter.resetQuotes } : Desk ℚ X)
  unfold Desk.swept shutdownGuard
  rw [bind_apply, cleared, andThen_ok, if_neg Bool.false_ne_true, bind_apply, swept]
  refine ⟨rfl, cancels ++ more, y, s.quoter.resetQuotes, ?_⟩
  rw [← Desk.afterCancels_append s cancels more x y]
  rfl

/-- How the exchange answers a shutdown: the positions read are those the executions have come to, each market listed
once, and the ones to close are closed in turn, under order ids that no execution has. -/
structure Closes (venue : Venue X) (account : Account ℚ X) (accountWide : Bool) (swept : Desk ℚ X)
    (executions : List (Executed ℚ)) (positions : List MarketPosition) (closings : List Closing) : Prop where
  read : (account.getPositions swept.outside).1 = .ok positions
  once : (positions.map MarketPosition.ticker).Nodup
  told : ∀ ticker ∈ swept.session.tickers, (positionIn positions ticker).centi = net executions ticker
  listed : closings.map Closing.listed =
    positions.filter (toClose (if accountWide then none else some swept.session.tickers))
  settles : Settles venue closings (account.getPositions swept.outside).2
  distinct : (executions.map Executed.key ++ closings.map fun c => fillKey c.booked).Nodup

theorem closePositions_run {account : Account ℚ X} {accountWide : Bool} {s : Desk ℚ X}
    {executions : List (Executed ℚ)} {positions : List MarketPosition} {closings : List Closing}
    (closes : Closes venue account accountWide s executions positions closings) (filed : s.Filed)
    (booked : s.ledger.Booked executions) :
    ((∃ c ∈ closings, c.RoundsToDollar) ∧
      ∃ what, (closePositions venue account accountWide s).1 = .error (.abort what)) ∨
    (∀ c ∈ closings, ¬ c.RoundsToDollar) ∧
      ∃ s', closePositions venue account accountWide s = (.ok (), s') ∧ Closed s s' closings := by
  have apart := List.nodup_append.mp closes.distinct
  have fresh : ∀ c ∈ closings, fillKey c.booked ∉ s.orderMgr.seenFills := by
    intro c member seen
    exact apart.2.2 _ (booked.known _ seen) _ (List.mem_map.mpr ⟨c, member, rfl⟩) rfl
  have walk := flattenEach_closings (s := ({ s with outside := (account.getPositions s.outside).2 } : Desk ℚ X))
    (filed.quiet rfl rfl rfl) closes.settles apart.2.1 fresh
  have ran : closePositions venue account accountWide s = handleWith (fun _ => pure ())
      (flattenEach venue (closings.map Closing.listed)
        ({ s with outside := (account.getPositions s.outside).2 } : Desk ℚ X)) := by
    unfold closePositions flattenAllPositions
    rw [bind_apply, get_apply, andThen_ok, tryCatch_apply, bind_apply, ask_ok closes.read, andThen_ok, ← closes.listed]
  rw [ran]
  rcases walk with ⟨dollar, what, aborted⟩ | ⟨whole, s', ended, closed⟩
  · refine .inl ⟨dollar, what, ?_⟩
    -- what aborts the walk aborts it past the handler, which catches errors of the exchange alone
    cases flattened : flattenEach venue (closings.map Closing.listed)
        ({ s with outside := (account.getPositions s.outside).2 } : Desk ℚ X) with
    | mk result after =>
      rw [flattened] at aborted
      cases aborted
      rfl
  · refine .inr ⟨whole, s', by rw [ended, handleWith_ok], ?_⟩
    exact ⟨closed.session, closed.filed, closed.bookings, closed.netted⟩

end

/-! ### What a shutdown loses -/

/-- Where the exchange stands on a market once the closings are filled. -/
def heldAfter (executions : List (Executed ℚ)) (closings : List Closing) (ticker : Ticker) : Int :=
  net executions ticker + Closing.units closings ticker

omit [Elementary ℚ] in
theorem positionIn_cons (position : MarketPosition) {positions : List MarketPosition}
    (once : ((position :: positions).map MarketPosition.ticker).Nodup) (ticker : Ticker) :
    positionIn (position :: positions) ticker =
      if position.ticker = ticker then position.position else positionIn positions ticker := by
  unfold positionIn
  split
  next here =>
    subst here
    rw [List.map_cons, List.nodup_cons] at once
    have none : positions.filter (fun other => other.ticker == position.ticker) = [] := by
      apply List.filter_eq_nil_iff.mpr
      intro other member same
      exact once.1 (List.mem_map.mpr ⟨other, member, beq_iff_eq.mp same⟩)
    have own : (position.ticker == position.ticker) = true := beq_self_eq_true _
    rw [List.filter_cons, if_pos own, none]
    rfl
  next other => rw [List.filter_cons_of_neg (by simpa using other)]

omit [Elementary ℚ] in
/-- The positions to close take off a market what is held there. -/
theorem closed_units {positions : List MarketPosition} (once : (positions.map MarketPosition.ticker).Nodup)
    {onlyTickers : Option (List Ticker)} {ticker : Ticker}
    (due : onlyTickers.all (fun tickers => decide (ticker ∈ tickers)) = true) :
    ((positions.filter (toClose onlyTickers)).map fun position =>
      if position.ticker = ticker then -position.position.centi else 0).sum =
        -(positionIn positions ticker).centi := by
  induction positions with
  | nil => rfl
  | cons position positions ih =>
    rw [positionIn_cons position once]
    rw [List.map_cons, List.nodup_cons] at once
    have rest := ih once.2
    by_cases here : position.ticker = ticker
    · subst here
      -- a market is listed once, so nothing more is held of it
      have none : (positionIn positions position.ticker).centi = 0 := by
        by_contra nonzero
        obtain ⟨other, member, same, _⟩ := positionIn_nonzero nonzero
        exact once.1 (List.mem_map.mpr ⟨other, member, same⟩)
      rw [none] at rest
      rw [if_pos rfl]
      by_cases zero : position.position.isZero = true
      · rw [List.filter_cons_of_neg (by simp [toClose, zero]), rest, (Quantity.isZero_iff _).mp zero]
      · have closing : toClose onlyTickers position = true := by simp [toClose, zero, due]
        rw [List.filter_cons_of_pos closing, List.map_cons, List.sum_cons, rest, if_pos rfl, neg_zero, add_zero]
    · rw [if_neg here, ← rest]
      by_cases closing : toClose onlyTickers position = true
      · rw [List.filter_cons_of_pos closing, List.map_cons, List.sum_cons, if_neg here, zero_add]
      · rw [List.filter_cons_of_neg closing]

/-- The exchange ends flat on the markets of the session. -/
theorem Closes.flat {venue : Venue X} {account : Account ℚ X} {accountWide : Bool} {s : Desk ℚ X}
    {executions : List (Executed ℚ)} {positions : List MarketPosition} {closings : List Closing}
    (closes : Closes venue account accountWide s executions positions closings) {ticker : Ticker}
    (tracked : ticker ∈ s.session.tickers) : heldAfter executions closings ticker = 0 := by
  have due : (if accountWide = true then none else some s.session.tickers : Option (List Ticker)).all
      (fun tickers => decide (ticker ∈ tickers)) = true := by
    cases accountWide with
    | true => rfl
    | false => simpa using tracked
  have taken := closed_units closes.once due
  rw [← closes.listed, List.map_map, closes.told ticker tracked] at taken
  have same : Closing.units closings ticker = -net executions ticker := by
    rw [← taken]
    unfold Closing.units
    congr 1
    apply List.map_congr_left
    intro c _
    rw [c.signed_eq]
    rfl
  rw [heldAfter, same]
  omega

/-- What the file leaves out on a market: where it was tracked at the last booking, the executions that the session
missed, and otherwise all that was executed. -/
def leftOut (tracked : List Ticker) (keys : List String) (executions : List (Executed ℚ)) (closings : List Closing)
    (ticker : Ticker) : ℚ :=
  if ticker ∈ tracked then tally Executed.cash (missed keys executions) ticker
  else tally Executed.cash executions ticker + Closing.cash closings ticker

/-- The guard comes to its end with every market of the session flat, here as at the exchange, and with the PnL of
every execution on file, for each market that ends flat at the exchange. -/
structure NothingLost (executions : List (Executed ℚ)) (closings : List Closing)
    (after : Except (Stop String) Unit × Desk ℚ X) : Prop where
  finished : after.1 = .ok ()
  flat : ∀ ticker ∈ after.2.session.tickers,
    (after.2.orderMgr.netPosition ticker).centi = 0 ∧ heldAfter executions closings ticker = 0
  carried : ∀ ticker, heldAfter executions closings ticker = 0 → PnlMap.read after.2.onFile ticker =
    PnlMap.read after.2.prior ticker + (tally Executed.cash executions ticker + Closing.cash closings ticker)

/-- The books after the closings, market by market. -/
structure Settled (s s' : Desk ℚ X) (executions : List (Executed ℚ)) (closings : List Closing) : Prop where
  position : ∀ ticker, (s'.orderMgr.netPosition ticker).centi =
    heldAfter executions closings ticker - net (missed s.orderMgr.seenFills executions) ticker
  realized : ∀ ticker, (s'.orderMgr.netPosition ticker).centi = 0 → s'.orderMgr.realizedPnl ticker =
    tally Executed.cash executions ticker + Closing.cash closings ticker -
      tally Executed.cash (missed s.orderMgr.seenFills executions) ticker

theorem Closed.settled {s s' : Desk ℚ X} {executions : List (Executed ℚ)} {closings : List Closing}
    (closed : Closed s s' closings) (sourced : s.ledger.Sourced executions) : Settled s s' executions closings := by
  obtain ⟨fills, netted, positive, cash⟩ := sourced.source
  have after := closed.netted fills netted positive
  have allPositive : ∀ fill ∈ fills ++ closings.map Closing.booked, 0 < fill.quantity.centi := by
    intro fill member
    rcases List.mem_append.mp member with before | last
    · exact positive fill before
    · obtain ⟨c, among, rfl⟩ := List.mem_map.mp last
      exact c.executed
  have units : ∀ ticker, ((closings.map Closing.booked).map fun fill =>
      if fill.marketTicker = ticker then fill.side.toward fill.quantity.centi else 0).sum =
        Closing.units closings ticker := by
    intro ticker
    rw [List.map_map]
    rfl
  have earned : ∀ ticker, ((closings.map Closing.booked).map fun fill =>
      if fill.marketTicker = ticker then fill.cash else 0).sum = Closing.cash closings ticker := by
    intro ticker
    rw [List.map_map]
    rfl
  -- the books had what arrived before; the closings come on top
  have booked : ∀ ticker, (s'.orderMgr.netPosition ticker).centi =
      net (among s.orderMgr.seenFills executions) ticker + Closing.units closings ticker := by
    intro ticker
    rw [after.position, total_arrivals_sub, Ledger.fillsOn_append_sum, units, ← total_arrivals_sub, ← netted.position]
    exact congrArg (· + Closing.units closings ticker) (sourced.booked.counted ticker)
  constructor
  · intro ticker
    have parts : net executions ticker = net (among s.orderMgr.seenFills executions) ticker +
        net (missed s.orderMgr.seenFills executions) ticker := tally_among Executed.signed _ _ _
    rw [booked, heldAfter, parts]
    omega
  · intro ticker flat
    have parts := tally_among Executed.cash s.orderMgr.seenFills executions ticker
    rw [after.position, total_arrivals_sub] at flat
    have realized := after.realized_flat allPositive flat
    change _ = ((fillsOn (fills ++ closings.map Closing.booked) ticker).map Fill.cash).sum at realized
    rw [realized, Ledger.fillsOn_append_sum, earned, cash, parts]
    change tally Executed.cash (among s.orderMgr.seenFills executions) ticker + _ = _
    ring

/-- On a market that ends flat on both sides the file is complete exactly if nothing there is left out. -/
theorem carried_iff {s s' : Desk ℚ X} {executions : List (Executed ℚ)} {closings : List Closing}
    (closed : Closed s s' closings) (settled : Settled s s' executions closings) {ticker : Ticker}
    (flat : ticker ∈ lastBooking s'.calls → (s'.orderMgr.netPosition ticker).centi = 0) :
    PnlMap.read s'.onFile ticker = PnlMap.read s'.prior ticker +
        (tally Executed.cash executions ticker + Closing.cash closings ticker) ↔
      leftOut (lastBooking s'.calls) s.orderMgr.seenFills executions closings ticker = 0 := by
  rw [closed.filed.file ticker, add_right_inj, leftOut]
  by_cases tracked : ticker ∈ lastBooking s'.calls
  · rw [if_pos tracked, if_pos tracked, settled.realized ticker (flat tracked)]
    constructor
    · intro same
      linarith
    · intro nothing
      linarith
  · rw [if_neg tracked, if_neg tracked]
    exact eq_comm

/-- The cancels of the guard leave the books as they are. -/
theorem swept_kept (venue : Venue X) (account : Account ℚ X) (accountWide : Bool) {s : Desk ℚ X}
    {executions : List (Executed ℚ)} (sourced : s.ledger.Sourced executions) (filed : s.Filed) :
    (s.swept venue account accountWide).ledger.Sourced executions ∧ (s.swept venue account accountWide).Filed ∧
      (s.swept venue account accountWide).orderMgr.seenFills = s.orderMgr.seenFills ∧
      (s.swept venue account accountWide).session = s.session ∧
      lastBooking (s.swept venue account accountWide).calls = lastBooking s.calls := by
  obtain ⟨_, cancels, x, quoter, swept⟩ := swept_run venue account accountWide s
  obtain ⟨openOrders, books⟩ := s.orderMgr.afterCancels_books cancels
  have orders : (s.swept venue account accountWide).orderMgr = { s.orderMgr with openOrders } := by
    rw [swept]
    exact books
  have session : (s.swept venue account accountWide).session = s.session := by
    rw [swept]
    rfl
  have bookings : lastBooking (s.swept venue account accountWide).calls = lastBooking s.calls := by
    rw [swept]
    apply lastBooking_quiet
    intro entry member
    obtain ⟨sent, _, rfl⟩ := List.mem_map.mp member
    rfl
  refine ⟨sourced.of_books orders fun ticker tracked => .inl ?_, filed.quiet ?_ bookings ?_, ?_, session, bookings⟩
  · change ticker ∈ (s.swept venue account accountWide).session.tickers
    rw [session]
    exact tracked
  · rw [swept]
    rfl
  · rw [orders]
    rfl
  · rw [orders]

/-- Whenever the executions come, before the feed stops or after, up to the last cancel: a shutdown loses
nothing exactly if no closing fills within half a cent of the dollar, the executions that the session missed
net to no position on any of its markets, and what is left out of the file comes to no cash on any market
that ends flat. -/
theorem shutdown_loses_nothing_iff (venue : Venue X) (account : Account ℚ X) (accountWide : Bool)
    {start live : Live ℚ X}
    {executions : List (Executed ℚ)} (opening : start.desk.Opening)
    (run : ReflTransGen (AccountTurn venue) ([], start) (executions, live)) (late : List (Executed ℚ))
    {positions : List MarketPosition} {closings : List Closing}
    (closes : Closes venue account accountWide (live.desk.swept venue account accountWide) (executions ++ late)
      positions closings) :
    NothingLost (executions ++ late) closings (shutdownGuard venue account false accountWide live.desk) ↔
      (∀ c ∈ closings, ¬ c.RoundsToDollar) ∧
        (∀ ticker ∈ live.desk.session.tickers,
          net (missed live.desk.orderMgr.seenFills (executions ++ late)) ticker = 0) ∧
        ∀ ticker, heldAfter (executions ++ late) closings ticker = 0 →
          leftOut (if closings = [] then lastBooking live.desk.calls else live.desk.session.tickers)
            live.desk.orderMgr.seenFills (executions ++ late) closings ticker = 0 := by
  obtain ⟨sourced, filed⟩ := AccountTurn.run_kept opening run
  have distinct : ((executions ++ late).map Executed.key).Nodup := (List.nodup_append.mp closes.distinct).1
  have sourced' := sourced.later distinct
  obtain ⟨sweptSourced, sweptFiled, seen, session, bookings⟩ :=
    swept_kept venue account accountWide sourced' filed
  rw [(swept_run venue account accountWide live.desk).1]
  rcases closePositions_run closes sweptFiled sweptSourced.booked with ⟨⟨c, member, dollar⟩, what, aborted⟩ |
    ⟨whole, s', ended, closed⟩
  · constructor
    · intro nothing
      cases aborted.symm.trans nothing.finished
    · rintro ⟨whole, _⟩
      exact absurd dollar (whole c member)
  · have settled := closed.settled sweptSourced
    have tickers : s'.session.tickers = live.desk.session.tickers := by rw [closed.session, session]
    have tracked : lastBooking s'.calls =
        if closings = [] then lastBooking live.desk.calls else live.desk.session.tickers := by
      rw [closed.bookings, bookings, session]
    have position := settled.position
    have file := fun ticker => @carried_iff _ _ _ _ _ _ closed settled ticker
    rw [seen] at position
    simp only [tracked, seen] at file
    -- a market that the last booking looked at is of the session, or was given up flat and is not closed again
    have flat : (∀ ticker ∈ live.desk.session.tickers,
          net (missed live.desk.orderMgr.seenFills (executions ++ late)) ticker = 0) →
        ∀ ticker, heldAfter (executions ++ late) closings ticker = 0 →
          (ticker ∈ if closings = [] then lastBooking live.desk.calls else live.desk.session.tickers) →
            (s'.orderMgr.netPosition ticker).centi = 0 := by
      intro missedNone ticker held looked
      rw [position, held]
      by_cases here : ticker ∈ live.desk.session.tickers
      · rw [missedNone ticker here]
        rfl
      · have nothing : closings = [] := by
          by_contra present
          rw [if_neg present] at looked
          exact here looked
        have level : net (among live.desk.orderMgr.seenFills (executions ++ late)) ticker = 0 :=
          (sourced'.booked.counted ticker).symm.trans (sourced'.booked.flat ticker here)
        have parts : net (executions ++ late) ticker =
            net (among live.desk.orderMgr.seenFills (executions ++ late)) ticker +
              net (missed live.desk.orderMgr.seenFills (executions ++ late)) ticker :=
          tally_among Executed.signed _ _ _
        have unclosed : Closing.units closings ticker = 0 := by
          rw [nothing]
          rfl
        rw [heldAfter, parts, level, unclosed] at held
        omega
    rw [ended]
    constructor
    · rintro ⟨_, flats, carried⟩
      have missedNone : ∀ ticker ∈ live.desk.session.tickers,
          net (missed live.desk.orderMgr.seenFills (executions ++ late)) ticker = 0 := by
        intro ticker here
        obtain ⟨level, held⟩ := flats ticker (tickers ▸ here)
        rw [position, held] at level
        omega
      refine ⟨whole, missedNone, fun ticker held => ?_⟩
      exact (file ticker (flat missedNone ticker held)).mp (carried ticker held)
    · rintro ⟨_, missedNone, nothing⟩
      refine ⟨rfl, fun ticker here => ?_, fun ticker held => ?_⟩
      · dsimp only at here
        rw [tickers] at here
        have held : heldAfter (executions ++ late) closings ticker = 0 := closes.flat (session ▸ here)
        refine ⟨?_, held⟩
        rw [position, held, missedNone ticker here]
        rfl
      · exact (file ticker (flat missedNone ticker held)).mpr (nothing ticker held)

end

/-! ### A bid of ten contracts -/

def lateFill : Fill ℚ where
  tradeId := "trade-1"
  orderId := "order-1"
  marketTicker := "M"
  side := .yes
  priceCents := 41
  quantity := ⟨1000⟩
  feeCents := 0
  isTaker := false
  timestamp := 0

def lateExecution : Executed ℚ := ⟨lateFill, lateFill, rfl, rfl⟩

/-- The ten contracts are sold at 44 cents. -/
def sale : Closing where
  position := ⟨1000⟩
  orderId := "order-3"
  filled := ⟨1000⟩
  averageFillPrice := 4400
  averageFeePaid := 0
  tsMs := 0
  held := by decide
  executed := by decide
  aboveZero := by decide
  belowDollar := by decide
  ticker := "M"
  complete := by decide

/-- An exchange that takes two quotes and any cancel, and then fills the sale. -/
def sellingHost : Host Nat where
  get _ n := (.error "not asked", n)
  post _ _ n := (.ok (if n < 2 then Script.acceptance (n + 1) else sale.response), n + 1)
  delete _ n := (.ok { statusCode := 200 }, n)
  steadyNow n := (0, n)
  systemNow n := (0, n)
  arrange _ keys := keys
  arrange_perm _ keys := .refl keys

def tenHeld : Account ℚ Nat where
  getOpenOrders n := (.ok [], n)
  getPositions n := (.ok [⟨"M", ⟨1000⟩⟩], n)
  getFills _ n := (.ok [], n)

def opened (posted : Nat) : Live ℚ Nat where
  desk := (Process.start { tickers := ["M"] } {} {} posted none none false true : Process ℚ Nat).desk

/-- Announced by the feed, the execution is booked before the shutdown closes its position. -/
theorem shutdown_loses_nothing_iff_announced :
    let venue : Venue Nat := ⟨⟨"exchange"⟩, sellingHost⟩
    let live := (Live.onFill lateFill (opened 2)).2
    ReflTransGen (AccountTurn venue) ([], opened 2) ([lateExecution], live) ∧
      NothingLost [lateExecution] [sale] (shutdownGuard venue tenHeld false false live.desk) := by
  intro venue live
  have run : ReflTransGen (AccountTurn venue) ([], opened 2) ([lateExecution], live) :=
    .tail (.single (.executed lateExecution (by simp))) (.announced lateExecution (by simp))
  have posted : (live.desk.swept venue tenHeld false).outside = 2 := by decide +kernel
  have closes : Closes venue tenHeld false (live.desk.swept venue tenHeld false) ([lateExecution] ++ [])
      [⟨"M", ⟨1000⟩⟩] [sale] := by
    refine ⟨rfl, by decide, by decide +kernel, by decide +kernel, ⟨?_, trivial⟩, by decide +kernel⟩
    rw [posted]
    rfl
  refine ⟨run, (shutdown_loses_nothing_iff venue tenHeld false ⟨rfl, rfl, rfl, rfl⟩ run [] closes).mpr ⟨?_, ?_, ?_⟩⟩
  · intro c member
    rw [List.mem_singleton.mp member]
    decide +kernel
  · decide +kernel
  · intro ticker _
    by_cases here : ticker = "M"
    · subst here
      decide +kernel
    · have other : ¬ "M" = ticker := fun same => here same.symm
      have tickers : live.desk.session.tickers = ["M"] := by decide +kernel
      rw [if_neg (List.cons_ne_nil _ _), tickers, leftOut, if_neg (by simpa using here)]
      simp [tally, Closing.cash, lateExecution, Executed.ticker, lateFill, sale, other]

/-- The bid is executed once the feed is stopped. -/
theorem late_execution_lost :
    let venue : Venue Nat := ⟨⟨"exchange"⟩, sellingHost⟩
    let book : Orderbook := { ticker := "M", yes := [⟨40, ⟨1000⟩⟩], no := [⟨40, ⟨1000⟩⟩] }
    let after (event : Event ℚ) (live : Live ℚ Nat) : Live ℚ Nat :=
      { live with desk := (handle venue event live.desk).2 }
    let live := after .requoteIdleMarkets (after (.snapshot book) (opened 0))
    let outcome := shutdownGuard venue tenHeld false false live.desk
    (opened 0).desk.Opening ∧ ReflTransGen (AccountTurn venue) ([], opened 0) ([], live) ∧
      (live.desk.orderMgr.openOrders.lookup "order-1").map Order.quantity = some lateFill.quantity ∧
      Closes venue tenHeld false (live.desk.swept venue tenHeld false) ([] ++ [lateExecution]) [⟨"M", ⟨1000⟩⟩] [sale] ∧
      outcome.1 = .ok () ∧ (outcome.2.orderMgr.netPosition "M").centi = -1000 ∧
      PnlMap.read outcome.2.onFile "M" = 0 ∧ ¬ NothingLost ([] ++ [lateExecution]) [sale] outcome := by
  intro venue book after live outcome
  have short : (outcome.2.orderMgr.netPosition "M").centi = -1000 := by decide +kernel
  have posted : (live.desk.swept venue tenHeld false).outside = 2 := by decide +kernel
  refine ⟨⟨rfl, rfl, rfl, rfl⟩, ?_, by decide +kernel,
    ⟨rfl, by decide, by decide +kernel, by decide +kernel, ⟨?_, trivial⟩,
    by decide +kernel⟩, by decide +kernel, short, by decide +kernel, fun nothing => ?_⟩
  · exact .tail (.single (.event (.snapshot book) (by simp) (by simp)))
      (.event .requoteIdleMarkets (by simp) (by simp))
  · rw [posted]
    rfl
  · have flat := (nothing.flat "M" (by decide +kernel)).1
    rw [short] at flat
    cases flat

end Kalshi
