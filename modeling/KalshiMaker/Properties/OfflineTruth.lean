import Mathlib.Algebra.BigOperators.Ring.Finset
import KalshiMaker.App.Drift
import KalshiMaker.Engine.Untouched
import KalshiMaker.Properties.Accounting
import KalshiMaker.Properties.OwnEcho
import KalshiMaker.Tooling.SettlementJoin

/-! What the settlement join makes of a session's log, against what the order manager has booked. -/
namespace Kalshi

open Effect Eff Relation TradingSession OrderManager

/-! ### What the script adds up -/

namespace SettlementJoin

variable [Elementary ℚ]

/-- What a fill gains by the settlement of its market, in cents. -/
def FillEvent.gain (result : Side) (fill : FillEvent ℚ) : ℚ :=
  fill.qty * (settleNativeCents result fill.side - (fill.price : ℚ)) - fill.feeCents.getD 0

/-- Every fill has a value at settlement, so the loop runs to its end. -/
theorem fillsPnlCents_settled (result : Side) (fills : List (FillEvent ℚ)) (totalCents : ℚ) :
    fillsPnlCents (fun fill => some (settleNativeCents result fill.side)) totalCents fills =
      some (totalCents + (fills.map (FillEvent.gain result)).sum) := by
  induction fills generalizing totalCents with
  | nil => simp [fillsPnlCents]
  | cons fill fills ih =>
    unfold fillsPnlCents
    dsimp only
    rw [ih, List.map_cons, List.sum_cons]
    unfold FillEvent.gain
    congr 1
    ring

theorem truth_eq (log : List (LogEvent ℚ)) (ticker : Ticker) (result : Side) :
    truth log ticker result =
      some (((log.filterMap (LogEvent.fillOn ticker)).map (FillEvent.gain result)).sum / 100) := by
  unfold truth fillsPnlDollars loadFills
  rw [fillsPnlCents_settled, Option.map_some]
  have sorted := List.perm_insertionSort (fun fill other : FillEvent ℚ => fill.tsMs ≤ other.tsMs)
    (log.filterMap (LogEvent.fillOn ticker))
  rw [(sorted.map _).sum_eq, zero_add]
  rfl

theorem carried_eq (log : List (LogEvent ℚ)) (ticker : Ticker) :
    carried log ticker = ((log.filterMap (LogEvent.fillOn ticker)).map FillEvent.signed).sum := by
  have walk : ∀ (fills : List (FillEvent ℚ)) (sum : ℚ),
      (fills.foldl (fun sum fill => sum + fill.signed) sum) = sum + (fills.map FillEvent.signed).sum := by
    intro fills
    induction fills with
    | nil => simp
    | cons fill fills ih =>
      intro sum
      rw [List.foldl_cons, ih, List.map_cons, List.sum_cons, add_assoc]
  unfold carried carriedContracts loadFills
  rw [walk, zero_add]
  exact ((List.perm_insertionSort _ _).map _).sum_eq

end SettlementJoin

/-! ### What a session logs -/

section

variable {F X : Type} [Floating F]

def Emission.filled : Emission F → Option (Fill F)
  | .fill told _ _ => some told
  | .quoteDecision _ _ _ _ _ _ _ _ | .persist _ => none

/-- The fills the analytics tap was told of, oldest first. -/
def Desk.reported (s : Desk F X) : List (Fill F) := s.emitted.filterMap Emission.filled

/-- The log of a session as the script reads it. -/
def Desk.analyticsLog (clock : Nat → TimePoint) (s : Desk F X) : List (SettlementJoin.LogEvent F) :=
  (AnalyticsLogger.lines clock s.emitted).map SettlementJoin.loads

/-- What the script reads of a fill that was logged. -/
def Fill.logged (now : TimePoint) (fill : Fill F) : SettlementJoin.FillEvent F :=
  ⟨epochMs now, fill.side, fill.priceCents, fill.quantity.contracts, some fill.feeCents⟩

/-- Whatever is read off the logged fills of a market but their times is that of the reported fills. -/
theorem Desk.analyticsLog_map {β : Type} (value : SettlementJoin.FillEvent F → β) (worth : Fill F → β)
    (same : ∀ now fill, value (fill.logged now) = worth fill) (clock : Nat → TimePoint) (s : Desk F X)
    (ticker : Ticker) :
    ((s.analyticsLog clock).filterMap (SettlementJoin.LogEvent.fillOn ticker)).map value =
      (fillsOn s.reported ticker).map worth := by
  have walk : ∀ (emitted : List (Emission F)) (start : Nat),
      ((((emitted.zipIdx start).filterMap fun emission =>
        AnalyticsLogger.line (clock emission.2) emission.1).map SettlementJoin.loads).filterMap
          (SettlementJoin.LogEvent.fillOn ticker)).map value =
        (fillsOn (emitted.filterMap Emission.filled) ticker).map worth := by
    intro emitted
    induction emitted with
    | nil => exact fun _ => rfl
    | cons emission emitted ih =>
      intro start
      rw [List.zipIdx_cons]
      -- a decision is a line the script passes over, a map of the listener is no line at all
      cases emission with
      | quoteDecision _ _ _ _ _ _ _ _ => exact ih (start + 1)
      | persist _ => exact ih (start + 1)
      | fill fill mid net =>
        have read := same (clock start) fill
        by_cases here : fill.marketTicker = ticker
        · simpa [AnalyticsLogger.line, AnalyticsLogger.fill, SettlementJoin.loads, SettlementJoin.LogEvent.fillOn,
            Emission.filled, fillsOn, here, Fill.logged, ← read] using ih (start + 1)
        · simpa [AnalyticsLogger.line, AnalyticsLogger.fill, SettlementJoin.loads, SettlementJoin.LogEvent.fillOn,
            Emission.filled, fillsOn, here] using ih (start + 1)
  exact walk s.emitted 0

/-- The books of an order manager without its registry. -/
def OrderManager.withoutOrders (om : OrderManager F) : OrderManager F := { om with openOrders := ∅ }

/-- What the log and the order manager have of the fills. -/
def Desk.journal (s : Desk F X) : OrderManager F × List (Fill F) × Bool :=
  (s.orderMgr.withoutOrders, s.reported, s.analytics)

omit [Floating F] in
theorem OrderManager.withoutOrders_of_books {om om' : OrderManager F}
    (books : ∃ openOrders, om' = { om with openOrders }) : om'.withoutOrders = om.withoutOrders := by
  obtain ⟨openOrders, rfl⟩ := books
  rfl

section

variable (venue : Venue X)

theorem update_withoutOrders (ticker : Ticker) (book : LocalOrderbook) (s : Desk F X) :
    (Quoter.update venue ticker book s).2.orderMgr.withoutOrders = s.orderMgr.withoutOrders := by
  have chain := Quoter.update_leads venue ticker book s
  refine chain_invariant (fun L : Ledger F => L.orderMgr.withoutOrders = s.orderMgr.withoutOrders) ?_ chain rfl
  intro L L' step same
  exact (withoutOrders_of_books (Ledger.quoteStep_books step)).trans same

/-- An update tells the tap of its decision, and of no fill. -/
theorem update_reported (ticker : Ticker) (book : LocalOrderbook) (s : Desk F X) :
    (Quoter.update venue ticker book s).2.reported = s.reported := by
  -- a book without two sides is not priced, and nothing is told
  by_cases degenerate : (s.bookWithoutOwnQuotes ticker book).Degenerate
  · rw [Quoter.update_degenerate venue degenerate]
    rfl
  · unfold LocalOrderbook.Degenerate at degenerate
    push Not at degenerate
    obtain ⟨bestBid, bestAsk, bid, ask, apart⟩ := degenerate
    obtain ⟨outlook, x, y, _, ran⟩ := Quoter.update_priced venue bid ask apart
    split at ran
    next =>
      have kept : (Quoter.update venue ticker book s).2.emitted =
          ((Quoter.notePriced ticker book s).2.decided outlook bestBid bestAsk y).emitted := by
        rw [ran]
        exact congrArg Prod.snd (applyQuotes_priceKept ticker _ _ _ _)
      unfold Desk.reported
      rw [kept]
      unfold Desk.decided
      dsimp only
      split
      · simp [Outlook.decision, Emission.filled, Quoter.notePriced]
      · rfl
    next =>
      rw [ran]
      rfl

theorem analytics_detached : Quoter.Detached (Desk.analytics (F := F) (X := X)) where
  quoter _ _ := rfl
  outside _ _ := rfl
  called _ _ _ := rfl
  orders _ _ := rfl
  emit _ _ _ := rfl

theorem update_journal (ticker : Ticker) (book : LocalOrderbook) (s : Desk F X) :
    (Quoter.update venue ticker book s).2.journal = s.journal := by
  have tapped := chain_unmoved (Quoter.update_moves (analytics_detached.moves venue ticker) book s)
  unfold Desk.journal
  rw [update_withoutOrders, update_reported]
  exact congrArg (fun analytics => (s.orderMgr.withoutOrders, s.reported, analytics)) tapped

theorem journal_reacts : Reacts venue (Desk.journal (F := F) (X := X)) (fun _ _ _ => False) where
  session _ _ _ _ := rfl
  steady _ := rfl
  update ticker book s := Leads.quiet (update_journal venue ticker book s)

theorem journal_untouched : Untouched venue (Desk.journal (F := F) (X := X)) where
  reacts := journal_reacts venue
  session _ _ _ := rfl
  quoter _ _ _ _ := rfl
  tape _ _ := rfl
  cancels s cancels x := by
    have books := withoutOrders_of_books (s.orderMgr.afterCancels_books cancels)
    exact congrArg (fun books => (books, s.reported, s.analytics)) books
  risk _ _ _ _ _ := rfl

end

/-! ### What a fill leaves in the journal -/

theorem reportFill_journal {s : Desk F X} (tapped : s.analytics = true) (fill : Fill F) :
    (reportFill fill s).2.journal = (s.orderMgr.withoutOrders, s.reported ++ [fill], true) := by
  unfold reportFill
  simp only [bind_apply, get_apply, andThen_ok, Desk.emit, tapped, ↓reduceIte, modify_apply]
  split <;> simp [Desk.journal, Desk.reported, Emission.filled]

theorem settleFill_journal {s : Desk F X} (tapped : s.analytics = true) (fill : Fill F) :
    (settleFill fill s).2.journal = (s.orderMgr.withoutOrders, s.reported ++ [fill], true) := by
  unfold settleFill
  simp only [bind_apply, get_apply, andThen_ok]
  split
  · simp only [Desk.mapQuoter, Desk.mapRisk, modify_apply, bind_apply, andThen_ok]
    apply reportFill_journal
    exact tapped
  · simp only [Desk.mapRisk, modify_apply, bind_apply, andThen_ok]
    apply reportFill_journal
    exact tapped

/-- A fill is booked and told of, or neither. -/
theorem onFill_journal {s : Desk F X} (tapped : s.analytics = true) (fill : Fill F) :
    (onFill fill s).2.journal = s.journal ∨
      checkFill fill = .ok () ∧ fillKey fill ∉ s.orderMgr.seenFills ∧
        (onFill fill s).2.journal = ((s.orderMgr.bookFill fill).withoutOrders, s.reported ++ [fill], true) := by
  unfold onFill
  simp only [bind_apply, modify_apply, andThen_ok, get_apply]
  split
  · rw [bind_apply]
    rcases OrderManager.recordFill_cases fill
      { s with tradeTape := s.tradeTape.map fun tape => tape.recordOwnFill fill.tradeId }
      with ⟨what, aborted, _⟩ | ⟨recorded, valid⟩
    · rw [aborted]
      exact .inl rfl
    · rw [recorded, andThen_ok]
      unfold OrderManager.recorded
      by_cases seen : fillKey fill ∈ s.orderMgr.seenFills
      · simp only [seen, ↓reduceIte, Bool.false_eq_true]
        exact .inl rfl
      · simp only [seen, ↓reduceIte, bind_apply, andThen_pure_state]
        refine .inr ⟨valid, not_false, ?_⟩
        apply settleFill_journal
        exact tapped
  · exact .inl rfl

/-- What a flatten records of an execution already booked under the same key. -/
def Event.repeated (s : Desk F X) : Event F → List (Fill F)
  | .recordFlatten order =>
    if checkFill (flattenFill (F := F) order) = .ok () ∧
      fillKey (flattenFill (F := F) order) ∈ s.orderMgr.seenFills then
      [flattenFill order]
    else []
  | _ => []

/-- A flatten is told of whether or not it is booked. -/
theorem recordFlatten_journal {s : Desk F X} (tapped : s.analytics = true) (order : Order) :
    (recordFlatten order s).2.journal = s.journal ∧ (Event.recordFlatten order).repeated s = [] ∨
      checkFill (flattenFill (F := F) order) = .ok () ∧
        (recordFlatten order s).2.journal =
          ((s.orderMgr.recorded (flattenFill order)).2.withoutOrders, s.reported ++ [flattenFill order], true) := by
  unfold recordFlatten
  split
  next filled =>
    rw [bind_apply]
    rcases OrderManager.recordFill_cases (flattenFill order) s with ⟨what, aborted, invalid⟩ | ⟨recorded, valid⟩
    · rw [aborted]
      exact .inl ⟨rfl, if_neg fun again => invalid again.1⟩
    · -- the report follows whatever `record_fill` said
      rw [recorded, andThen_ok]
      refine .inr ⟨valid, ?_⟩
      apply reportFill_journal
      exact tapped
  next unfilled =>
    exact .inl ⟨rfl, if_neg fun again => unfilled ((checkFill_eq_ok_iff _).mp again.1).2⟩

/-- The executions that the flattens of a run record again. -/
def Process.repeats (venue : Venue X) : Process F X → List (Event F) → List (Fill F)
  | _, [] => []
  | p, event :: events =>
    (if p.alive then event.repeated p.desk else []) ++ repeats venue (p.dispatch venue event) events

end

/-! ### Along a run -/

section

variable [Elementary ℚ] {X : Type} (venue : Venue X)

/-- The order manager has booked some fills; the tap was told of these, and again of what was repeated. -/
structure Journaled (journal : OrderManager ℚ × List (Fill ℚ) × Bool) (booked repeats : List (Fill ℚ)) : Prop where
  netted : journal.1.Netted booked
  positive : ∀ fill ∈ booked, 0 < fill.quantity.centi
  reported : journal.2.1.Perm (booked ++ repeats)
  tapped : journal.2.2 = true

/-- The registry has no part in what fills come to. -/
theorem OrderManager.netted_withoutOrders {om : OrderManager ℚ} {fills : List (Fill ℚ)} :
    om.withoutOrders.Netted fills ↔ om.Netted fills :=
  ⟨fun netted => ⟨netted.lots, netted.spread, netted.position, netted.fees, netted.seen⟩,
    fun netted => ⟨netted.lots, netted.spread, netted.position, netted.fees, netted.seen⟩⟩

theorem Journaled.book {s : Desk ℚ X} {booked repeats : List (Fill ℚ)} (journaled : Journaled s.journal booked repeats)
    {fill : Fill ℚ} (valid : checkFill fill = .ok ()) :
    Journaled ((s.orderMgr.bookFill fill).withoutOrders, s.reported ++ [fill], true) (booked ++ [fill]) repeats where
  netted := netted_withoutOrders.mpr <| (netted_withoutOrders.mp journaled.netted).bookFill journaled.positive
    (positive_of_checkFill valid)
  positive := by
    intro other among
    rcases List.mem_append.mp among with before | last
    · exact journaled.positive other before
    · rw [List.mem_singleton.mp last]
      exact positive_of_checkFill valid
  reported := by
    refine (journaled.reported.append_right [fill]).trans ?_
    rw [List.append_assoc, List.append_assoc]
    exact List.perm_append_comm.append_left booked
  tapped := rfl

/-- One event books a fill and tells of it, tells of a repeated one, or leaves the journal as it is. -/
theorem Journaled.handle {s : Desk ℚ X} {booked repeats : List (Fill ℚ)}
    (journaled : Journaled s.journal booked repeats)
    (event : Event ℚ) :
    ∃ booked', Journaled (handle venue event s).2.journal booked' (repeats ++ event.repeated s) := by
  have tapped : s.analytics = true := journaled.tapped
  have untouched : ∀ {journal}, journal = s.journal → Journaled journal booked (repeats ++ []) := by
    rintro _ rfl
    rw [List.append_nil]
    exact journaled
  cases event with
  | fill newFill =>
    have same : (Kalshi.handle venue (.fill newFill) s).2 = (onFill newFill s).2 := andThen_pure_state _ _
    rw [same]
    rcases onFill_journal tapped newFill with kept | ⟨valid, _, told⟩
    · exact ⟨booked, untouched kept⟩
    · rw [told]
      refine ⟨booked ++ [newFill], ?_⟩
      exact (List.append_nil repeats).symm ▸ journaled.book valid
  | recordFlatten order =>
    rcases recordFlatten_journal tapped order with ⟨kept, absent⟩ | ⟨valid, told⟩
    · rw [absent]
      exact ⟨booked, untouched kept⟩
    · change ∃ booked', Journaled (recordFlatten order s).2.journal booked' _
      rw [told]
      unfold OrderManager.recorded Event.repeated
      -- seen before, the execution joins the repeats; new, the booked
      by_cases seen : fillKey (flattenFill (F := ℚ) order) ∈ s.orderMgr.seenFills
      · simp only [seen, valid, and_self, ↓reduceIte]
        refine ⟨booked, journaled.netted, journaled.positive, ?_, rfl⟩
        rw [← List.append_assoc]
        exact journaled.reported.append_right _
      · simp only [seen, and_false, ↓reduceIte, List.append_nil]
        exact ⟨booked ++ [flattenFill order], journaled.book valid⟩
  | riskUpdate _ => exact ⟨booked, untouched rfl⟩
  | _ => exact ⟨booked, untouched ((journal_untouched venue).handle rfl s)⟩

theorem Journaled.dispatch {p : Process ℚ X} {booked repeats : List (Fill ℚ)}
    (journaled : Journaled p.desk.journal booked repeats) (event : Event ℚ) :
    ∃ booked', Journaled (p.dispatch venue event).desk.journal booked'
      (repeats ++ if p.alive then event.repeated p.desk else []) := by
  cases alive : p.alive with
  | false =>
    rw [dispatch_dead venue alive event]
    exact ⟨booked, by simpa using journaled⟩
  | true =>
    obtain ⟨booked', handled⟩ := journaled.handle venue event
    refine ⟨booked', ?_⟩
    rcases dispatch_alive venue alive event with done | ⟨_, ended⟩
    · rw [done]
      exact handled
    · rw [ended]
      dsimp only
      rw [(journal_untouched venue).cancelAllQuotes]
      exact handled

theorem Journaled.run {p : Process ℚ X} {booked repeats : List (Fill ℚ)}
    (journaled : Journaled p.desk.journal booked repeats) (events : List (Event ℚ)) :
    ∃ booked', Journaled (p.run venue events).desk.journal booked' (repeats ++ p.repeats venue events) := by
  induction events generalizing p booked repeats with
  | nil => exact ⟨booked, by simpa [Process.repeats] using journaled⟩
  | cons event events ih =>
    obtain ⟨_, stepped⟩ := journaled.dispatch venue event
    have rest := ih stepped
    rw [List.append_assoc] at rest
    exact rest

end

/-! ### Worth at settlement -/

section

variable [Elementary ℚ]

/-- What a fill gains by the settlement of its market, less its fee. -/
def Fill.settledCents (result : Side) (fill : Fill ℚ) : ℚ :=
  fill.quantity.contracts * ((settlement result fill.side : ℚ) - fill.priceCents) - fill.feeCents

def settledCents (fills : List (Fill ℚ)) (ticker : Ticker) (result : Side) : ℚ :=
  ((fillsOn fills ticker).map (Fill.settledCents result)).sum

omit [Elementary ℚ] in
/-- The position some fills of a market lead to. -/
def carriedUnits (fills : List (Fill ℚ)) (ticker : Ticker) : Int :=
  ((fillsOn fills ticker).map fun fill => fill.side.toward fill.quantity.centi).sum

/-- Realized PnL, and the open lots at what they settle at less what they cost. -/
def OrderManager.settledWorth (om : OrderManager ℚ) (ticker : Ticker) (result : Side) : ℚ :=
  om.realizedPnl ticker +
    ((kContractMaxCents : ℚ) * (sumQuantity (om.lots result ticker)).contracts - om.positionCost ticker)

omit [Elementary ℚ] in
theorem fillsOn_sum {M : Type} [AddCommMonoid M] {told booked repeats : List (Fill ℚ)}
    (reported : told.Perm (booked ++ repeats)) (ticker : Ticker) (worth : Fill ℚ → M) :
    ((fillsOn told ticker).map worth).sum =
      ((fillsOn booked ticker).map worth).sum + ((fillsOn repeats ticker).map worth).sum := by
  have split : (fillsOn told ticker).Perm (fillsOn booked ticker ++ fillsOn repeats ticker) := by
    unfold fillsOn
    rw [← List.filter_append]
    exact reported.filter _
  rw [(split.map worth).sum_eq, List.map_append, List.sum_append]

theorem settledCents_eq (fills : List (Fill ℚ)) (ticker : Ticker) (result : Side) :
    settledCents fills ticker result = markedPnl fills ticker (settlement result) - totalFees fills ticker := by
  unfold settledCents markedPnl totalFees
  rw [eq_sub_iff_add_eq, ← List.sum_map_add]
  simp only [Fill.settledCents, sub_add_cancel]

/-- The worth of the books at settlement is that of the fills they came from. -/
theorem OrderManager.Netted.settledWorth {om : OrderManager ℚ} {fills : List (Fill ℚ)} (netted : om.Netted fills)
    (positive : ∀ fill ∈ fills, 0 < fill.quantity.centi) (ticker : Ticker) (result : Side) :
    om.settledWorth ticker result = settledCents fills ticker result := by
  have marked := netted.marked positive ticker (nativeMark kContractMaxCents result)
  have worth : om.unrealizedPnl ticker (nativeMark kContractMaxCents result) =
      (kContractMaxCents : ℚ) * (sumQuantity (om.lots result ticker)).contracts - om.positionCost ticker := by
    rw [unrealizedPnl_eq, sumQuantity_eq, contracts_eq, positionCost, costLots_eq, costLots_eq]
    cases result
    · simp only [markedLots, nativeMark, kContractMaxCents]
      push_cast
      ring
    · simp only [markedLots, nativeMark, kContractMaxCents]
      push_cast
      ring
  have outcome : nativeMark (nativeMark kContractMaxCents result) = settlement result := by
    cases result
    · exact settlement_yes.symm
    · exact settlement_no.symm
  unfold OrderManager.settledWorth
  rw [settledCents_eq, ← worth, marked, outcome]

theorem OrderManager.Netted.carriedUnits {om : OrderManager ℚ} {fills : List (Fill ℚ)} (netted : om.Netted fills)
    (ticker : Ticker) : (om.netPosition ticker).centi = carriedUnits fills ticker := by
  rw [netted.position, total_arrivals_sub]
  rfl

/-! ### What the script makes of a session's log -/

variable {X : Type}

theorem truth_reported (clock : Nat → TimePoint) (s : Desk ℚ X) (ticker : Ticker) (result : Side) :
    SettlementJoin.truth (s.analyticsLog clock) ticker result =
      some (settledCents s.reported ticker result / 100) := by
  have gains : ∀ (now : TimePoint) (fill : Fill ℚ),
      (fill.logged now).gain result = fill.settledCents result := by
    intro now fill
    have pays : (SettlementJoin.settleNativeCents result fill.side : ℚ) = (settlement result fill.side : ℚ) := by
      cases result <;> cases fill.side <;> rfl
    unfold SettlementJoin.FillEvent.gain Fill.settledCents
    rw [← pays]
    rfl
  rw [SettlementJoin.truth_eq, s.analyticsLog_map _ _ gains]
  rfl

theorem carried_reported (clock : Nat → TimePoint) (s : Desk ℚ X) (ticker : Ticker) :
    SettlementJoin.carried (s.analyticsLog clock) ticker = (carriedUnits s.reported ticker : ℚ) / 100 := by
  have signs : ∀ (now : TimePoint) (fill : Fill ℚ),
      (fill.logged now).signed = ((fill.side.toward fill.quantity.centi : Int) : ℚ) / 100 := by
    intro now fill
    have contracts : (fill.quantity.contracts : ℚ) = (fill.quantity.centi : ℚ) / 100 := contracts_eq fill.quantity
    unfold SettlementJoin.FillEvent.signed Fill.logged Side.toward
    cases fill.side
    · exact contracts
    · simp [contracts, neg_div]
  rw [SettlementJoin.carried_eq, s.analyticsLog_map _ _ signs]
  unfold carriedUnits
  simp only [div_eq_mul_inv]
  rw [List.sum_map_mul_right, Int.cast_list_sum, List.map_map]
  rfl

/-- What the script makes of the log of a run is what the order manager has of it, exactly where the executions that
flattens recorded a second time come to nothing. -/
theorem offline_truth_agrees_iff (venue : Venue X) (session : TradingSession ℚ) (config : QuoterConfig ℚ)
    (limits : RiskLimits ℚ) (outside : X) (flowGuard : Option (FlowImbalanceGuard ℚ))
    (tradeTape : Option (TradeTape ℚ))
    (pnlListener : Bool) (events : List (Event ℚ)) (clock : Nat → TimePoint) (ticker : Ticker) (result : Side) :
    let start := Process.start session config limits outside flowGuard tradeTape true pnlListener
    let desk := (start.run venue events).desk
    let repeats := start.repeats venue events
    (((SettlementJoin.truth (desk.analyticsLog clock) ticker result).map fun dollars => dollars * 100) =
        some (desk.orderMgr.settledWorth ticker result) ↔ settledCents repeats ticker result = 0) ∧
      (SettlementJoin.carried (desk.analyticsLog clock) ticker = (desk.orderMgr.netPosition ticker).contracts ↔
        carriedUnits repeats ticker = 0) := by
  intro start desk repeats
  have opening : Journaled start.desk.journal [] [] :=
    ⟨netted_withoutOrders.mpr empty_netted, by simp, .refl _, rfl⟩
  -- what was told is what was booked and, on top, the repeats
  obtain ⟨booked, journaled⟩ := opening.run venue events
  have netted : desk.orderMgr.Netted booked := netted_withoutOrders.mp journaled.netted
  have reported : desk.reported.Perm (booked ++ repeats) := journaled.reported
  constructor
  · have gained : settledCents desk.reported ticker result =
        settledCents booked ticker result + settledCents repeats ticker result := fillsOn_sum reported ticker _
    rw [truth_reported, Option.map_some, Option.some_inj, netted.settledWorth journaled.positive, gained,
      div_mul_cancel₀ _ (by norm_num), add_eq_left]
  · have moved : carriedUnits desk.reported ticker = carriedUnits booked ticker + carriedUnits repeats ticker :=
      fillsOn_sum reported ticker _
    rw [carried_reported, contracts_eq, netted.carriedUnits, moved]
    constructor
    · intro same
      have units : ((carriedUnits booked ticker + carriedUnits repeats ticker : Int) : ℚ) =
        carriedUnits booked ticker :=
        (div_left_inj' (by norm_num)).mp same
      have whole := Int.cast_injective units
      omega
    · intro nothing
      rw [nothing, add_zero]

end

/-- Ten YES at 48, closed by ten NO at 50. The feed tells of the closing execution without a trade id before the
flatten is recorded: it is booked once and logged twice. -/
theorem offline_truth_counts_twice :
    let bought : Fill ℚ :=
      { tradeId := "trade-1", orderId := "order-1", marketTicker := "M", side := .yes, priceCents := 48,
        quantity := ⟨1000⟩, feeCents := 0, isTaker := false, timestamp := 1000000 }
    let closing : Order :=
      { id := "order-2", marketTicker := "M", side := .no, priceCents := 99, quantity := ⟨1000⟩,
        filledQuantity := ⟨1000⟩, averageFillPriceCents := 50, createdAt := 2000000 }
    let start : Process ℚ Script := .start { tickers := ["M"] } {} {} {} none none true false
    let desk := (start.run ⟨⟨"exchange"⟩, Script.host⟩
      [.fill bought, .fill (flattenFill closing), .recordFlatten closing]).desk
    let log := desk.analyticsLog fun _ => 0
    desk.orderMgr.settledWorth "M" .yes = 20 ∧ SettlementJoin.truth log "M" .yes = some (-24 / 5) ∧
      (desk.orderMgr.netPosition "M").contracts = (0 : ℚ) ∧ SettlementJoin.carried log "M" = -10 := by
  decide +kernel

end Kalshi
