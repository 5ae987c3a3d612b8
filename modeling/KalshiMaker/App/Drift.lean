import KalshiMaker.App.Reconcile
import KalshiMaker.Engine.Steps

/-! What a session has booked of its executions, and what a reconciliation makes of the rest. -/
namespace Kalshi

open Effect Eff Relation

variable {F X : Type} [Floating F]

/-! ### Executions booked and executions missed -/

namespace Executed

def among (keys : List String) (executions : List (Executed F)) : List (Executed F) :=
  executions.filter fun execution => decide (execution.key ∈ keys)

def missed (keys : List String) (executions : List (Executed F)) : List (Executed F) :=
  executions.filter fun execution => decide (execution.key ∉ keys)

theorem net_append (first second : List (Executed F)) (ticker : Ticker) :
    net (first ++ second) ticker = net first ticker + net second ticker := by
  simp [net]

theorem net_eq_zero {executions : List (Executed F)} {ticker : Ticker}
    (absent : ticker ∉ executions.map Executed.ticker) : net executions ticker = 0 := by
  induction executions with
  | nil => rfl
  | cons execution executions ih =>
    simp only [List.map_cons, List.mem_cons, not_or] at absent
    have rest := ih absent.2
    unfold net at rest ⊢
    rw [List.map_cons, List.sum_cons, rest, if_neg (Ne.symm absent.1)]
    rfl

/-- A key that none of the executions has makes no difference to them. -/
theorem among_cons_absent {executions : List (Executed F)} {key : String} (keys : List String)
    (absent : key ∉ executions.map Executed.key) : among (key :: keys) executions = among keys executions := by
  apply List.filter_congr
  intro execution member
  have other : execution.key ≠ key := fun same => absent (List.mem_map.mpr ⟨execution, member, same⟩)
  simp [other]

/-- What the executions on a market are worth together. -/
def tally {M : Type} [AddCommMonoid M] (worth : Executed F → M) (executions : List (Executed F))
    (ticker : Ticker) : M :=
  (executions.map fun execution => if execution.ticker = ticker then worth execution else 0).sum

theorem tally_cons {M : Type} [AddCommMonoid M] (worth : Executed F → M) (execution : Executed F)
    (executions : List (Executed F)) (ticker : Ticker) :
    tally worth (execution :: executions) ticker =
      (if execution.ticker = ticker then worth execution else 0) + tally worth executions ticker := by
  simp [tally]

/-- One more booked execution adds what it is worth. -/
theorem tally_among_cons {M : Type} [AddCommMonoid M] (worth : Executed F → M) {executions : List (Executed F)}
    (distinct : (executions.map Executed.key).Nodup) {execution : Executed F} (member : execution ∈ executions)
    {keys : List String} (unseen : execution.key ∉ keys) (ticker : Ticker) :
    tally worth (among (execution.key :: keys) executions) ticker =
      tally worth (among keys executions) ticker + if execution.ticker = ticker then worth execution else 0 := by
  induction executions with
  | nil => cases member
  -- the keys are distinct, so the new one books at most one of the executions: the head, or one further back
  | cons other executions ih =>
    rw [List.map_cons, List.nodup_cons] at distinct
    have split : ∀ keys, tally worth (among keys (other :: executions)) ticker =
        (if other.key ∈ keys then if other.ticker = ticker then worth other else 0 else 0) +
          tally worth (among keys executions) ticker := by
      intro keys
      unfold among
      by_cases here : other.key ∈ keys
      · simp [here, tally]
      · simp [here]
    rw [split, split]
    by_cases first : other.key = execution.key
    · have same : other = execution := by
        rcases List.mem_cons.mp member with same | later
        · exact same.symm
        · exact absurd (List.mem_map.mpr ⟨execution, later, first.symm⟩) distinct.1
      subst same
      rw [among_cons_absent keys distinct.1, if_pos (List.mem_cons_self ..), if_neg unseen, zero_add, add_comm]
    · have later : execution ∈ executions := by
        rcases List.mem_cons.mp member with same | later
        · exact absurd (congrArg Executed.key same.symm) first
        · exact later
      rw [ih distinct.2 later]
      simp only [List.mem_cons, first, false_or]
      rw [add_assoc]

/-- Executions are booked or missed. -/
theorem tally_among {M : Type} [AddCommMonoid M] (worth : Executed F → M) (keys : List String)
    (executions : List (Executed F)) (ticker : Ticker) :
    tally worth executions ticker =
      tally worth (among keys executions) ticker + tally worth (missed keys executions) ticker := by
  induction executions with
  | nil => simp [tally, among, missed]
  | cons execution executions ih =>
    unfold among missed at ih ⊢
    by_cases booked : execution.key ∈ keys
    · rw [List.filter_cons_of_pos (by simp [booked]), List.filter_cons_of_neg (by simp [booked]), tally_cons,
        tally_cons, ih, add_assoc]
    · rw [List.filter_cons_of_neg (by simp [booked]), List.filter_cons_of_pos (by simp [booked]), tally_cons,
        tally_cons, ih, add_left_comm]

end Executed

open Ledger Executed

/-- What the local accounting knows of the executions: each booked execution is among them and counted once, and no
market outside the tracked universe has a position. -/
structure Ledger.Booked (L : Ledger F) (executions : List (Executed F)) : Prop where
  distinct : (executions.map Executed.key).Nodup
  known : ∀ key ∈ L.orderMgr.seenFills, key ∈ executions.map Executed.key
  valid : ∀ execution ∈ executions, execution.key ∈ L.orderMgr.seenFills →
    OrderManager.checkFill execution.record = .ok ()
  counted : ∀ ticker, (L.orderMgr.netPosition ticker).centi = net (among L.orderMgr.seenFills executions) ticker
  flat : ∀ ticker, ticker ∉ L.tickers → (L.orderMgr.netPosition ticker).centi = 0

namespace Ledger

variable {L L' : Ledger F} {executions : List (Executed F)}

theorem quoteStep_books {ticker : Ticker} (step : QuoteStep ticker L L') :
    ∃ openOrders, L'.orderMgr = { L.orderMgr with openOrders } := by
  cases step with
  | amended _ _ => exact OrderManager.amended_books _ _ _ _
  | placed _ _ _ _ _ | placeFailed _ | amendFailed _ | released | forgotten _ | kept => exact ⟨_, rfl⟩

/-- Where no fill and no flatten is booked, the orders alone change. -/
theorem step_books {action : Action F} (step : Step L action L') (unfilled : ∀ fill, action ≠ .fill fill)
    (unflattened : ∀ fill, action ≠ .flatten fill) : ∃ openOrders, L'.orderMgr = { L.orderMgr with openOrders } := by
  cases step with
  | quote step => exact quoteStep_books step
  | fill _ _ _ | refill => exact absurd rfl (unfilled _)
  | flatten _ _ | reflatten => exact absurd rfl (unflattened _)
  | sweepAll _ | sweep _ | cancel => exact OrderManager.afterCancels_books _ _
  | raise _ | clear | resume | track _ | untrack _ _ _ | forget _ => exact ⟨_, rfl⟩

/-- Only flat markets are given up. -/
theorem step_flat {action : Action F} (step : Step L action L') :
    ∀ ticker ∈ L.tickers, ticker ∈ L'.tickers ∨ (L.orderMgr.netPosition ticker).centi = 0 := by
  intro ticker tracked
  cases step with
  | quote step =>
    left
    rw [quoteStep_tickers step]
    exact tracked
  | fill _ _ _ =>
    left
    rw [forgetFilled_tickers]
    exact tracked
  | refill | flatten _ _ | reflatten | sweepAll _ | sweep _ | cancel | raise _ | clear | resume | forget _ =>
    exact .inl tracked
  | track _ => exact .inl (List.mem_append_left _ tracked)
  | @untrack dropped _ flat _ =>
    by_cases same : ticker = dropped
    · subst same
      exact .inr ((Quantity.isZero_iff _).mp flat)
    · exact .inl (List.mem_filter.mpr ⟨tracked, by simpa using same⟩)

theorem Booked.initial (empty : L.orderMgr = .empty) : L.Booked [] := by
  constructor
  · exact List.nodup_nil
  · rw [empty]
    exact fun _ seen => absurd seen List.not_mem_nil
  · exact fun _ member => absurd member List.not_mem_nil
  · rw [empty]
    exact fun _ => rfl
  · rw [empty]
    exact fun _ _ => rfl

/-- Other orders, and fewer markets as long as those given up are flat. -/
theorem Booked.of_books (booked : L.Booked executions) {openOrders : OrderMap}
    (books : L'.orderMgr = { L.orderMgr with openOrders })
    (kept : ∀ ticker ∈ L.tickers, ticker ∈ L'.tickers ∨ (L.orderMgr.netPosition ticker).centi = 0) :
    L'.Booked executions := by
  have position : L'.orderMgr.netPosition = L.orderMgr.netPosition := by rw [books]
  have seen : L'.orderMgr.seenFills = L.orderMgr.seenFills := by rw [books]
  constructor
  · exact booked.distinct
  · rw [seen]
    exact booked.known
  · rw [seen]
    exact booked.valid
  · rw [position, seen]
    exact booked.counted
  · intro ticker untracked
    rw [position]
    by_cases before : ticker ∈ L.tickers
    · exact (kept ticker before).resolve_left untracked
    · exact booked.flat ticker before

theorem Booked.step (booked : L.Booked executions) {action : Action F} (step : Step L action L')
    (unfilled : ∀ fill, action ≠ .fill fill) (unflattened : ∀ fill, action ≠ .flatten fill) :
    L'.Booked executions := by
  obtain ⟨openOrders, books⟩ := step_books step unfilled unflattened
  exact booked.of_books books (step_flat step)

theorem Booked.executed (booked : L.Booked executions) {execution : Executed F}
    (new : execution.key ∉ executions.map Executed.key) : L.Booked (executions ++ [execution]) := by
  have unseen : execution.key ∉ L.orderMgr.seenFills := fun seen => new (booked.known _ seen)
  have same : among L.orderMgr.seenFills (executions ++ [execution]) = among L.orderMgr.seenFills executions := by
    simp [among, unseen]
  constructor
  · rw [List.map_append, List.map_singleton]
    exact List.nodup_append.mpr ⟨booked.distinct, List.nodup_singleton _, by
      intro key member other last same
      rw [List.mem_singleton.mp last] at same
      exact new (same ▸ member)⟩
  · intro key seen
    rw [List.map_append]
    exact List.mem_append_left _ (booked.known key seen)
  · intro other member seen
    rcases List.mem_append.mp member with before | last
    · exact booked.valid other before seen
    · rw [List.mem_singleton.mp last] at seen
      exact absurd seen unseen
  · intro ticker
    rw [same]
    exact booked.counted ticker
  · exact booked.flat

/-- A session booked under some executions is booked under any that come after them. -/
theorem Booked.later (booked : L.Booked executions) {later : List (Executed F)}
    (distinct : ((executions ++ later).map Executed.key).Nodup) : L.Booked (executions ++ later) := by
  induction later generalizing executions with
  | nil =>
    rw [List.append_nil]
    exact booked
  | cons execution later ih =>
    rw [List.append_cons] at distinct ⊢
    apply ih _ distinct
    apply booked.executed
    rw [List.map_append, List.map_append] at distinct
    have front := (List.nodup_append.mp distinct).1
    intro member
    exact (List.nodup_append.mp front).2.2 _ member _ (List.mem_singleton.mpr rfl) rfl

/-- A fill that announces an execution is booked with it, if it was new. -/
theorem Booked.recorded (booked : L.Booked executions) {execution : Executed F} (member : execution ∈ executions)
    {fill : Fill F} (sameKey : OrderManager.fillKey fill = execution.key)
    (sameTerms : fill.terms = execution.record.terms)
    (valid : OrderManager.checkFill fill = .ok ()) (fresh : OrderManager.fillKey fill ∉ L.orderMgr.seenFills)
    (tracked : fill.marketTicker ∈ L.tickers) (sameTickers : L'.tickers = L.tickers)
    (sameOrders : L'.orderMgr = L.orderMgr.bookFill fill) : L'.Booked executions := by
  have market : fill.marketTicker = execution.ticker := congrArg Prod.fst sameTerms
  have side : fill.side = execution.record.side := congrArg (fun terms => terms.2.2.1) sameTerms
  have quantity : fill.quantity = execution.record.quantity := congrArg (fun terms => terms.2.2.2.2.1) sameTerms
  have price : fill.priceCents = execution.record.priceCents := congrArg (fun terms => terms.2.2.2.1) sameTerms
  have seen : L'.orderMgr.seenFills = execution.key :: L.orderMgr.seenFills := by
    rw [sameOrders, OrderManager.bookFill_seenFills, sameKey]
  constructor
  · exact booked.distinct
  · rw [seen]
    intro key among
    rcases List.mem_cons.mp among with rfl | before
    · exact List.mem_map_of_mem member
    · exact booked.known key before
  · rw [seen]
    intro other among booking
    rcases List.mem_cons.mp booking with same | before
    -- distinct keys: what is filed under this key is this execution
    · have itself : other = execution := List.inj_on_of_nodup_map booked.distinct among member same
      rw [itself]
      unfold OrderManager.checkFill at valid ⊢
      rw [price, quantity] at valid
      exact valid
    · exact booked.valid other among before
  · intro ticker
    have more : net (among (execution.key :: L.orderMgr.seenFills) executions) ticker =
        net (among L.orderMgr.seenFills executions) ticker +
          if execution.ticker = ticker then execution.signed else 0 :=
      tally_among_cons Executed.signed booked.distinct member (sameKey ▸ fresh) ticker
    rw [seen, more, ← booked.counted ticker, sameOrders, OrderManager.bookFill_netPosition, market, side, quantity]
    by_cases here : ticker = execution.ticker
    · simp [here, signed]
    · simp [here, Ne.symm here]
  -- only a tracked market gained a fill
  · intro ticker untracked
    rw [sameTickers] at untracked
    have other : ticker ≠ fill.marketTicker := fun same => untracked (same ▸ tracked)
    rw [sameOrders, OrderManager.bookFill_netPosition, if_neg other, booked.flat ticker untracked]
    rfl

end Ledger

/-! ### Announcements -/

open TradingSession

section

variable {executions : List (Executed F)} {execution : Executed F} {fill : Fill F} {s : Desk F X}

theorem onFill_booked (booked : s.ledger.Booked executions) (member : execution ∈ executions)
    (sameKey : OrderManager.fillKey fill = execution.key) (sameTerms : fill.terms = execution.record.terms) :
    (onFill fill s).2.ledger.Booked executions := by
  rcases onFill_cases fill s with ⟨same, _⟩ | ⟨refilled, _⟩ | ⟨_, valid, tracked, fresh, filled⟩
  · rw [same]
    exact booked
  · rw [refilled]
    exact ⟨booked.distinct, booked.known, booked.valid, booked.counted, booked.flat⟩
  · apply booked.recorded member sameKey sameTerms valid fresh tracked
    · rw [filled]
      exact forgetFilled_tickers _ _ _
    · rw [filled]
      exact forgetFilled_orderMgr _ _ _

end

namespace Live

variable {executions : List (Executed F)} {fill : Fill F} {fetched : List (Fill F)} {live : Live F X}

theorem replayFills_untracked (untracked : fill.marketTicker ∉ live.desk.session.tickers) (replayed : Int) :
    replayFills (fill :: fetched) replayed live = replayFills fetched replayed live := by
  simp [replayFills, isTracked, untracked]

theorem replayFills_ok (tracked : fill.marketTicker ∈ live.desk.session.tickers) {new : Bool} {desk : Desk F X}
    (done : TradingSession.onFill fill live.desk = (.ok new, desk)) (replayed : Int) :
    replayFills (fill :: fetched) replayed live =
      replayFills fetched (if new then replayed + 1 else replayed)
        { desk, lastFillTime := max live.lastFillTime fill.timestamp } := by
  simp [replayFills, isTracked, tracked, onDesk, done]

theorem replayFills_error (tracked : fill.marketTicker ∈ live.desk.session.tickers) {stop : Stop String}
    {desk : Desk F X}
    (failed : TradingSession.onFill fill live.desk = (.error stop, desk)) (replayed : Int) :
    replayFills (fill :: fetched) replayed live = (.error stop, { live with desk }) := by
  simp [replayFills, isTracked, tracked, onDesk, failed]

/-- Whatever a replay of executions does, and wherever it stops, the accounting stays true. -/
theorem replayFills_booked (booked : live.desk.ledger.Booked executions)
    (records : ∀ fill ∈ fetched, fill ∈ executions.map Executed.record) (replayed : Int) :
    (replayFills fetched replayed live).2.desk.ledger.Booked executions := by
  induction fetched generalizing live replayed with
  | nil => exact booked
  | cons fill fetched ih =>
    have later : ∀ fill ∈ fetched, fill ∈ executions.map Executed.record :=
      fun other member => records other (List.mem_cons_of_mem _ member)
    by_cases tracked : fill.marketTicker ∈ live.desk.session.tickers
    · obtain ⟨execution, member, same⟩ := List.mem_map.mp (records fill (List.mem_cons_self ..))
      have next : (TradingSession.onFill fill live.desk).2.ledger.Booked executions :=
        onFill_booked booked member (congrArg OrderManager.fillKey same.symm) (congrArg Fill.terms same.symm)
      cases h : TradingSession.onFill fill live.desk with
      | mk result desk =>
        rw [h] at next
        cases result with
        | ok new =>
          rw [replayFills_ok tracked h]
          exact ih next later _
        | error stop =>
          rw [replayFills_error tracked h]
          exact next
    · rw [replayFills_untracked tracked]
      exact ih booked later _

/-- The desk after a replay that came to its end: what was fetched of tracked markets is on file. -/
structure Replayed (fetched : List (Fill F)) (before after : Desk F X) : Prop where
  tickers : after.session.tickers = before.session.tickers
  outside : after.outside = before.outside
  filed : ∀ key, key ∈ after.orderMgr.seenFills ↔ key ∈ before.orderMgr.seenFills ∨
    ∃ fill ∈ fetched, fill.marketTicker ∈ before.session.tickers ∧ OrderManager.fillKey fill = key

/-- A replay comes to its end exactly if every fill of a tracked market is sound. -/
theorem replayFills_cases (fetched : List (Fill F)) (replayed : Int) (live : Live F X) :
    ((∃ fill ∈ fetched, fill.marketTicker ∈ live.desk.session.tickers ∧ OrderManager.checkFill fill ≠ .ok ()) ∧
      ∃ what, (replayFills fetched replayed live).1 = .error (.abort what)) ∨
    (∀ fill ∈ fetched, fill.marketTicker ∈ live.desk.session.tickers → OrderManager.checkFill fill = .ok ()) ∧
      (∃ total, replayed ≤ total ∧ (replayFills fetched replayed live).1 = .ok total) ∧
      Replayed fetched live.desk (replayFills fetched replayed live).2.desk := by
  -- on_fill files a sound fill of a tracked market, aborts on an unsound one and passes over the rest
  induction fetched generalizing live replayed with
  | nil => exact .inr ⟨by simp, ⟨replayed, le_refl _, rfl⟩, rfl, rfl, by simp [replayFills]⟩
  | cons fill fetched ih =>
    by_cases tracked : fill.marketTicker ∈ live.desk.session.tickers
    · by_cases valid : OrderManager.checkFill fill = .ok ()
      · obtain ⟨⟨new, done⟩, filed⟩ := onFill_files valid tracked
        have market := onFill_market fill live.desk
        have outside : (TradingSession.onFill fill live.desk).2.outside = live.desk.outside := congrArg Prod.fst market
        have session : (TradingSession.onFill fill live.desk).2.session = live.desk.session :=
          congrArg (fun market => market.2.1) market
        cases h : TradingSession.onFill fill live.desk with
        | mk result desk =>
          rw [h] at done filed outside session
          cases done
          rw [replayFills_ok tracked h]
          dsimp only at outside session
          have rest := ih (if new then replayed + 1 else replayed)
            { desk, lastFillTime := max live.lastFillTime fill.timestamp }
          dsimp only at rest
          rw [session] at rest
          rcases rest with ⟨⟨other, member, here, invalid⟩, stopped⟩ | ⟨sound, ⟨total, more, ended⟩, after⟩
          · exact .inl ⟨⟨other, List.mem_cons_of_mem _ member, here, invalid⟩, stopped⟩
          · refine .inr ⟨?_, ⟨total, ?_, ended⟩, ?_, ?_, ?_⟩
            · intro other member here
              rcases List.mem_cons.mp member with rfl | later
              · exact valid
              · exact sound other later here
            · split at more <;> omega
            · rw [after.tickers, session]
            · rw [after.outside, outside]
            -- on file after: filed before, this fill, or one replayed later
            · intro key
              rw [after.filed, filed, session, List.exists_mem_cons_iff]
              constructor
              · rintro ((rfl | before) | later)
                · exact .inr (.inl ⟨tracked, rfl⟩)
                · exact .inl before
                · exact .inr (.inr later)
              · rintro (before | ⟨_, rfl⟩ | later)
                · exact .inl (.inr before)
                · exact .inl (.inl rfl)
                · exact .inr later
      · left
        refine ⟨⟨fill, List.mem_cons_self .., tracked, valid⟩, ?_⟩
        obtain ⟨what, aborted⟩ := (onFill_aborts_iff fill live.desk).mpr ⟨tracked, valid⟩
        refine ⟨what, ?_⟩
        rw [replayFills_error tracked (Prod.ext aborted rfl)]
    · rw [replayFills_untracked tracked]
      rcases ih replayed live with ⟨⟨other, member, here, invalid⟩, stopped⟩ | ⟨sound, ended, after⟩
      · exact .inl ⟨⟨other, List.mem_cons_of_mem _ member, here, invalid⟩, stopped⟩
      · refine .inr ⟨?_, ended, after.tickers, after.outside, ?_⟩
        · intro other member here
          rcases List.mem_cons.mp member with rfl | later
          · exact absurd here tracked
          · exact sound other later here
        · intro key
          rw [after.filed, List.exists_mem_cons_iff]
          constructor
          · exact Or.imp_right .inr
          · rintro (before | ⟨here, _⟩ | later)
            · exact .inl before
            · exact absurd here tracked
            · exact .inr later

end Live

/-! ### The session so far -/

theorem Event.permits_fill {event : Event F} {fill : Fill F} (permitted : event.permits (.fill fill)) :
    event = .fill fill := by
  cases event <;> simp [Event.permits] at permitted
  exact congrArg Event.fill permitted.symm

theorem Event.permits_flatten {event : Event F} {fill : Fill F} (permitted : event.permits (.flatten fill)) :
    ∃ order, event = .recordFlatten order := by
  cases event <;> simp [Event.permits] at permitted
  exact ⟨_, rfl⟩

theorem AccountTurn.booked {venue : Venue X} {before after : List (Executed F) × Live F X}
    (turn : AccountTurn venue before after) (booked : before.2.desk.ledger.Booked before.1) :
    after.2.desk.ledger.Booked after.1 := by
  cases turn with
  | executed execution new => exact booked.executed new
  | announced execution among =>
    dsimp only
    rw [Live.onFill_desk]
    exact onFill_booked booked among execution.sameKey.symm execution.sameTerms.symm
  | replayed execution among =>
    apply Live.replayFills_booked booked
    intro fill member
    rw [List.mem_singleton.mp member]
    exact List.mem_map_of_mem among
  | @event executions live event fills flattens =>
    refine chain_invariant (fun L => L.Booked executions) ?_ (handle_leads venue event live.desk) booked
    rintro L L' ⟨action, permitted, step⟩ booked
    apply booked.step step
    · rintro fill rfl
      exact fills fill (Event.permits_fill permitted)
    · rintro fill rfl
      obtain ⟨order, flattened⟩ := Event.permits_flatten permitted
      exact flattens order flattened

/-- The accounting is true of a session that began with an empty one. -/
theorem AccountTurn.run_booked {venue : Venue X} {start live : Live F X} {executions : List (Executed F)}
    (empty : start.desk.orderMgr = .empty)
    (run : ReflTransGen (AccountTurn venue) ([], start) (executions, live)) : live.desk.ledger.Booked executions :=
  chain_invariant (fun state : List (Executed F) × Live F X => state.2.desk.ledger.Booked state.1)
    (fun _ _ turn => turn.booked) run (Ledger.Booked.initial empty)

/-! ### The comparison -/

theorem positionIn_nonzero {positions : List MarketPosition} {ticker : Ticker}
    (nonzero : (positionIn positions ticker).centi ≠ 0) :
    ∃ position ∈ positions, position.ticker = ticker ∧ position.position.isZero = false := by
  unfold positionIn at nonzero
  cases last : (positions.filter fun position => position.ticker == ticker).getLast? with
  | none =>
    rw [last] at nonzero
    exact absurd rfl nonzero
  | some position =>
    rw [last] at nonzero
    obtain ⟨member, here⟩ := List.mem_filter.mp (List.mem_of_getLast? last)
    refine ⟨position, member, beq_iff_eq.mp here, ?_⟩
    rw [Bool.eq_false_iff, Ne, Quantity.isZero_iff]
    exact nonzero

/-- No part of the baseline counts on a tracked market. -/
theorem countedBaseline_tracked {tickers : List Ticker} {ticker : Ticker} (tracked : ticker ∈ tickers)
    (baseline : List MarketPosition) : (positionIn (countedBaseline tickers baseline) ticker).centi = 0 := by
  by_contra nonzero
  obtain ⟨position, member, on, _⟩ := positionIn_nonzero nonzero
  have outside := (List.mem_filter.mp member).2
  rw [on] at outside
  simp [tracked] at outside

/-- Local accounting and baseline together come to what the exchange holds. -/
def Agrees (om : OrderManager F) (tickers : List Ticker) (baseline : List MarketPosition)
    (held : Ticker → Int) : Prop :=
  ∀ ticker, (om.netPosition ticker).centi + (positionIn (countedBaseline tickers baseline) ticker).centi = held ticker

omit [Floating F] in
theorem positionDiff_eq_none (om : OrderManager F) (tickers : List Ticker) (exchange baseline : List MarketPosition)
    (ticker : Ticker) : positionDiff om tickers exchange baseline ticker = none ↔
      (om.netPosition ticker).centi + (positionIn (countedBaseline tickers baseline) ticker).centi =
        (positionIn exchange ticker).centi := by
  unfold positionDiff
  simp only [ne_eq, ite_not, ite_eq_left_iff, reduceCtorEq, imp_false, not_not]
  exact ⟨congrArg Quantity.centi, Quantity.ext_centi⟩

/-- A market that is not checked is untracked, and has no position at the exchange or in the baseline. -/
theorem unchecked_flat {tickers : List Ticker} {exchange baseline : List MarketPosition} {ticker : Ticker}
    (unchecked : ticker ∉ toCheck tickers exchange baseline) :
    ticker ∉ tickers ∧ (positionIn exchange ticker).centi = 0 ∧
      (positionIn (countedBaseline tickers baseline) ticker).centi = 0 := by
  simp only [toCheck, List.mem_dedup, List.mem_append, not_or] at unchecked
  obtain ⟨⟨untracked, unlisted⟩, unexcused⟩ := unchecked
  refine ⟨untracked, ?_, ?_⟩
  · by_contra nonzero
    obtain ⟨position, member, on, moved⟩ := positionIn_nonzero nonzero
    exact unlisted (List.mem_map.mpr ⟨position, List.mem_filter.mpr ⟨member, by simp [moved]⟩, on⟩)
  · by_contra nonzero
    obtain ⟨position, member, on, _⟩ := positionIn_nonzero nonzero
    exact unexcused (List.mem_map.mpr ⟨position, member, on⟩)

omit [Floating F] in
theorem mem_reconcile_diffs (om : OrderManager F) (tickers : List Ticker) (exchange baseline : List MarketPosition)
    (diff : PositionDiff) : diff ∈ (reconcile om tickers exchange baseline).diffs ↔
      ∃ ticker ∈ toCheck tickers exchange baseline, positionDiff om tickers exchange baseline ticker = some diff := by
  unfold reconcile
  rw [List.mem_insertionSort, List.mem_filterMap]

omit [Floating F] in
theorem reconcile_inSync (om : OrderManager F) (tickers : List Ticker) (exchange baseline : List MarketPosition) :
    (reconcile om tickers exchange baseline).inSync = true ↔
      ∀ ticker ∈ toCheck tickers exchange baseline, positionDiff om tickers exchange baseline ticker = none := by
  have empty : (reconcile om tickers exchange baseline).inSync = true ↔
      (reconcile om tickers exchange baseline).diffs = [] := List.isEmpty_iff
  rw [empty, List.eq_nil_iff_forall_not_mem]
  simp only [mem_reconcile_diffs, not_exists, not_and, Option.eq_none_iff_forall_ne_some]
  exact ⟨fun missing ticker due diff => missing diff ticker due, fun missing diff ticker due =>
    missing ticker due diff⟩

omit [Floating F] in
/-- The comparison looks at every market that could disagree. -/
theorem reconcile_inSync_iff {om : OrderManager F} {tickers : List Ticker} {exchange : List MarketPosition}
    (baseline : List MarketPosition) {held : Ticker → Int}
    (flat : ∀ ticker, ticker ∉ tickers → (om.netPosition ticker).centi = 0)
    (told : ∀ ticker, (positionIn exchange ticker).centi = held ticker) :
    (reconcile om tickers exchange baseline).inSync = true ↔ Agrees om tickers baseline held := by
  rw [reconcile_inSync]
  unfold Agrees
  simp only [positionDiff_eq_none, told]
  refine ⟨fun checked ticker => ?_, fun agrees ticker _ => agrees ticker⟩
  by_cases due : ticker ∈ toCheck tickers exchange baseline
  · exact checked ticker due
  · obtain ⟨untracked, exchangeFlat, baselineFlat⟩ := unchecked_flat due
    rw [flat ticker untracked, baselineFlat, ← told, exchangeFlat]
    rfl

/-! ### The procedure -/

namespace Executed

/-- Where all executions on a market are booked, they count in full. -/
theorem net_among {executions : List (Executed F)} {ticker : Ticker} {keys : List String}
    (all : ∀ execution ∈ executions, execution.ticker = ticker → execution.key ∈ keys) :
    net (among keys executions) ticker = net executions ticker := by
  induction executions with
  | nil => rfl
  | cons execution executions ih =>
    have rest := ih fun other member => all other (List.mem_cons_of_mem _ member)
    have here := all execution (List.mem_cons_self ..)
    unfold among net at rest ⊢
    by_cases booked : execution.key ∈ keys
    · rw [List.filter_cons_of_pos (by simp [booked]), List.map_cons, List.sum_cons, rest, List.map_cons, List.sum_cons]
    · have other : execution.ticker ≠ ticker := fun on => booked (here on)
      rw [List.filter_cons_of_neg (by simp [booked]), rest, List.map_cons, List.sum_cons, if_neg other, zero_add]

end Executed

/-- All executions booked, and the markets outside the tracked universe left at their baseline: what the exchange
should hold. -/
def Explains (executions : List (Executed F)) (tickers : List Ticker) (baseline : List MarketPosition)
    (held : Ticker → Int) : Prop :=
  (∀ ticker ∈ tickers, net executions ticker = held ticker) ∧
    ∀ ticker, ticker ∉ tickers → (positionIn (countedBaseline tickers baseline) ticker).centi = held ticker

namespace Live

/-- The session is in sync with what the exchange holds. -/
def InSync (live : Live F X) (baseline : List MarketPosition) (held : Ticker → Int) : Prop :=
  Agrees live.desk.orderMgr live.desk.session.tickers baseline held

/-- A reconciliation that leaves the session in sync and free of a drift halt. -/
structure Healed (baseline : List MarketPosition) (held : Ticker → Int)
    (after : Except (Stop String) Bool × Live F X) :
    Prop where
  returned : after.1 = .ok true
  clear : after.2.desk.riskMgr.isSet .kModelDiverge = false
  inSync : after.2.InSync baseline held

theorem backInSync_healed {live : Live F X} {baseline : List MarketPosition} {held : Ticker → Int}
    (inSync : live.InSync baseline held) : Healed baseline held (backInSync live) := by
  unfold backInSync
  rw [bind_apply, get_apply, andThen_ok]
  cases set : live.desk.riskMgr.isSet .kModelDiverge with
  | false => exact ⟨rfl, set, inSync⟩
  | true => exact ⟨rfl, by simp [onDesk, Desk.mapRisk, RiskManager.isSet], inSync⟩

theorem driftHalt_run (live : Live F X) :
    (driftHalt live).1 = .ok false ∧ (driftHalt live).2.desk.riskMgr.isSet .kModelDiverge = true := by
  simp [driftHalt, onDesk, Desk.mapRisk, RiskManager.isSet, RiskManager.set]

/-- Some execution on a tracked market fails the checks of a fill. -/
def Unsound (live : Live F X) (executions : List (Executed F)) : Prop :=
  ∃ execution ∈ executions, execution.ticker ∈ live.desk.session.tickers ∧
    OrderManager.checkFill execution.record ≠ .ok ()

/-- How a reconciliation ends that reads `first`, then the executions, then `second`. -/
inductive Ends (live : Live F X) (baseline : List MarketPosition) (first second : Ticker → Int)
    (executions : List (Executed F)) (after : Except (Stop String) Bool × Live F X) : Prop where
  | agreed (agrees : live.InSync baseline first) (healed : Healed baseline first after)
  | stopped (differs : ¬ live.InSync baseline first) (unsound : live.Unsound executions) (what : String)
      (result : after.1 = .error (.abort what))
  | healed (differs : ¬ live.InSync baseline first) (sound : ¬ live.Unsound executions)
      (explains : Explains executions live.desk.session.tickers baseline second)
        (healed : Healed baseline second after)
  | halted (differs : ¬ live.InSync baseline first) (sound : ¬ live.Unsound executions)
      (unexplained : ¬ Explains executions live.desk.session.tickers baseline second) (result : after.1 = .ok false)
      (set : after.2.desk.riskMgr.isSet .kModelDiverge = true)

theorem comparedAgain_run {account : Account F X} (baseline : List MarketPosition) {live : Live F X}
    {held : Ticker → Int} (told : account.TellsPositions held live.desk.outside)
    (flat : ∀ ticker, ticker ∉ live.desk.session.tickers → (live.desk.orderMgr.netPosition ticker).centi = 0) :
    (live.InSync baseline held ∧ Healed baseline held (comparedAgain account baseline live)) ∨
      ¬ live.InSync baseline held ∧ (comparedAgain account baseline live).1 = .ok false ∧
        (comparedAgain account baseline live).2.desk.riskMgr.isSet .kModelDiverge = true := by
  obtain ⟨exchange, read, told⟩ := told
  have inSync : _ ↔ live.InSync baseline held := reconcile_inSync_iff baseline flat told
  unfold comparedAgain
  simp only [bind_apply, fetch, read, Except.toOption, andThen_ok, compare, get_apply, pure_apply]
  cases result : (reconcile live.desk.orderMgr live.desk.session.tickers exchange baseline).inSync with
  | true => exact .inl ⟨inSync.mp result, backInSync_healed (inSync.mp result)⟩
  | false =>
    rw [if_neg Bool.false_ne_true]
    refine .inr ⟨fun agrees => ?_, driftHalt_run _⟩
    rw [inSync.mpr agrees] at result
    cases result

/-- A replay that came to its end has booked every execution on the tracked markets. -/
theorem agrees_replayed {executions : List (Executed F)} {fetched : List (Fill F)} {before after : Desk F X}
    (listed : ∀ fill, fill ∈ fetched ↔ fill ∈ executions.map Executed.record)
    (replayed : Replayed fetched before after)
    (booked : after.ledger.Booked executions) (baseline : List MarketPosition) (held : Ticker → Int) :
    Agrees after.orderMgr after.session.tickers baseline held ↔
      Explains executions before.session.tickers baseline held := by
  -- on a tracked market every execution is on file, so its position is the net of them all
  have tracked : ∀ ticker ∈ before.session.tickers,
      (after.orderMgr.netPosition ticker).centi = net executions ticker := by
    intro ticker here
    refine (booked.counted ticker).trans (net_among fun execution member on => ?_)
    apply (replayed.filed _).mpr
    refine .inr ⟨execution.record, (listed _).mpr (List.mem_map_of_mem member), ?_, rfl⟩
    rw [← on] at here
    exact here
  -- off it the session holds nothing, and what is held is the baseline's to explain
  have flat : ∀ ticker, ticker ∉ before.session.tickers → (after.orderMgr.netPosition ticker).centi = 0 := by
    intro ticker untracked
    apply booked.flat ticker
    change ticker ∉ after.session.tickers
    rw [replayed.tickers]
    exact untracked
  unfold Agrees Explains
  rw [replayed.tickers]
  constructor
  · intro agrees
    constructor
    · intro ticker here
      rw [← agrees ticker, tracked ticker here, countedBaseline_tracked here, add_zero]
    · intro ticker untracked
      rw [← agrees ticker, flat ticker untracked, zero_add]
  · rintro ⟨explains, left⟩ ticker
    by_cases here : ticker ∈ before.session.tickers
    · rw [tracked ticker here, countedBaseline_tracked here, add_zero]
      exact explains ticker here
    · rw [flat ticker here, zero_add]
      exact left ticker here

def movedTo (live : Live F X) (x : X) : Live F X := { live with desk := { live.desk with outside := x } }

theorem fetch_ok {α : Type} {read : X → Except String α × X} {live : Live F X} {answer : α}
    (told : (read live.desk.outside).1 = .ok answer) :
    fetch read live = (.ok (some answer), live.movedTo (read live.desk.outside).2) := by
  simp [fetch, told, Except.toOption, movedTo]

theorem backfillFills_ok {account : Account F X} {minTsSeconds : Int} {live : Live F X} {fetched : List (Fill F)}
    (listing : (account.getFills minTsSeconds live.desk.outside).1 = .ok fetched) :
    backfillFills account minTsSeconds live =
      replayFills fetched 0 (live.movedTo (account.getFills minTsSeconds live.desk.outside).2) := by
  unfold backfillFills
  rw [bind_apply, fetch_ok listing]
  rfl

/-- The outcome of a reconciliation whose reads all succeed. -/
theorem reconcileAgainstExchange_ends (account : Account F X) (baseline : List MarketPosition) (minTsSeconds : Int)
    {live : Live F X} {executions : List (Executed F)} (booked : live.desk.ledger.Booked executions)
    {first second : Ticker → Int} (tells : account.Tells minTsSeconds first second executions live.desk.outside) :
    Ends live baseline first second executions (reconcileAgainstExchange account baseline minTsSeconds live) := by
  obtain ⟨exchange, read, told⟩ := tells.before
  obtain ⟨fetched, listing, listed⟩ := tells.history
  have inSync : (reconcile live.desk.orderMgr live.desk.session.tickers exchange baseline).inSync = true ↔
      live.InSync baseline first := reconcile_inSync_iff baseline booked.flat told
  have unsound_iff : (∃ fill ∈ fetched, fill.marketTicker ∈ live.desk.session.tickers ∧
      OrderManager.checkFill fill ≠ .ok ()) ↔ live.Unsound executions := by
    simp only [listed, List.mem_map, exists_exists_and_eq_and]
    exact Iff.rfl
  unfold reconcileAgainstExchange
  rw [bind_apply, fetch_ok read, andThen_ok]
  simp only [bind_apply, compare, get_apply, andThen_ok, pure_apply]
  cases result : (reconcile live.desk.orderMgr live.desk.session.tickers exchange baseline).inSync with
  | true =>
    have branch : (reconcile (live.movedTo (account.getPositions live.desk.outside).2).desk.orderMgr
      (live.movedTo (account.getPositions live.desk.outside).2).desk.session.tickers exchange baseline).inSync =
        true := result
    rw [if_pos branch]
    exact .agreed (inSync.mp result) (backInSync_healed (inSync.mp result))
  | false =>
    have differs : ¬ live.InSync baseline first := by
      intro agrees
      rw [inSync.mpr agrees] at result
      cases result
    have branch : (reconcile (live.movedTo (account.getPositions live.desk.outside).2).desk.orderMgr
      (live.movedTo (account.getPositions live.desk.outside).2).desk.session.tickers exchange baseline).inSync ≠
        true := by
      change (reconcile live.desk.orderMgr live.desk.session.tickers exchange baseline).inSync ≠ true
      rw [result]
      exact Bool.false_ne_true
    rw [if_neg branch, bind_apply, backfillFills_ok listing]
    -- the two reads have moved the outside only
    generalize reached : (live.movedTo (account.getPositions live.desk.outside).2).movedTo _ = now
    have sameLedger : now.desk.ledger = live.desk.ledger := by rw [← reached]; rfl
    have sameSession : now.desk.session = live.desk.session := by rw [← reached]; rfl
    have outside : now.desk.outside = (account.getFills minTsSeconds
      (account.getPositions live.desk.outside).2).2 := by
      rw [← reached]; rfl
    have booked' : (replayFills fetched 0 now).2.desk.ledger.Booked executions :=
      replayFills_booked (sameLedger ▸ booked) (fun fill => (listed fill).mp) 0
    rcases replayFills_cases fetched 0 now with ⟨unsound, what, stopped⟩ | ⟨sound, ⟨total, counted, ended⟩, replayed⟩
    · rw [sameSession, unsound_iff] at unsound
      refine .stopped differs unsound what ?_
      cases ran : replayFills fetched 0 now with
      | mk answer after =>
        rw [ran] at stopped
        cases stopped
        rfl
    · have sound' : ¬ live.Unsound executions := by
        rw [← unsound_iff]
        rintro ⟨fill, member, tracked, unsound⟩
        rw [← sameSession] at tracked
        exact unsound (sound fill member tracked)
      have agrees := agrees_replayed listed replayed booked' baseline second
      rw [sameSession] at agrees
      cases ran : replayFills fetched 0 now with
      | mk answer after =>
        rw [ran] at ended replayed booked' agrees
        cases ended
        rw [andThen_ok, if_pos counted]
        have told' : account.TellsPositions second after.desk.outside := by
          rw [replayed.outside, outside]
          exact tells.after
        rcases comparedAgain_run baseline told' booked'.flat with ⟨agreed, healed⟩ | ⟨differed, result, set⟩
        · exact .healed differs sound' (agrees.mp agreed) healed
        · exact .halted differs sound' (fun explains => differed (agrees.mpr explains)) result set

end Live

end Kalshi
