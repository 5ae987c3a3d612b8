import KalshiMaker.App.MainLoop
import KalshiMaker.Properties.DriftHealing

/-! Which executions a reconnect recovers that the feed missed. -/
namespace Kalshi

open Effect Eff Relation Executed

variable {F X : Type} [Floating F]

namespace MainLoop

/-- From when on a reconnect asks for fills: a minute before the latest one, and not before the session. -/
def backfillFloor (config : MainConfig) (live : Live F X) : Int :=
  max config.sessionStartSeconds ((live.lastFillTime - kBackfillOverlapSeconds * nanosPerSecond).tdiv nanosPerSecond)

/-- The account lists exactly the executions from a second on. -/
def ListsFrom (account : Account F X) (minTsSeconds : Int) (executions : List (Executed F)) (x : X) : Prop :=
  ∃ fetched, (account.getFills minTsSeconds x).1 = .ok fetched ∧ ∀ fill, fill ∈ fetched ↔
    fill ∈ executions.map Executed.record ∧ minTsSeconds * nanosPerSecond ≤ fill.timestamp

/-- Every execution on a tracked market is on file. -/
def Complete (executions : List (Executed F)) (s : Desk F X) : Prop :=
  ∀ execution ∈ executions, execution.ticker ∈ s.session.tickers → execution.key ∈ s.orderMgr.seenFills

/-- Complete books count what was executed. -/
theorem Complete.positions {executions : List (Executed F)} {s : Desk F X} (complete : Complete executions s)
    (booked : s.ledger.Booked executions) {ticker : Ticker} (tracked : ticker ∈ s.session.tickers) :
    (s.orderMgr.netPosition ticker).centi = net executions ticker := by
  rw [← net_among fun execution member on => complete execution member (on ▸ tracked)]
  exact booked.counted ticker

theorem onReconnect_run {account : Account F X} {config : MainConfig} {live : Live F X} {fetched : List (Fill F)}
    (listing : (account.getFills (backfillFloor config live) live.desk.outside).1 = .ok fetched) :
    (onReconnect account config live).2 = (Live.replayFills fetched 0
      (live.movedTo (account.getFills (backfillFloor config live) live.desk.outside).2)).2 := by
  unfold onReconnect
  rw [bind_apply, get_apply, andThen_ok, bind_apply]
  change (andThen _ (Live.backfillFills account (backfillFloor config live) live)).2 = _
  rw [Live.backfillFills_ok listing]
  cases Live.replayFills fetched 0 (live.movedTo
    (account.getFills (backfillFloor config live) live.desk.outside).2) with
  | mk outcome after => cases outcome <;> rfl

/-- Whatever the feed announced or missed before, a reconnect leaves the books complete exactly if nothing that was
missed is older than a minute before the latest fill; the tracked positions are then those of the executions. -/
theorem reconnect_recovers_iff (venue : Venue X) (account : Account F X) (config : MainConfig) {start live : Live F X}
    {executions : List (Executed F)} (empty : start.desk.orderMgr = .empty)
    (run : ReflTransGen (AccountTurn venue) ([], start) (executions, live))
    (sound : ∀ execution ∈ executions, OrderManager.checkFill execution.record = .ok ())
    (lists : ListsFrom account (backfillFloor config live) executions live.desk.outside) :
    let after := (onReconnect account config live).2.desk
    (Complete executions after ↔ ∀ execution ∈ executions, execution.ticker ∈ live.desk.session.tickers →
      execution.key ∉ live.desk.orderMgr.seenFills →
        backfillFloor config live * nanosPerSecond ≤ execution.record.timestamp) ∧
    (Complete executions after → ∀ ticker ∈ live.desk.session.tickers,
      (after.orderMgr.netPosition ticker).centi = net executions ticker) := by
  have booked := AccountTurn.run_booked empty run
  obtain ⟨fetched, listing, listed⟩ := lists
  rw [onReconnect_run listing]
  have records : ∀ fill ∈ fetched, fill ∈ executions.map Executed.record :=
    fun fill member => ((listed fill).mp member).1
  -- reading the account leaves the books
  have read : (live.movedTo (account.getFills (backfillFloor config live) live.desk.outside).2).desk.ledger.Booked
      executions := booked
  have still := Live.replayFills_booked read records 0
  obtain ⟨⟨fill, member, _, unsound⟩, _⟩ | ⟨_, _, replayed⟩ := Live.replayFills_cases fetched 0
    (live.movedTo (account.getFills (backfillFloor config live) live.desk.outside).2)
  · obtain ⟨execution, among, rfl⟩ := List.mem_map.mp (records fill member)
    exact absurd (sound execution among) unsound
  intro after
  have tickers : after.session.tickers = live.desk.session.tickers := replayed.tickers
  refine ⟨?_, fun complete ticker tracked => ?_⟩
  · constructor
    · intro complete execution among tracked missed
      rcases (replayed.filed execution.key).mp (complete execution among (tickers ▸ tracked)) with before | later
      · exact absurd before missed
      · obtain ⟨fill, member, _, same⟩ := later
        obtain ⟨known, recent⟩ := (listed fill).mp member
        -- distinct keys: the fill filed under this key is this execution's record
        obtain ⟨other, within, rfl⟩ := List.mem_map.mp known
        rw [List.inj_on_of_nodup_map booked.distinct within among same] at recent
        exact recent
    · intro recent execution among tracked
      apply (replayed.filed execution.key).mpr
      by_cases before : execution.key ∈ live.desk.orderMgr.seenFills
      · exact .inl before
      · have here : execution.ticker ∈ live.desk.session.tickers := tickers ▸ tracked
        refine .inr ⟨execution.record, (listed _).mpr ⟨List.mem_map_of_mem among, ?_⟩, here, rfl⟩
        exact recent execution among here before
  · exact complete.positions still (tickers ▸ tracked)

/-- An execution that the feed missed in the session's first minute is recovered. -/
theorem reconnect_recovers_iff_missed :
    let live : Live ℚ Script :=
      { desk := (Process.start { tickers := ["M"] } {} {} {} none none false false : Process ℚ Script).desk }
    ((onReconnect partAccount {} live).2.desk.orderMgr.netPosition "M").centi = net [partExecution] "M" := by
  intro live
  have run : ReflTransGen (AccountTurn ⟨⟨"exchange"⟩, Script.host⟩) ([], live) ([partExecution], live) :=
    .single (.executed partExecution (by simp))
  have sound : ∀ execution ∈ [partExecution], OrderManager.checkFill execution.record = .ok () := by
    intro execution member
    rw [List.mem_singleton.mp member]
    rfl
  have lists : ListsFrom partAccount (backfillFloor {} live) [partExecution] live.desk.outside := by
    refine ⟨[partFill], rfl, fun fill => ?_⟩
    constructor
    · intro member
      rw [List.mem_singleton.mp member]
      exact ⟨List.mem_singleton_self _, by decide⟩
    · exact fun listed => listed.1
  obtain ⟨complete, counted⟩ := reconnect_recovers_iff _ partAccount {} rfl run sound lists
  refine counted (complete.mpr fun execution member _ _ => ?_) "M" (List.mem_singleton_self _)
  rw [List.mem_singleton.mp member]
  decide

end MainLoop

end Kalshi
