import KalshiMaker.App.Drift
import KalshiMaker.Net.ScriptedHost

/-! Which drift a reconciliation heals, where nothing is executed while it reads. -/
namespace Kalshi

open Effect Eff Relation Executed

variable {F X : Type} [Floating F]

/-- Every market outside the tracked universe stands where the baseline has it; and the tracked ones are in step
already, or else their executions, all of them sound, account for them from the start of the session. -/
structure Live.Recoverable (live : Live F X) (baseline : List MarketPosition) (executions : List (Executed F))
    (held : Ticker → Int) : Prop where
  untracked : ∀ ticker, ticker ∉ live.desk.session.tickers →
    (positionIn (countedBaseline live.desk.session.tickers baseline) ticker).centi = held ticker
  tracked : (∀ ticker ∈ live.desk.session.tickers, (live.desk.orderMgr.netPosition ticker).centi = held ticker) ∨
    (∀ ticker ∈ live.desk.session.tickers, ticker ∉ executions.map Executed.ticker →
      (positionIn baseline ticker).centi = 0) ∧ ¬ live.Unsound executions

/-- Where the executions on a market with none are worth what it started with, they account for every market. -/
theorem explains_heldAt {executions : List (Executed F)} {start : Ticker → Int} {ticker : Ticker} :
    net executions ticker = heldAt executions start ticker ↔
      (ticker ∉ executions.map Executed.ticker → start ticker = 0) := by
  unfold heldAt
  by_cases executed : ticker ∈ executions.map Executed.ticker
  · simp [executed]
  · rw [net_eq_zero executed, if_neg executed]
    exact ⟨fun same _ => same.symm, fun flat => (flat executed).symm⟩

/-- A reconciliation that nothing is executed during heals the session exactly if its drift is recoverable. -/
theorem drift_healed_iff (venue : Venue X) (account : Account F X) {start live : Live F X}
    {executions : List (Executed F)} (empty : start.desk.orderMgr = .empty)
    (run : ReflTransGen (AccountTurn venue) ([], start) (executions, live)) (baseline : List MarketPosition)
    (sessionStartSeconds : Int) {held : Ticker → Int}
    (positions : held = heldAt executions fun ticker => (positionIn baseline ticker).centi)
    (tells : account.Tells sessionStartSeconds held held executions live.desk.outside) :
    Live.Healed baseline held (Live.reconcileAgainstExchange account baseline sessionStartSeconds live) ↔
      live.Recoverable baseline executions held := by
  have booked := AccountTurn.run_booked empty run
  have flat : ∀ ticker, ticker ∉ live.desk.session.tickers → (live.desk.orderMgr.netPosition ticker).centi = 0 :=
    booked.flat
  -- an untracked market has no position here, and its baseline is what the account holds
  have inSync_of : live.Recoverable baseline executions held →
      (∀ ticker ∈ live.desk.session.tickers, (live.desk.orderMgr.netPosition ticker).centi = held ticker) →
      live.InSync baseline held := by
    intro recoverable agreed ticker
    by_cases tracked : ticker ∈ live.desk.session.tickers
    · rw [countedBaseline_tracked tracked, add_zero]
      exact agreed ticker tracked
    · rw [flat ticker tracked, zero_add]
      exact recoverable.untracked ticker tracked
  -- one case for each way a reconciliation ends
  cases Live.reconcileAgainstExchange_ends account baseline sessionStartSeconds booked tells with
  | agreed agrees healed =>
    refine ⟨fun _ => ⟨fun ticker untracked => ?_, .inl fun ticker tracked => ?_⟩, fun _ => healed⟩
    · rw [← agrees ticker, flat ticker untracked, zero_add]
    · rw [← agrees ticker, countedBaseline_tracked tracked, add_zero]
  | stopped differs unsound what result =>
    constructor
    · intro healed
      cases result.symm.trans healed.returned
    · intro recoverable
      rcases recoverable.tracked with agreed | ⟨_, sound⟩
      · exact absurd (inSync_of recoverable agreed) differs
      · exact absurd unsound sound
  | healed differs sound explains healed =>
    refine ⟨fun _ => ⟨explains.2, .inr ⟨fun ticker tracked => ?_, sound⟩⟩, fun _ => healed⟩
    apply explains_heldAt.mp
    rw [explains.1 ticker tracked, positions]
  | halted differs sound unexplained result set =>
    constructor
    · intro healed
      cases result.symm.trans healed.returned
    · intro recoverable
      rcases recoverable.tracked with agreed | ⟨fromStart, _⟩
      · exact absurd (inSync_of recoverable agreed) differs
      · refine absurd ⟨fun ticker tracked => ?_, recoverable.untracked⟩ unexplained
        rw [positions]
        exact explains_heldAt.mpr (fromStart ticker tracked)

/-! ### A lost execution on a market rotated out -/

def partFill : Fill ℚ where
  tradeId := "trade-1"
  orderId := "order-1"
  marketTicker := "M"
  side := .yes
  priceCents := 41
  quantity := ⟨500⟩
  feeCents := 0
  isTaker := false
  timestamp := 0

def partExecution : Executed ℚ := ⟨partFill, partFill, rfl, rfl⟩

/-- An account with that execution and nothing else. -/
def partAccount : Account ℚ Script where
  getOpenOrders x := (.ok [], x)
  getPositions x := (.ok [⟨"M", ⟨500⟩⟩], x)
  getFills _ x := (.ok [partFill], x)

theorem partAccount_tells (held : Ticker → Int) (positions : held = heldAt [partExecution] fun _ => 0) (x : Script) :
    partAccount.Tells 0 held held [partExecution] x := by
  have told : ∀ ticker, (positionIn [⟨"M", ⟨500⟩⟩] ticker).centi = held ticker := by
    intro ticker
    rw [positions]
    by_cases here : ticker = "M"
    · subst here
      decide
    · have other : ¬ "M" = ticker := fun same => here same.symm
      simp [positionIn, heldAt, partExecution, Executed.ticker, partFill, here, other]
  exact ⟨⟨_, rfl, told⟩, ⟨_, rfl, fun fill => Iff.rfl⟩, ⟨_, rfl, told⟩⟩

/-- On a market still tracked the same execution is recovered. -/
theorem drift_healed_iff_lost :
    let venue : Venue Script := ⟨⟨"exchange"⟩, Script.host⟩
    let live : Live ℚ Script :=
      { desk := (Process.start { tickers := ["M"] } {} {} {} none none false false : Process ℚ Script).desk }
    let held := heldAt [partExecution] fun ticker => (positionIn [] ticker).centi
    ReflTransGen (AccountTurn venue) ([], live) ([partExecution], live) ∧
      Live.Healed [] held (Live.reconcileAgainstExchange partAccount [] 0 live) := by
  intro venue live held
  have run : ReflTransGen (AccountTurn venue) ([], live) ([partExecution], live) :=
    .single (.executed partExecution (by simp))
  refine ⟨run, (drift_healed_iff venue partAccount rfl run [] 0 rfl (partAccount_tells held rfl _)).mpr
    ⟨?_, .inr ⟨?_, ?_⟩⟩⟩
  · intro ticker untracked
    have other : ¬ ticker = "M" := fun same => untracked (List.mem_singleton.mpr same)
    simp [positionIn, countedBaseline, heldAt, partExecution, Executed.ticker, partFill, other]
  · intro ticker _ _
    rfl
  · rintro ⟨execution, member, _, unsound⟩
    rw [List.mem_singleton.mp member] at unsound
    exact unsound rfl

/-- Half of a bid is executed while the feed is down; the rest is cancelled, the market looks idle and is rotated out,
and the replay passes the execution over. -/
theorem rotated_out_fill_never_heals :
    let venue : Venue Script := ⟨⟨"exchange"⟩, Script.host⟩
    let book : Orderbook := { ticker := "M", yes := [⟨40, ⟨1000⟩⟩], no := [⟨40, ⟨1000⟩⟩] }
    let start : Live ℚ Script :=
      { desk := (Process.start { tickers := ["M"] } {} {} {} none none false false : Process ℚ Script).desk }
    let after (event : Event ℚ) (live : Live ℚ Script) : Live ℚ Script :=
      { live with desk := (handle venue event live.desk).2 }
    let live := after (.removeMarketIfIdle "M")
      (after .disconnect (after .requoteIdleMarkets (after (.snapshot book) start)))
    let held := heldAt [partExecution] fun ticker => (positionIn [] ticker).centi
    let outcome := Live.reconcileAgainstExchange partAccount [] 0 live
    ReflTransGen (AccountTurn venue) ([], start) ([partExecution], live) ∧
      partAccount.Tells 0 held held [partExecution] live.desk.outside ∧ outcome.1 = .ok false ∧
      outcome.2.desk.riskMgr.isSet .kModelDiverge = true ∧ ¬ Live.Healed [] held outcome := by
  intro venue book start after live held outcome
  have halted : outcome.1 = .ok false := by decide +kernel
  refine ⟨?_, partAccount_tells held rfl _, halted, by decide +kernel, fun healed => ?_⟩
  · have turn : ∀ (executions : List (Executed ℚ)) (event : Event ℚ) (live : Live ℚ Script),
        (∀ fill, event ≠ .fill fill) → (∀ order, event ≠ .recordFlatten order) →
        AccountTurn venue (executions, live) (executions, after event live) :=
      fun _ event _ fills flattens => .event event fills flattens
    -- the market is quoted, disconnected and removed while the execution waits to be reported
    refine .tail (.tail (.tail (.tail (.single (turn [] (.snapshot book) start ?_ ?_))
      (turn [] .requoteIdleMarkets _ ?_ ?_))
      (.executed partExecution ?_)) (turn [partExecution] .disconnect _ ?_ ?_))
      (turn [partExecution] (.removeMarketIfIdle "M") _ ?_ ?_)
    all_goals simp
  · cases halted.symm.trans healed.returned

end Kalshi
