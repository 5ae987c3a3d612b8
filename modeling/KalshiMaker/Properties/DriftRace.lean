import KalshiMaker.App.Drift
import KalshiMaker.Net.ScriptedHost

/-! Which executions a reconciliation takes for drift, where they go on while it reads. -/
namespace Kalshi

open Effect Eff Relation Executed

variable {F X : Type} [Floating F]

/-- What a market started with, as far as the exchange may still hold it: on the tracked markets the executions of the
session account for everything. -/
def unexplainedStart (tickers : List Ticker) (baseline : List MarketPosition) (ticker : Ticker) : Int :=
  if ticker ∈ tickers then 0 else (positionIn baseline ticker).centi

theorem heldAt_tracked {tickers : List Ticker} {ticker : Ticker} (tracked : ticker ∈ tickers)
    (baseline : List MarketPosition) (executions : List (Executed F)) :
    heldAt executions (unexplainedStart tickers baseline) ticker = net executions ticker := by
  unfold heldAt unexplainedStart
  by_cases executed : ticker ∈ executions.map Executed.ticker
  · rw [if_pos executed]
  · rw [if_neg executed, if_pos tracked, net_eq_zero executed]

/-- Executions elsewhere do not move a market. -/
theorem heldAt_elsewhere {executions more : List (Executed F)} {ticker : Ticker}
    (elsewhere : ticker ∉ more.map Executed.ticker) (start : Ticker → Int) :
    heldAt (executions ++ more) start ticker = heldAt executions start ticker := by
  have same : ticker ∈ (executions ++ more).map Executed.ticker ↔ ticker ∈ executions.map Executed.ticker := by
    rw [List.map_append, List.mem_append, or_iff_left elsewhere]
  unfold heldAt
  rw [net_append, net_eq_zero elsewhere, add_zero]
  exact if_congr same rfl rfl

/-- The call set the drift halt. -/
def Live.DriftHalted (after : Except (Stop String) Bool × Live F X) : Prop :=
  after.1 = .ok false ∧ after.2.desk.riskMgr.isSet .kModelDiverge = true

/-- The replay stops at an execution that fails its checks; or the markets outside the tracked universe stand where the
baseline has them, and of the tracked ones either the first read shows nothing new, or what is executed between the
replay's read and the last one cancels out. -/
def Live.Unraced (live : Live F X) (baseline : List MarketPosition)
    (executions between late : List (Executed F)) : Prop :=
  live.Unsound (executions ++ between) ∨
    (∀ ticker, ticker ∉ live.desk.session.tickers →
      (positionIn (countedBaseline live.desk.session.tickers baseline) ticker).centi =
        heldAt executions (fun other => (positionIn baseline other).centi) ticker) ∧
    ((∀ ticker ∈ live.desk.session.tickers, (live.desk.orderMgr.netPosition ticker).centi = net executions ticker) ∨
      ∀ ticker ∈ live.desk.session.tickers, net late ticker = 0)

/-- Whatever is executed on tracked markets before the replay reads (`between`) and after it (`late`): the drift halt
stays away exactly if the executions are unraced. -/
theorem no_false_halt_iff (venue : Venue X) (account : Account F X) {start live : Live F X}
    {executions between late : List (Executed F)} (empty : start.desk.orderMgr = .empty)
    (run : ReflTransGen (AccountTurn venue) ([], start) (executions, live))
    (distinct : ((executions ++ between ++ late).map Executed.key).Nodup)
    (tracked : ∀ execution ∈ between ++ late, execution.ticker ∈ live.desk.session.tickers)
    (baseline : List MarketPosition) (sessionStartSeconds : Int) {first second : Ticker → Int}
    (firstRead : first = heldAt executions (unexplainedStart live.desk.session.tickers baseline))
    (secondRead : second = heldAt (executions ++ between ++ late)
    (unexplainedStart live.desk.session.tickers baseline))
    (tells : account.Tells sessionStartSeconds first second (executions ++ between) live.desk.outside) :
    ¬ Live.DriftHalted (Live.reconcileAgainstExchange account baseline sessionStartSeconds live) ↔
      live.Unraced baseline executions between late := by
  have booked := AccountTurn.run_booked empty run
  have flat : ∀ ticker, ticker ∉ live.desk.session.tickers → (live.desk.orderMgr.netPosition ticker).centi = 0 :=
    booked.flat
  have replayable : live.desk.ledger.Booked (executions ++ between) := by
    apply booked.later
    rw [List.map_append] at distinct
    exact (List.nodup_append.mp distinct).1
  -- outside the tracked universe both reads see what was there before
  have unmoved : ∀ ticker, ticker ∉ live.desk.session.tickers →
      first ticker = heldAt executions (fun other => (positionIn baseline other).centi) ticker ∧
        second ticker = first ticker := by
    intro ticker untracked
    have elsewhere : ticker ∉ (between ++ late).map Executed.ticker := by
      intro executed
      obtain ⟨execution, member, rfl⟩ := List.mem_map.mp executed
      exact untracked (tracked execution member)
    rw [firstRead, secondRead, List.append_assoc, heldAt_elsewhere elsewhere]
    refine ⟨?_, rfl⟩
    unfold heldAt unexplainedStart
    rw [if_neg untracked]
  have firstTracked : ∀ ticker ∈ live.desk.session.tickers, first ticker = net executions ticker := by
    intro ticker here
    rw [firstRead, heldAt_tracked here]
  have secondTracked : ∀ ticker ∈ live.desk.session.tickers,
      second ticker = net (executions ++ between) ticker + net late ticker := by
    intro ticker here
    rw [secondRead, heldAt_tracked here, net_append]
  cases Live.reconcileAgainstExchange_ends account baseline sessionStartSeconds replayable tells with
  | agreed agrees healed =>
    constructor
    · refine fun _ => .inr ⟨fun ticker untracked => ?_, .inl fun ticker here => ?_⟩
      · rw [← (unmoved ticker untracked).1, ← agrees ticker, flat ticker untracked, zero_add]
      · rw [← firstTracked ticker here, ← agrees ticker, countedBaseline_tracked here, add_zero]
    · rintro _ ⟨result, _⟩
      cases result.symm.trans healed.returned
  | stopped differs unsound what result =>
    refine ⟨fun _ => .inl unsound, ?_⟩
    rintro _ ⟨halted, _⟩
    cases halted.symm.trans result
  | healed differs sound explains healed =>
    constructor
    · refine fun _ => .inr ⟨fun ticker untracked => ?_, .inr fun ticker here => ?_⟩
      · rw [explains.2 ticker untracked, (unmoved ticker untracked).2, (unmoved ticker untracked).1]
      · have same := explains.1 ticker here
        rw [secondTracked ticker here] at same
        omega
    · rintro _ ⟨result, _⟩
      cases result.symm.trans healed.returned
  | halted differs sound unexplained result set =>
    refine ⟨fun stays => absurd ⟨result, set⟩ stays, ?_⟩
    rintro (unsound | ⟨standing, agreed | cancels⟩)
    · exact absurd unsound sound
    · refine absurd (fun ticker => ?_) differs
      by_cases here : ticker ∈ live.desk.session.tickers
      · rw [countedBaseline_tracked here, add_zero, agreed ticker here, firstTracked ticker here]
      · rw [flat ticker here, zero_add, standing ticker here, (unmoved ticker here).1]
    · refine absurd ⟨fun ticker here => ?_, fun ticker untracked => ?_⟩ unexplained
      · rw [secondTracked ticker here, cancels ticker here, add_zero]
      · rw [standing ticker untracked, (unmoved ticker untracked).2, (unmoved ticker untracked).1]

/-! ### An execution between the replay and the second look -/

def bidFill (tradeId : String) : Fill ℚ where
  tradeId
  orderId := "order-1"
  marketTicker := "M"
  side := .yes
  priceCents := 41
  quantity := ⟨500⟩
  feeCents := 0
  isTaker := false
  timestamp := 0

def bidExecution (tradeId : String) : Executed ℚ := ⟨bidFill tradeId, bidFill tradeId, rfl, rfl⟩

/-- An account that has one execution at the first look, `between` besides when its fills are read, and this position
at the last look. -/
def movingAccount (between : List (Executed ℚ)) (later : Int) : Account ℚ Script where
  getOpenOrders x := (.ok [], x)
  getPositions x := (.ok [⟨"M", ⟨if x.time = 0 then 500 else later⟩⟩], x)
  getFills _ x := (.ok (([bidExecution "trade-1"] ++ between).map Executed.record), { x with time := 1 })

def liveM : Live ℚ Script :=
  { desk := (Process.start { tickers := ["M"] } {} {} {} none none false false : Process ℚ Script).desk }

theorem movingAccount_tells {between late : List (Executed ℚ)} {later : Int} {first second : Ticker → Int}
    (onM : ∀ execution ∈ between ++ late, execution.ticker = "M") (moved : later = 500 + net (between ++ late) "M")
    (firstRead : first = heldAt [bidExecution "trade-1"] (unexplainedStart ["M"] []))
    (secondRead : second = heldAt ([bidExecution "trade-1"] ++ between ++ late) (unexplainedStart ["M"] [])) :
    (movingAccount between later).Tells 0 first second ([bidExecution "trade-1"] ++ between) ({} : Script) := by
  -- all executions are of the one market, and the account lists no other
  have told : ∀ (centi : Int) (executions : List (Executed ℚ)),
      (∀ execution ∈ executions, execution.ticker = "M") → centi = net executions "M" → ∀ ticker,
        (positionIn [⟨"M", ⟨centi⟩⟩] ticker).centi = heldAt executions (unexplainedStart ["M"] []) ticker := by
    intro centi executions here total ticker
    by_cases same : ticker = "M"
    · subst same
      rw [heldAt_tracked (List.mem_singleton.mpr rfl), ← total]
      simp [positionIn]
    · have other : ¬ "M" = ticker := fun same' => same same'.symm
      have absent : ticker ∉ executions.map Executed.ticker := by
        intro executed
        obtain ⟨execution, member, rfl⟩ := List.mem_map.mp executed
        exact same (here execution member)
      unfold heldAt
      rw [if_neg absent]
      simp [positionIn, unexplainedStart, other]
  refine ⟨⟨_, rfl, fun ticker => ?_⟩, ⟨_, rfl, fun fill => Iff.rfl⟩, ⟨_, rfl, fun ticker => ?_⟩⟩
  · rw [firstRead]
    exact told 500 _ (by simp [bidExecution, Executed.ticker, bidFill]) (by decide) ticker
  · rw [secondRead, List.append_assoc]
    refine told later _ ?_ ?_ ticker
    · intro execution member
      rcases List.mem_append.mp member with earlier | later
      · rw [List.mem_singleton.mp earlier]
        rfl
      · exact onM execution later
    · rw [net_append, moved]
      rfl

/-- A second fill of the bid lands before the replay reads: it is booked with the first, and the halt stays away. -/
theorem no_false_halt_iff_still :
    ¬ Live.DriftHalted (Live.reconcileAgainstExchange (movingAccount [bidExecution "trade-2"] 1000) [] 0 liveM) := by
  have run : ReflTransGen (AccountTurn ⟨⟨"exchange"⟩, Script.host⟩) ([], liveM) ([bidExecution "trade-1"], liveM) :=
    .single (.executed _ (by simp))
  have tells : (movingAccount [bidExecution "trade-2"] 1000).Tells 0 _ _ _ ({} : Script) :=
    @movingAccount_tells [bidExecution "trade-2"] [] 1000 _ _ (by simp [bidExecution, Executed.ticker, bidFill])
      (by decide) rfl rfl
  have tracked : ∀ execution ∈ [bidExecution "trade-2"] ++ [], execution.ticker ∈ liveM.desk.session.tickers := by
    intro execution member
    rw [List.append_nil, List.mem_singleton] at member
    rw [member]
    exact List.mem_singleton.mpr rfl
  refine (@no_false_halt_iff ℚ Script _ _ (movingAccount [bidExecution "trade-2"] 1000) _ _ _ [bidExecution "trade-2"]
    [] rfl run (by decide) tracked [] 0 _ _ rfl rfl tells).mpr
      (.inr ⟨fun ticker untracked => ?_, .inr fun ticker _ => rfl⟩)
  have other : ¬ ticker = "M" := fun same => untracked (List.mem_singleton.mpr same)
  simp [positionIn, countedBaseline, heldAt, bidExecution, Executed.ticker, bidFill, other]

/-- A second fill of the bid lands after the replay has read: the second look sees it and halts. -/
theorem execution_after_replay_halts :
    let venue : Venue Script := ⟨⟨"exchange"⟩, Script.host⟩
    let first := heldAt [bidExecution "trade-1"] (unexplainedStart ["M"] [])
    let second := heldAt ([bidExecution "trade-1"] ++ [] ++ [bidExecution "trade-2"]) (unexplainedStart ["M"] [])
    ReflTransGen (AccountTurn venue) ([], liveM) ([bidExecution "trade-1"], liveM) ∧
      (movingAccount [] 1000).Tells 0 first second ([bidExecution "trade-1"] ++ []) liveM.desk.outside ∧
      Live.DriftHalted (Live.reconcileAgainstExchange (movingAccount [] 1000) [] 0 liveM) := by
  intro venue first second
  refine ⟨.single (.executed _ (by simp)), movingAccount_tells ?_ (by decide) rfl rfl, ?_⟩
  · intro execution member
    rw [List.nil_append, List.mem_singleton] at member
    rw [member]
    rfl
  · exact ⟨by decide +kernel, by decide +kernel⟩

end Kalshi
