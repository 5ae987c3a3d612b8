import KalshiMaker.Engine.Untouched
import KalshiMaker.Net.ScriptedHost

/-! What the pre-trade gate knows: how many orders are open, and which orders bring a position down. -/
namespace Kalshi

open Effect Eff Desk TradingSession

variable {F X : Type} [Floating F]

/-! ### The count of open orders -/

namespace RiskManager

/-- Whether an order passes every check but the one of the open orders. -/
def passesOtherwise (risk : RiskManager F) (ticker : Ticker) (side : Side) (priceCents quantity : Int) : Bool :=
  ({ risk with cachedOpenOrderCount := fun _ => risk.limits.maxOpenOrdersPerMarket - 1 }).checkOrder ticker side
    priceCents quantity

/-- The count of the open orders is a check of its own. -/
theorem checkOrder_counted (risk : RiskManager F) (ticker : Ticker) (side : Side) (price quantity : Int) :
    risk.checkOrder ticker side price quantity =
      (!decide (risk.limits.maxOpenOrdersPerMarket ≤ risk.cachedOpenOrderCount ticker) &&
        risk.passesOtherwise ticker side price quantity) := by
  have below : ¬ risk.limits.maxOpenOrdersPerMarket ≤ risk.limits.maxOpenOrdersPerMarket - 1 := by omega
  unfold passesOtherwise checkOrder
  have halted : ({ risk with cachedOpenOrderCount := fun _ => risk.limits.maxOpenOrdersPerMarket - 1 } :
      RiskManager F).isHalted = risk.isHalted := rfl
  rw [halted]
  by_cases full : risk.limits.maxOpenOrdersPerMarket ≤ risk.cachedOpenOrderCount ticker
  · simp [full]
  · simp [full, below]

end RiskManager

/-- How many orders are open on each market. -/
def Desk.openCounts (s : Desk F X) : Ticker → Int := fun ticker => (s.orderMgr.openOn ticker).length

/-- An order on a tracked market that is otherwise acceptable is refused exactly if there are as many open orders as
there may be. -/
def Desk.GateTruthful (s : Desk F X) : Prop :=
  ∀ ticker ∈ s.session.tickers, ∀ side price quantity, s.riskMgr.passesOtherwise ticker side price quantity = true →
    (s.riskMgr.checkOrder ticker side price quantity = false ↔
      s.riskMgr.limits.maxOpenOrdersPerMarket ≤ s.openCounts ticker)

/-- Whether the risk manager counts the open orders anew: at a new fill of a tracked market, and where it is
told to. -/
def Event.recounts (event : Event F) (s : Desk F X) : Bool :=
  match event with
  | .fill newFill =>
    s.session.isTracked newFill.marketTicker && (OrderManager.checkFill newFill).isOk &&
      decide (OrderManager.fillKey newFill ∉ s.orderMgr.seenFills)
  | .riskUpdate _ => true
  | _ => false

section

variable (venue : Venue X)

/-- A process after an event, and how many orders were open when they were last counted. -/
def Process.counting (state : Process F X × (Ticker → Int)) (event : Event F) : Process F X × (Ticker → Int) :=
  (state.1.dispatch venue event,
    if state.1.alive && event.recounts state.1.desk then (state.1.dispatch venue event).desk.openCounts else state.2)

/-- How many orders were open on each market when a run last counted them. -/
def Process.lastCounts (p : Process F X) (events : List (Event F)) : Ticker → Int :=
  (events.foldl (Process.counting venue) (p, p.desk.openCounts)).2

/-- What the risk manager takes for the number of open orders. -/
def Desk.cachedCounts (s : Desk F X) : Ticker → Int := s.riskMgr.cachedOpenOrderCount

theorem cachedCounts_detached : Quoter.Detached (Desk.cachedCounts (F := F) (X := X)) where
  quoter _ _ := rfl
  outside _ _ := rfl
  called _ _ _ := rfl
  orders _ _ := rfl
  emit _ _ _ := rfl

theorem cachedCounts_reacts : Reacts venue (Desk.cachedCounts (F := F) (X := X)) (fun _ _ _ => False) where
  session _ _ _ _ := rfl
  steady _ := rfl
  update ticker book s :=
    Leads.quiet (chain_unmoved (Quoter.update_moves (cachedCounts_detached.moves venue ticker) book s))

theorem cachedCounts_untouched : Untouched venue (Desk.cachedCounts (F := F) (X := X)) where
  reacts := cachedCounts_reacts venue
  session _ _ _ := rfl
  quoter _ _ _ _ := rfl
  tape _ _ := rfl
  cancels _ _ _ := rfl
  risk _ _ _ _ counts := counts

theorem cachedCounts_blind : BookingBlind (Desk.cachedCounts (F := F) (X := X)) where
  books _ _ _ := rfl
  emitted _ _ := rfl

theorem update_cachedOpenOrderCount (risk : RiskManager F) (om : OrderManager F) (tickers : List Ticker) :
    (risk.update om tickers).cachedOpenOrderCount = fun ticker => ((om.openOn ticker).length : Int) := by
  unfold RiskManager.update RiskManager.setIf
  dsimp only
  split <;> rfl

/-- A fill counts the open orders anew where it is new, sound and of a tracked market, and nowhere else. -/
theorem onFill_cachedCounts (fill : Fill F) (s : Desk F X) :
    (onFill fill s).2.cachedCounts =
      if (Event.fill fill).recounts s then (onFill fill s).2.openCounts else s.cachedCounts := by
  have recounts : (Event.fill fill).recounts s = true ↔
      fill.marketTicker ∈ s.session.tickers ∧ OrderManager.checkFill fill = .ok () ∧
        OrderManager.fillKey fill ∉ s.orderMgr.seenFills := by
    unfold Event.recounts isTracked
    cases checked : OrderManager.checkFill fill with
    | ok _ => simp [checked, Except.isOk, Except.toBool]
    | error _ => simp [checked, Except.isOk, Except.toBool]
  -- a fill is counted on the one path that books it
  rcases onFill_cases fill s with ⟨same, _, excused⟩ | ⟨refilled, _, seen⟩ | ⟨_, valid, tracked, new, filled⟩
  · rw [if_neg]
    · exact congrArg (fun ledger => ledger.riskMgr.cachedOpenOrderCount) same
    · rw [recounts]
      rintro ⟨tracked, valid, _⟩
      rcases excused with untracked | invalid
      · exact untracked tracked
      · exact invalid valid
  · rw [if_neg]
    · exact congrArg (fun ledger => ledger.riskMgr.cachedOpenOrderCount) refilled
    · rw [recounts]
      exact fun fresh => fresh.2.2 seen
  · rw [if_pos (recounts.mpr ⟨tracked, valid, new⟩)]
    have risk := congrArg Ledger.riskMgr filled
    have orders := congrArg Ledger.orderMgr filled
    dsimp only at risk orders
    rw [Ledger.forgetFilled_orderMgr] at orders
    change (onFill fill s).2.riskMgr = _ at risk
    change (onFill fill s).2.orderMgr = s.orderMgr.bookFill fill at orders
    unfold Desk.cachedCounts Desk.openCounts
    rw [risk, orders, update_cachedOpenOrderCount]

theorem handle_cachedCounts (event : Event F) (s : Desk F X) :
    (handle venue event s).2.cachedCounts =
      if event.recounts s then (handle venue event s).2.openCounts else s.cachedCounts := by
  cases event with
  | fill newFill =>
    have same : (handle venue (.fill newFill) s).2 = (onFill newFill s).2 := andThen_pure_state _ _
    rw [same]
    exact onFill_cachedCounts newFill s
  | recordFlatten order => exact cachedCounts_blind.recordFlatten order s
  | riskUpdate tickers => exact update_cachedOpenOrderCount s.riskMgr s.orderMgr tickers
  | _ => exact (cachedCounts_untouched venue).handle rfl s

/-- An event at which the open orders are counted does not end the process. -/
theorem recounts_finishes {event : Event F} {s : Desk F X} (recounts : event.recounts s = true) :
    ∀ what, (handle venue event s).1 ≠ .error (.abort what) := by
  intro what aborted
  cases event with
  | fill newFill =>
    have failed : (onFill newFill s).1 = .error (.abort what) := by
      have unfolded : (handle venue (.fill newFill) s).1 = (onFill newFill s).1.map fun _ => () := by
        change (andThen (fun _ => pure ()) (onFill newFill s)).1 = _
        cases onFill newFill s with
        | mk result t => cases result <;> rfl
      rw [unfolded] at aborted
      cases result : (onFill newFill s).1 with
      | error stop =>
        rw [result] at aborted
        cases aborted
        rfl
      | ok new =>
        rw [result] at aborted
        cases aborted
    -- only a fill that fails its check aborts, and that one is not counted
    obtain ⟨_, invalid⟩ := (onFill_aborts_iff newFill s).mp ⟨what, failed⟩
    unfold Event.recounts at recounts
    cases valid : OrderManager.checkFill newFill with
    | ok _ => exact invalid valid
    | error _ => simp [valid, Except.isOk, Except.toBool] at recounts
  | riskUpdate _ => cases aborted
  | _ => cases recounts

theorem dispatch_cachedCounts (p : Process F X) (event : Event F) :
    (p.dispatch venue event).desk.cachedCounts =
      if p.alive && event.recounts p.desk then (p.dispatch venue event).desk.openCounts else p.desk.cachedCounts := by
  cases alive : p.alive with
  | false => rw [dispatch_dead venue alive, Bool.false_and, if_neg Bool.false_ne_true]
  | true =>
    rw [Bool.true_and]
    rcases dispatch_alive venue alive event with done | ⟨⟨what, aborted⟩, ended⟩
    · rw [done]
      exact handle_cachedCounts venue event p.desk
    · have quiet : event.recounts p.desk = false := by
        apply Bool.eq_false_iff.mpr
        exact fun recounts => recounts_finishes venue recounts what aborted
      have handled := handle_cachedCounts venue event p.desk
      rw [quiet, if_neg Bool.false_ne_true] at handled ⊢
      rw [ended]
      exact ((cachedCounts_untouched venue).cancelAllQuotes _).trans handled

/-- What the risk manager has cached is what was last counted. -/
theorem run_cachedCounts {p : Process F X} {counts : Ticker → Int} (cached : p.desk.cachedCounts = counts)
    (events : List (Event F)) :
    (events.foldl (Process.counting venue) (p, counts)).1 = p.run venue events ∧
      (p.run venue events).desk.cachedCounts = (events.foldl (Process.counting venue) (p, counts)).2 := by
  induction events generalizing p counts with
  | nil => exact ⟨rfl, cached⟩
  | cons event events ih =>
    apply ih
    rw [dispatch_cachedCounts, cached]

/-- In a state that a run reaches, the gate tells the truth of a tracked market exactly if the number of its
open orders has not crossed the limit since the orders were last counted. -/
theorem open_order_gate_iff (session : TradingSession F) (config : QuoterConfig F)
    (limits : RiskLimits F) (outside : X)
    (flowGuard : Option (FlowImbalanceGuard F)) (tradeTape : Option (TradeTape F)) (analytics pnlListener : Bool)
    (events : List (Event F)) :
    let p := Process.start session config limits outside flowGuard tradeTape analytics pnlListener
    let s := (p.run venue events).desk
    s.GateTruthful ↔ ∀ ticker ∈ s.session.tickers, ∀ side price quantity,
      s.riskMgr.passesOtherwise ticker side price quantity = true →
        (s.riskMgr.limits.maxOpenOrdersPerMarket ≤ p.lastCounts venue events ticker ↔
          s.riskMgr.limits.maxOpenOrdersPerMarket ≤ s.openCounts ticker) := by
  intro p s
  have started : p.desk.cachedCounts = p.desk.openCounts := rfl
  have cached : s.cachedCounts = p.lastCounts venue events := (run_cachedCounts venue started events).2
  have refused : ∀ ticker side price quantity, s.riskMgr.passesOtherwise ticker side price quantity = true →
      (s.riskMgr.checkOrder ticker side price quantity = false ↔
        s.riskMgr.limits.maxOpenOrdersPerMarket ≤ p.lastCounts venue events ticker) := by
    intro ticker side price quantity passes
    rw [s.riskMgr.checkOrder_counted, passes, Bool.and_true, Bool.not_eq_false', decide_eq_true_iff, ← cached]
    rfl
  constructor
  · intro truthful ticker tracked side price quantity passes
    exact (refused ticker side price quantity passes).symm.trans (truthful ticker tracked side price quantity passes)
  · intro uncrossed ticker tracked side price quantity passes
    exact (refused ticker side price quantity passes).trans (uncrossed ticker tracked side price quantity passes)

end

def gateSnapshot : Orderbook := { ticker := "M", yes := [⟨40, ⟨1000⟩⟩], no := [⟨40, ⟨1000⟩⟩] }

/-- One contract of the bid. -/
def gateFill : Fill ℚ where
  tradeId := "trade-1"
  orderId := "order-1"
  marketTicker := "M"
  side := .yes
  priceCents := 48
  quantity := ⟨100⟩
  feeCents := 0
  isTaker := false
  timestamp := 0

/-- Two orders may be open. Both quotes rest when one of them fills in part, then the feed is lost and both are
cancelled: no order is open any more, and every order is refused, also when the market is to be quoted again. -/
theorem cancelled_orders_still_count :
    let venue : Venue Script := ⟨⟨"exchange"⟩, Script.host⟩
    let p := Process.start { tickers := ["M"] } ({ useClearingPricing := true } : QuoterConfig ℚ)
      { maxOpenOrdersPerMarket := 2 } ({} : Script) none none false false
    let silent := p.run venue [.addMarket gateSnapshot, .fill gateFill, .disconnect]
    silent.desk.openCounts "M" = 0 ∧ p.lastCounts venue
      [.addMarket gateSnapshot, .fill gateFill, .disconnect] "M" = 2 ∧
      silent.desk.riskMgr.checkOrder "M" .yes 48 10 = false ∧ ¬ silent.desk.GateTruthful ∧
      (silent.run venue [.requoteIdleMarkets, .addMarket gateSnapshot]).desk.openCounts "M" = 0 := by
  intro venue p silent
  have none : silent.desk.openCounts "M" = 0 := by decide +kernel
  have refused : silent.desk.riskMgr.checkOrder "M" .yes 48 10 = false := by decide +kernel
  refine ⟨none, by decide +kernel, refused, fun truthful => ?_, by decide +kernel⟩
  have full := (truthful "M" (by decide +kernel) .yes 48 10 (by decide +kernel)).mp refused
  rw [none] at full
  exact absurd full (by decide +kernel)

/-! ### Orders that bring a position down -/

namespace RiskManager

/-- The position an order would leave, in hundredths of a contract. -/
def positionAfter (risk : RiskManager F) (ticker : Ticker) (side : Side) (quantity : Int) : Int :=
  (risk.cachedPosition ticker).centi + side.toward (quantity * 100)

/-- Whether an order is within the limits on size, price and open orders. -/
structure Within (risk : RiskManager F) (ticker : Ticker) (priceCents quantity : Int) : Prop where
  running : risk.isHalted = false
  sized : quantity ≤ risk.limits.maxOrderSize
  banded : risk.limits.minQuotePriceCents ≤ priceCents ∧ priceCents ≤ risk.limits.maxQuotePriceCents
  room : risk.cachedOpenOrderCount ticker < risk.limits.maxOpenOrdersPerMarket

/-- An order that brings the position closer to zero, and not across it. -/
structure Reduces (risk : RiskManager F) (ticker : Ticker) (side : Side) (quantity : Int) : Prop where
  closer : |risk.positionAfter ticker side quantity| < |(risk.cachedPosition ticker).centi|
  uncrossed : 0 ≤ (risk.cachedPosition ticker).centi * risk.positionAfter ticker side quantity

/-- Within the other limits, only the position is left to check. -/
theorem Within.checkOrder {risk : RiskManager F} {ticker : Ticker} {price quantity : Int}
    (within : risk.Within ticker price quantity) (side : Side) :
    risk.checkOrder ticker side price quantity = true ↔
      |risk.positionAfter ticker side quantity| ≤ risk.limits.maxPositionPerMarket * 100 := by
  obtain ⟨running, sized, banded, room⟩ := within
  unfold RiskManager.checkOrder
  rw [running, if_neg Bool.false_ne_true, if_neg (not_lt.mpr sized), if_neg (by omega), if_neg (not_le.mpr room)]
  dsimp only
  rw [decide_eq_true_iff, Quantity.le_iff, Quantity.abs_centi, Quantity.add_centi, Quantity.fromContracts_centi,
    Quantity.fromContracts_centi]
  cases side with
  | yes => rfl
  | no =>
    have negated : -quantity * 100 = -(quantity * 100) := by ring
    change |_ + -quantity * 100| ≤ _ ↔ _
    rw [negated]
    rfl

/-- A reduction takes its whole size off the position. -/
theorem Reduces.left {risk : RiskManager F} {ticker : Ticker} {side : Side} {quantity : Int}
    (reduces : risk.Reduces ticker side quantity) :
    |risk.positionAfter ticker side quantity| = |(risk.cachedPosition ticker).centi| - |quantity| * 100 := by
  obtain ⟨closer, uncrossed⟩ := reduces
  unfold positionAfter at closer uncrossed ⊢
  have size : |side.toward (quantity * 100)| = |quantity| * 100 := by
    cases side with
    | yes => exact abs_mul quantity 100
    | no => exact (abs_neg _).trans (abs_mul quantity 100)
  rw [← size]
  -- from here the side no longer matters: a move against the position that does not cross it
  generalize side.toward (quantity * 100) = move at closer uncrossed
  generalize (risk.cachedPosition ticker).centi = position at closer uncrossed ⊢
  rcases lt_trichotomy position 0 with short | flat | long
  · have after : position + move ≤ 0 := by
      by_contra crossed
      exact absurd (mul_neg_of_neg_of_pos short (not_le.mp crossed)) (not_lt.mpr uncrossed)
    rw [abs_of_neg short, abs_of_nonpos after] at *
    rw [abs_of_pos (by omega : 0 < move)]
    omega
  · subst flat
    simp only [zero_add, abs_zero] at closer
    exact absurd closer (not_lt.mpr (abs_nonneg move))
  · have after : 0 ≤ position + move := by
      by_contra crossed
      exact absurd (mul_neg_of_pos_of_neg long (not_le.mp crossed)) (not_lt.mpr uncrossed)
    rw [abs_of_pos long, abs_of_nonneg after] at *
    rw [abs_of_neg (by omega : move < 0)]
    omega

/-- Within the limits on size, price and open orders, an order that reduces the position is accepted exactly if the
position is over its limit by no more than the order takes off. -/
theorem reducing_order_accepted_iff {risk : RiskManager F} {ticker : Ticker} {side : Side} {price quantity : Int}
    (within : risk.Within ticker price quantity) (reduces : risk.Reduces ticker side quantity) :
    risk.checkOrder ticker side price quantity = true ↔
      |(risk.cachedPosition ticker).centi| ≤ risk.limits.maxPositionPerMarket * 100 + |quantity| * 100 := by
  rw [within.checkOrder side, reduces.left]
  omega

/-- What a fill of that many contracts leaves cached under the default limits. -/
def afterFill (contracts : Int) : RiskManager ℚ :=
  ({} : RiskManager ℚ).update
    (OrderManager.empty.bookFill { gateFill with quantity := Quantity.fromContracts contracts }) ["M"]

/-- One contract off a position at its limit, and five off one that is five beyond it. -/
theorem reducing_order_accepted_iff_at_limit :
    (afterFill 100).checkOrder "M" .no 50 1 = true ∧ (afterFill 105).checkOrder "M" .no 50 5 = true := by
  have within : (afterFill 100).Within "M" 50 1 := by
    constructor <;> decide +kernel
  have reduces : (afterFill 100).Reduces "M" .no 1 := by
    constructor <;> decide +kernel
  have within' : (afterFill 105).Within "M" 50 5 := by
    constructor <;> decide +kernel
  have reduces' : (afterFill 105).Reduces "M" .no 5 := by
    constructor <;> decide +kernel
  exact ⟨(reducing_order_accepted_iff within reduces).mpr (by decide +kernel),
    (reducing_order_accepted_iff within' reduces').mpr (by decide +kernel)⟩

/-- Five contracts off a position of twice its limit are refused. -/
theorem oversized_position_stays :
    (afterFill 200).Within "M" 50 5 ∧ (afterFill 200).Reduces "M" .no 5 ∧
      (afterFill 200).checkOrder "M" .no 50 5 = false := by
  refine ⟨?_, ?_, by decide +kernel⟩
  · constructor <;> decide +kernel
  · constructor <;> decide +kernel

end RiskManager

end Kalshi
