import KalshiMaker.Engine.Portfolio

/-! Pre-trade checks and the kill-switch bits. -/
namespace Kalshi

inductive Constraint where
  | kPnLLimit
  | kPositionLimit
  | kOpenOrders
  | kHighFillRate
  | kStaleBook
  | kModelDiverge
  | kManualHalt
  | kConnectivity
  | kOverExposure
  | kPortfolioLoss
  | kDrawdown
  deriving DecidableEq, Repr

def Constraint.all : List Constraint :=
  [.kPnLLimit, .kPositionLimit, .kOpenOrders, .kHighFillRate, .kStaleBook, .kModelDiverge,
    .kManualHalt, .kConnectivity, .kOverExposure, .kPortfolioLoss, .kDrawdown]

theorem Constraint.mem_all (bit : Constraint) : bit ∈ Constraint.all := by
  cases bit <;> decide

structure RiskLimits (F : Type) [Floating F] where
  maxPositionPerMarket : Int := 100
  maxOpenOrdersPerMarket : Int := 4
  maxOrderSize : Int := 25
  dailyLossLimit : F := ((-500 : Int) : F)
  maxTotalExposureDollars : F := ((10000 : Int) : F)
  maxTotalLossDollars : F := ((-1000 : Int) : F)
  minQuotePriceCents : Int := 10
  maxQuotePriceCents : Int := 90
  maxDrawdownDollars : F := ((500 : Int) : F)

structure RiskManager (F : Type) [Floating F] where
  limits : RiskLimits F := {}
  constraints : Constraint → Bool := fun _ => false
  cachedPosition : Ticker → Quantity := fun _ => {}
  cachedOpenOrderCount : Ticker → Int := fun _ => 0
  cachedTotalPnlCents : F := 0
  peakTotalPnlCents : F := 0

namespace RiskManager

variable {F : Type} [Floating F]

def isHalted (risk : RiskManager F) : Bool := Constraint.all.any risk.constraints

def isSet (risk : RiskManager F) (bit : Constraint) : Bool := risk.constraints bit

def set (risk : RiskManager F) (bit : Constraint) : RiskManager F :=
  { risk with constraints := Function.update risk.constraints bit true }

def clear (risk : RiskManager F) (bit : Constraint) : RiskManager F :=
  { risk with constraints := Function.update risk.constraints bit false }

def halt (risk : RiskManager F) : RiskManager F := risk.set .kManualHalt

/-- The high-water mark restarts at the next observation. -/
def resume (risk : RiskManager F) : RiskManager F :=
  { risk with constraints := fun _ => false, peakTotalPnlCents := Floating.lowest }

def checkOrder (risk : RiskManager F) (ticker : Ticker) (side : Side) (priceCents quantity : Int) : Bool :=
  if risk.isHalted then false
  else if risk.limits.maxOrderSize < quantity then false
  else if priceCents < risk.limits.minQuotePriceCents ∨ risk.limits.maxQuotePriceCents < priceCents then
    false
  else if risk.limits.maxOpenOrdersPerMarket ≤ risk.cachedOpenOrderCount ticker then false
  else
    let delta := Quantity.fromContracts (if side = .yes then quantity else -quantity)
    decide ((risk.cachedPosition ticker + delta).abs ≤
      Quantity.fromContracts risk.limits.maxPositionPerMarket)

def setIf (risk : RiskManager F) (breached : Prop) [Decidable breached] (bit : Constraint) :
    RiskManager F := if breached then risk.set bit else risk

def dollars (cents : F) : F := cents / ((100 : Int) : F)

def update (risk : RiskManager F) (om : OrderManager F) (tickers : List Ticker) : RiskManager F :=
  let total := Portfolio.sumOver tickers om.realizedPnl
  let cached : RiskManager F :=
    { risk with
      cachedPosition := fun ticker => if ticker ∈ tickers then om.netPosition ticker else {}
      cachedOpenOrderCount := fun ticker => (om.openOn ticker).length
      cachedTotalPnlCents := total }
  cached.setIf (dollars total < risk.limits.dailyLossLimit) .kPnLLimit

/-- The text of the `ensure` that fails, if one does, and the state at that point. -/
def updatePortfolio (risk : RiskManager F) (snapshot : PortfolioSnapshot F) :
    Option String × RiskManager F :=
  if ¬ Floating.isFinite snapshot.totalNotionalCents then (some "portfolio notional is not finite", risk)
  else
    let exposed := risk.setIf
      (risk.limits.maxTotalExposureDollars < dollars snapshot.totalNotionalCents) .kOverExposure
    let totalPnl := snapshot.totalPnlCents
    if ¬ Floating.isFinite totalPnl then (some "portfolio PnL is not finite", exposed)
    else
      let lost := exposed.setIf (dollars totalPnl < risk.limits.maxTotalLossDollars) .kPortfolioLoss
      let peak := Floating.max risk.peakTotalPnlCents totalPnl
      let raised : RiskManager F := { lost with peakTotalPnlCents := peak }
      (none, raised.setIf (risk.limits.maxDrawdownDollars < dollars (peak - totalPnl)) .kDrawdown)

theorem isHalted_iff (risk : RiskManager F) :
    risk.isHalted = true ↔ ∃ bit, risk.constraints bit = true := by
  simp [isHalted, Constraint.mem_all]

@[simp] theorem set_constraints (risk : RiskManager F) (bit : Constraint) :
    (risk.set bit).constraints = Function.update risk.constraints bit true := rfl

@[simp] theorem clear_constraints (risk : RiskManager F) (bit : Constraint) :
    (risk.clear bit).constraints = Function.update risk.constraints bit false := rfl

@[simp] theorem resume_constraints (risk : RiskManager F) :
    risk.resume.constraints = fun _ => false := rfl

/-- No order passes while a bit is set. -/
theorem checkOrder_quiet {risk : RiskManager F} {ticker : Ticker} {side : Side} {price quantity : Int}
    (passed : risk.checkOrder ticker side price quantity = true) (bit : Constraint) :
    risk.constraints bit = false := by
  cases h : risk.isHalted with
  | true => simp [checkOrder, h] at passed
  | false =>
    cases set : risk.constraints bit with
    | false => rfl
    | true => rw [(isHalted_iff risk).mpr ⟨bit, set⟩] at h; cases h

/-- An order passes only within the band of prices. -/
theorem checkOrder_price {risk : RiskManager F} {ticker : Ticker} {side : Side} {price quantity : Int}
    (passed : risk.checkOrder ticker side price quantity = true) :
    risk.limits.minQuotePriceCents ≤ price ∧ price ≤ risk.limits.maxQuotePriceCents := by
  unfold checkOrder at passed
  split at passed
  · cases passed
  · split at passed
    · cases passed
    · split at passed
      · cases passed
      next banded =>
        rw [not_or, not_lt, not_lt] at banded
        exact banded

/-- An order passes only if the position it would lead to, filled in full, is within the limit. -/
theorem checkOrder_position {risk : RiskManager F} {ticker : Ticker} {side : Side} {price quantity : Int}
    (passed : risk.checkOrder ticker side price quantity = true) :
    |(risk.cachedPosition ticker).centi + side.toward (quantity * 100)| ≤
      risk.limits.maxPositionPerMarket * 100 := by
  unfold checkOrder at passed
  split at passed
  · cases passed
  · split at passed
    · cases passed
    · split at passed
      · cases passed
      · split at passed
        · cases passed
        · have within := of_decide_eq_true passed
          rw [Quantity.le_iff, Quantity.abs_centi, Quantity.add_centi] at within
          cases side <;> simpa [Side.toward] using within

/-- Bits that were set stay set. -/
def Raises (before after : RiskManager F) : Prop :=
  ∀ bit, before.constraints bit = true → after.constraints bit = true

theorem set_raises (risk : RiskManager F) (bit : Constraint) : Raises risk (risk.set bit) := by
  intro other on
  by_cases same : other = bit
  · simp [same]
  · simpa [Function.update_of_ne same] using on

theorem setIf_raises (risk : RiskManager F) (breached : Prop) [Decidable breached] (bit : Constraint) :
    Raises risk (risk.setIf breached bit) := by
  unfold setIf
  split
  · exact set_raises risk bit
  · exact fun _ on => on

theorem update_raises (risk : RiskManager F) (om : OrderManager F) (tickers : List Ticker) :
    Raises risk (risk.update om tickers) :=
  fun bit on => setIf_raises _ _ _ bit on

theorem updatePortfolio_raises (risk : RiskManager F) (snapshot : PortfolioSnapshot F) :
    Raises risk (risk.updatePortfolio snapshot).2 := by
  intro bit on
  unfold updatePortfolio
  split
  · exact on
  · dsimp only
    split
    · exact setIf_raises _ _ _ bit on
    · exact setIf_raises _ _ _ bit (setIf_raises _ _ _ bit (setIf_raises _ _ _ bit on))

@[simp] theorem setIf_limits (risk : RiskManager F) (breached : Prop) [Decidable breached] (bit : Constraint) :
    (risk.setIf breached bit).limits = risk.limits := by
  unfold setIf
  split <;> rfl

@[simp] theorem setIf_cachedPosition (risk : RiskManager F) (breached : Prop) [Decidable breached]
    (bit : Constraint) : (risk.setIf breached bit).cachedPosition = risk.cachedPosition := by
  unfold setIf
  split <;> rfl

@[simp] theorem update_limits (risk : RiskManager F) (om : OrderManager F) (tickers : List Ticker) :
    (risk.update om tickers).limits = risk.limits := setIf_limits _ _ _

theorem update_cachedPosition (risk : RiskManager F) (om : OrderManager F) {tickers : List Ticker}
    {ticker : Ticker} (tracked : ticker ∈ tickers) :
    (risk.update om tickers).cachedPosition ticker = om.netPosition ticker := by
  unfold update
  rw [setIf_cachedPosition]
  exact if_pos tracked

/-- Portfolio figures change neither the limits nor the positions that orders are checked against. -/
theorem updatePortfolio_keeps (risk : RiskManager F) (snapshot : PortfolioSnapshot F) :
    (risk.updatePortfolio snapshot).2.limits = risk.limits ∧
      (risk.updatePortfolio snapshot).2.cachedPosition = risk.cachedPosition := by
  unfold updatePortfolio
  split
  · exact ⟨rfl, rfl⟩
  · dsimp only
    split <;> simp

@[simp] theorem update_cachedTotalPnlCents (risk : RiskManager F) (om : OrderManager F)
    (tickers : List Ticker) :
    (risk.update om tickers).cachedTotalPnlCents = Portfolio.sumOver tickers om.realizedPnl := by
  unfold update setIf
  dsimp only
  split <;> rfl

end RiskManager

end Kalshi
