import KalshiMaker.Engine.Looks

/-! Views of a desk that only fills, flattens and refreshes of the risk manager can touch. -/
namespace Kalshi

open Effect Eff Desk Relation Quoter TradingSession

variable {F X υ : Type} [Floating F]

/-- Whether an event records a fill or refreshes what the risk manager has cached. -/
def Event.accounts : Event F → Bool
  | .fill _ | .recordFlatten _ | .riskUpdate _ => true
  | _ => false

/-- A view of none of what other events change. -/
structure Untouched (venue : Venue X) (view : Desk F X → υ) : Prop where
  reacts : Reacts venue view fun _ _ _ => False
  session : ∀ s session, session.priorPnl = s.session.priorPnl → view { s with session } = view s
  quoter : ∀ s ownQuotes fvEma reduceOnly,
    view { s with quoter := { s.quoter with ownQuotes, fvEma, reduceOnly } } = view s
  tape : ∀ s tradeTape, view { s with tradeTape } = view s
  cancels : ∀ s cancels x, view (s.afterCancels cancels x) = view s
  risk : ∀ s riskMgr, riskMgr.limits = s.riskMgr.limits → riskMgr.cachedPosition = s.riskMgr.cachedPosition →
    riskMgr.cachedOpenOrderCount = s.riskMgr.cachedOpenOrderCount → view { s with riskMgr } = view s

/-- The figures of a portfolio move bits and the high-water mark, and nothing that orders are checked against. -/
theorem RiskManager.updatePortfolio_cached (risk : RiskManager F) (snapshot : PortfolioSnapshot F) :
    (risk.updatePortfolio snapshot).2.cachedOpenOrderCount = risk.cachedOpenOrderCount := by
  have setIf : ∀ (risk : RiskManager F) (breached : Prop) [Decidable breached] (bit : Constraint),
      (risk.setIf breached bit).cachedOpenOrderCount = risk.cachedOpenOrderCount := by
    intro risk breached _ bit
    unfold RiskManager.setIf
    split <;> rfl
  unfold RiskManager.updatePortfolio
  split
  · rfl
  · dsimp only
    split
    · exact setIf _ _ _
    · rw [setIf]
      exact (setIf _ _ _).trans (setIf _ _ _)

namespace Untouched

variable {venue : Venue X} {view : Desk F X → υ} (untouched : Untouched venue view)

include untouched

theorem cancelAllQuotes (s : Desk F X) : view (cancelAllQuotes venue s).2 = view s := by
  obtain ⟨cancels, x, ran, _⟩ := cancelAllQuotes_run venue s
  rw [ran]
  exact (untouched.quoter (s.afterCancels cancels x) _ _ _).trans (untouched.cancels s cancels x)

theorem checkFeed (ticker : Ticker) (s : Desk F X) : Leads view (fun _ _ => False) (checkFeed venue ticker) s := by
  unfold TradingSession.checkFeed
  refine Leads.bind (feedConfirmed_leads untouched.reacts ticker s) (fun _ s₁ _ => ?_)
  refine Leads.bind (Leads.quiet rfl) (fun _ s₂ _ => ?_)
  refine Leads.ite (fun _ => Leads.quiet rfl) (fun _ => ?_)
  refine Leads.bind (Leads.quiet (untouched.session s₂ _ rfl)) (fun _ s₃ _ => ?_)
  obtain ⟨cancels, x, swept, _⟩ := cancelAllGuarded_run venue ticker s₃
  refine Leads.bind (Leads.quiet ?_) (fun _ s₄ _ => Leads.quiet (untouched.quoter s₄ _ _ _))
  rw [swept]
  exact untouched.cancels s₃ cancels x

theorem feedPortfolio (snapshot : PortfolioSnapshot F) (s : Desk F X) :
    view (feedPortfolio snapshot s).2 = view s := by
  obtain ⟨limits, position⟩ := s.riskMgr.updatePortfolio_keeps snapshot
  have fed : view { s with riskMgr := (s.riskMgr.updatePortfolio snapshot).2 } = view s :=
    untouched.risk s _ limits position (s.riskMgr.updatePortfolio_cached snapshot)
  unfold TradingSession.feedPortfolio
  rw [bind_apply, get_apply, andThen_ok]
  cases (s.riskMgr.updatePortfolio snapshot).1 <;> exact fed

theorem handle {event : Event F} (quiet : event.accounts = false) (s : Desk F X) :
    view (handle venue event s).2 = view s := by
  refine Leads.unmoved (?_ : Leads view (fun _ _ => False) (Kalshi.handle venue event) s)
  cases event with
  | fill _ | recordFlatten _ | riskUpdate _ => cases quiet
  | snapshot seed => exact markTicked_leads untouched.reacts _ _ s
  | delta ticker side priceCents qty =>
    exact (onDelta_leads untouched.reacts ticker side priceCents qty s).mono fun _ _ => And.right
  | trade trade => exact Leads.quiet (untouched.tape s _)
  -- an adopted market changes the list, and not what earlier sessions left
  | addMarket seed =>
    refine Leads.bind (Leads.quiet ?_) (fun _ s₁ _ => seedOrderbook_leads untouched.reacts seed s₁)
    have prior : (s.session.adopt seed.ticker).priorPnl = s.session.priorPnl := by
      unfold adopt
      split <;> rfl
    exact untouched.session s _ prior
  | removeMarketIfIdle ticker =>
    refine Leads.bind (Leads.bind (Leads.quiet rfl) (fun _ s₁ _ => ?_)) (fun _ s₂ _ => Leads.quiet rfl)
    refine Leads.ite (fun _ => ?_) (fun _ => Leads.quiet rfl)
    exact Leads.bind (Leads.quiet (untouched.session s₁ _ rfl)) fun _ s₂ _ => Leads.quiet rfl
  | requoteIdleMarkets =>
    have anyMarket : RequotesOnly venue (fun _ => True) s := .inr (AtEach.of_forall fun _ _ _ _ => trivial)
    exact (requoteIdleMarkets_leads untouched.reacts anyMarket).mono fun _ _ ⟨_, _, moved⟩ => moved
  | enforceQuoteSafety =>
    refine Leads.bind (Leads.quiet rfl) (fun _ s₁ _ => Leads.ite (fun _ => ?_) (fun _ => ?_))
    · exact Leads.quiet (untouched.cancelAllQuotes s₁)
    · refine Leads.forEach (P := fun _ _ => True) (fun ticker _ s₂ _ => untouched.checkFeed ticker s₂) ?_
      exact AtEach.of_forall fun _ _ _ => trivial
  | runPortfolioRisk =>
    exact Leads.bind (Leads.quiet rfl) fun _ s₁ _ => Leads.quiet (untouched.feedPortfolio _ s₁)
  | seedOrderbook seed => exact seedOrderbook_leads untouched.reacts seed s
  | disconnect | cancelAllQuotes => exact Leads.quiet (untouched.cancelAllQuotes s)
  | cancelPreexistingOrders restingOrders =>
    obtain ⟨cancels, x, ran, _⟩ := OrderManager.cancelEach_run venue (restingOrders.map Order.id) s
    refine Leads.quiet ?_
    change view (Eff.forEach (restingOrders.map Order.id) (OrderManager.cancelBestEffort venue) s).2 = view s
    rw [ran]
    exact untouched.cancels s cancels x
  | updatePortfolio snapshot => exact Leads.quiet (untouched.feedPortfolio snapshot s)
  | setReduceOnly _ | resetQuotes | forgetTicker _ | forgetOrder _ _ => exact Leads.quiet (untouched.quoter s _ _ _)
  | setConstraint _ | clearConstraint _ | halt | resume => exact Leads.quiet (untouched.risk s _ rfl rfl rfl)

end Untouched

end Kalshi
