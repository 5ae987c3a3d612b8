import KalshiMaker.Engine.RiskManager
import Mathlib.Order.Defs.Unbundled
import Mathlib.Algebra.Order.Ring.Rat

/-! The drawdown switch against the history of what the risk manager has observed. -/
namespace Kalshi

/-- An attained value that no other exceeds. -/
def IsPeak {α : Type} [LT α] (peak : α) (values : List α) : Prop :=
  peak ∈ values ∧ ∀ value ∈ values, ¬ peak < value

variable {F : Type} [Floating F]

/-- The peak of a history with one more value is the larger of the two. -/
theorem IsPeak.append [IsStrictOrder F (· < ·)] {peak : F} {values : List F}
    (highest : IsPeak peak values) (value : F) :
    IsPeak (Floating.max peak value) (values ++ [value]) := by
  unfold Floating.max
  split
  next higher =>
    constructor
    · exact List.mem_append_right _ (List.mem_singleton_self value)
    · intro other member exceeds
      rcases List.mem_append.mp member with before | last
      · exact highest.2 other before (trans_of (· < ·) higher exceeds)
      · rw [List.mem_singleton.mp last] at exceeds
        exact irrefl_of (· < ·) value exceeds
  next lower =>
    constructor
    · exact List.mem_append_left _ highest.1
    · intro other member exceeds
      rcases List.mem_append.mp member with before | last
      · exact highest.2 other before exceeds
      · rw [List.mem_singleton.mp last] at exceeds
        exact lower exceeds

/-- What is done to a risk manager. -/
inductive RiskAct (F : Type) [Floating F] where
  | observe (snapshot : PortfolioSnapshot F)
  | resume
  | clear (bit : Constraint)
  | set (bit : Constraint)
  | update (om : OrderManager F) (tickers : List Ticker)

namespace RiskAct

/-- The risk manager afterwards; none where the process aborts. -/
def apply (risk : RiskManager F) : RiskAct F → Option (RiskManager F)
  | .observe snapshot =>
    match risk.updatePortfolio snapshot with
    | (some _, _) => none
    | (none, next) => some next
  | .resume => some risk.resume
  | .clear bit => some (risk.clear bit)
  | .set bit => some (risk.set bit)
  | .update om tickers => some (risk.update om tickers)

/-- The totals that the drawdown goes by, with one more act. -/
def since (seen : List F) : RiskAct F → List F
  | .observe snapshot => seen ++ [snapshot.totalPnlCents]
  | .resume => []
  | _ => seen

/-- The totals since the last resume; before any, break-even comes first. -/
def history (acts : List (RiskAct F)) : List F := acts.foldl since [0]

/-- Whether an act takes the drawdown bit back. -/
def lifts : RiskAct F → Bool
  | .resume => true
  | .clear bit => bit == .kDrawdown
  | _ => false

/-- No double is below the lowest one. -/
def Ranged : RiskAct F → Prop
  | .observe snapshot => Floating.lowest < snapshot.totalPnlCents ∨ snapshot.totalPnlCents = Floating.lowest
  | _ => True

end RiskAct

namespace RiskManager

@[simp] theorem setIf_peakTotalPnlCents (risk : RiskManager F) (breached : Prop) [Decidable breached]
    (bit : Constraint) : (risk.setIf breached bit).peakTotalPnlCents = risk.peakTotalPnlCents := by
  unfold setIf
  split <;> rfl

theorem setIf_other (risk : RiskManager F) (breached : Prop) [Decidable breached] {bit other : Constraint}
    (apart : other ≠ bit) : (risk.setIf breached bit).isSet other = risk.isSet other := by
  unfold setIf
  split
  · exact Function.update_of_ne apart _ _
  · rfl

theorem setIf_isSet (risk : RiskManager F) (breached : Prop) [Decidable breached] (bit : Constraint) :
    (risk.setIf breached bit).isSet bit = true ↔ risk.isSet bit = true ∨ breached := by
  unfold setIf
  split
  next breach =>
    rw [iff_true_right (.inr breach)]
    exact Function.update_self _ _ _
  next clear => exact (or_iff_left clear).symm

/-- What an observation does to the high-water mark and to the drawdown bit. -/
theorem updatePortfolio_drawdown {risk next : RiskManager F} {snapshot : PortfolioSnapshot F}
    (observed : risk.updatePortfolio snapshot = (none, next)) :
    next.limits = risk.limits ∧
      next.peakTotalPnlCents = Floating.max risk.peakTotalPnlCents snapshot.totalPnlCents ∧
      (next.isSet .kDrawdown = true ↔ risk.isSet .kDrawdown = true ∨
        risk.limits.maxDrawdownDollars < dollars (next.peakTotalPnlCents - snapshot.totalPnlCents)) := by
  unfold updatePortfolio at observed
  split at observed
  · cases observed
  · dsimp only at observed
    split at observed
    · cases observed
    · have final := congrArg Prod.snd observed
      dsimp only at final
      subst final
      refine ⟨?_, ?_, ?_⟩
      · rw [setIf_limits]
        exact (setIf_limits _ _ _).trans (setIf_limits _ _ _)
      · rw [setIf_peakTotalPnlCents]
      · rw [setIf_isSet, setIf_peakTotalPnlCents]
        refine or_congr (Eq.to_iff (congrArg (· = true) ?_)) ?_
        · exact (setIf_other _ _ (by decide)).trans (setIf_other _ _ (by decide))
        · exact Iff.rfl

end RiskManager

/-! ### Along a history -/

/-- The high-water mark is the peak of what was observed, or waits for an observation. -/
structure Anchored (limits : RiskLimits F) (seen : List F) (risk : RiskManager F) : Prop where
  limits : risk.limits = limits
  peak : IsPeak risk.peakTotalPnlCents seen ∨ seen = [] ∧ risk.peakTotalPnlCents = Floating.lowest

theorem Anchored.start (limits : RiskLimits F) [IsStrictOrder F (· < ·)] :
    Anchored limits [0] ({ limits } : RiskManager F) := by
  refine ⟨rfl, .inl ⟨List.mem_singleton_self _, fun value member higher => ?_⟩⟩
  rw [List.mem_singleton.mp member] at higher
  exact irrefl_of (· < ·) (0 : F) higher

section

variable [IsStrictOrder F (· < ·)] {limits : RiskLimits F} {seen : List F} {risk next : RiskManager F}

theorem Anchored.observe {snapshot : PortfolioSnapshot F} (anchored : Anchored limits seen risk)
    (ranged : (RiskAct.observe snapshot).Ranged) (observed : RiskAct.apply risk (.observe snapshot) = some next) :
    next.limits = limits ∧ IsPeak next.peakTotalPnlCents (seen ++ [snapshot.totalPnlCents]) ∧
      (next.isSet .kDrawdown = true ↔ risk.isSet .kDrawdown = true ∨
        limits.maxDrawdownDollars < RiskManager.dollars (next.peakTotalPnlCents - snapshot.totalPnlCents)) := by
  obtain ⟨sameLimits, peak⟩ := anchored
  unfold RiskAct.apply at observed
  dsimp only at observed
  split at observed
  · cases observed
  next portfolio =>
    cases observed
    obtain ⟨kept, raised, drawn⟩ := RiskManager.updatePortfolio_drawdown portfolio
    rw [sameLimits] at drawn
    refine ⟨kept.trans sameLimits, ?_, drawn⟩
    rw [raised]
    rcases peak with highest | ⟨fresh, lowest⟩
    · exact highest.append _
    · -- the first observation after a resume takes the mark from the lowest double to its own total
      rw [fresh, lowest, List.nil_append]
      have taken : Floating.max Floating.lowest snapshot.totalPnlCents = snapshot.totalPnlCents := by
        unfold Floating.max
        rcases ranged with above | same
        · exact if_pos above
        · rw [same, ite_self]
      rw [taken]
      refine ⟨List.mem_singleton_self _, fun value member higher => ?_⟩
      rw [List.mem_singleton.mp member] at higher
      exact irrefl_of (· < ·) _ higher

theorem Anchored.act {act : RiskAct F} (anchored : Anchored limits seen risk) (ranged : act.Ranged)
    (acted : act.apply risk = some next) : Anchored limits (act.since seen) next := by
  cases act with
  | observe snapshot =>
    obtain ⟨kept, highest, _⟩ := anchored.observe ranged acted
    exact ⟨kept, .inl highest⟩
  | resume =>
    cases acted
    exact ⟨anchored.limits, .inr ⟨rfl, rfl⟩⟩
  | clear bit | set bit =>
    cases acted
    exact ⟨anchored.limits, anchored.peak⟩
  | update om tickers =>
    cases acted
    refine ⟨(RiskManager.update_limits risk om tickers).trans anchored.limits, ?_⟩
    have same : (risk.update om tickers).peakTotalPnlCents = risk.peakTotalPnlCents :=
      RiskManager.setIf_peakTotalPnlCents _ _ _
    rw [same]
    exact anchored.peak

theorem Anchored.acts {acts : List (RiskAct F)} (anchored : Anchored limits seen risk)
    (ranged : ∀ act ∈ acts, act.Ranged) (ran : acts.foldlM RiskAct.apply risk = some next) :
    Anchored limits (acts.foldl RiskAct.since seen) next := by
  induction acts generalizing seen risk with
  | nil =>
    cases ran
    exact anchored
  | cons act acts ih =>
    rw [List.foldlM_cons, Option.bind_eq_bind, Option.bind_eq_some_iff] at ran
    obtain ⟨middle, acted, rest⟩ := ran
    have first := anchored.act (ranged act List.mem_cons_self) acted
    exact ih first (fun other member => ranged other (List.mem_cons_of_mem _ member)) rest

omit [IsStrictOrder F (· < ·)] in
/-- Only a resume, or a clear of the bit itself, takes it back. -/
theorem RiskAct.keeps_drawdown {act : RiskAct F} (keeps : act.lifts = false) (acted : act.apply risk = some next)
    (tripped : risk.isSet .kDrawdown = true) : next.isSet .kDrawdown = true := by
  cases act with
  | observe snapshot =>
    unfold RiskAct.apply at acted
    dsimp only at acted
    split at acted
    · cases acted
    next portfolio =>
      cases acted
      exact (RiskManager.updatePortfolio_drawdown portfolio).2.2.mpr (.inl tripped)
  | resume => cases keeps
  | clear bit =>
    cases acted
    have apart : Constraint.kDrawdown ≠ bit := by
      rintro rfl
      cases keeps
    exact (Function.update_of_ne apart _ _).trans tripped
  | set bit =>
    cases acted
    exact RiskManager.set_raises risk bit .kDrawdown tripped
  | update om tickers =>
    cases acted
    exact RiskManager.update_raises risk om tickers .kDrawdown tripped

omit [IsStrictOrder F (· < ·)] in
theorem RiskAct.latches {acts : List (RiskAct F)} (keep : ∀ act ∈ acts, act.lifts = false)
    (ran : acts.foldlM RiskAct.apply risk = some next) (tripped : risk.isSet .kDrawdown = true) :
    next.isSet .kDrawdown = true := by
  induction acts generalizing risk with
  | nil =>
    cases ran
    exact tripped
  | cons act acts ih =>
    rw [List.foldlM_cons, Option.bind_eq_bind, Option.bind_eq_some_iff] at ran
    obtain ⟨middle, acted, rest⟩ := ran
    have still := RiskAct.keeps_drawdown (keep act List.mem_cons_self) acted tripped
    exact ih (fun other member => keep other (List.mem_cons_of_mem _ member)) rest still

end

/-- After any history, an observation sets the drawdown bit exactly if the total has fallen from the peak since the
last resume by more than the limit, and nothing but a resume or a clear of the bit takes it back. -/
theorem drawdown_from_peak [IsStrictOrder F (· < ·)] (limits : RiskLimits F) (acts : List (RiskAct F))
    (ranged : ∀ act ∈ acts, act.Ranged) (risk : RiskManager F)
    (ran : acts.foldlM RiskAct.apply ({ limits } : RiskManager F) = some risk) :
    (∀ snapshot next, (RiskAct.observe snapshot).Ranged → RiskAct.apply risk (.observe snapshot) = some next →
      ∃ peak, IsPeak peak (RiskAct.history (acts ++ [.observe snapshot])) ∧
        (next.isSet .kDrawdown = true ↔ risk.isSet .kDrawdown = true ∨
          limits.maxDrawdownDollars < RiskManager.dollars (peak - snapshot.totalPnlCents))) ∧
    (risk.isSet .kDrawdown = true → ∀ (later : List (RiskAct F)) (last : RiskManager F),
      (∀ act ∈ later, act.lifts = false) → later.foldlM RiskAct.apply risk = some last →
        last.isSet .kDrawdown = true) := by
  have anchored := (Anchored.start limits).acts ranged ran
  constructor
  · intro snapshot next within observed
    obtain ⟨_, highest, drawn⟩ := anchored.observe within observed
    refine ⟨next.peakTotalPnlCents, ?_, drawn⟩
    unfold RiskAct.history
    rw [List.foldl_append]
    exact highest
  · intro tripped later last keep ranOn
    exact RiskAct.latches keep ranOn tripped

theorem drawdown_from_peak_resumed :
    let tight : RiskLimits ℚ := { maxDrawdownDollars := 1 }
    let total (cents : ℚ) : PortfolioSnapshot ℚ := ⟨cents, 0, 0, []⟩
    let acts : List (RiskAct ℚ) := [.observe (total 500), .resume, .observe (total (-300))]
    ∃ risk, acts.foldlM RiskAct.apply ({ limits := tight } : RiskManager ℚ) = some risk ∧
      (∀ snapshot next, (RiskAct.observe snapshot).Ranged → RiskAct.apply risk (.observe snapshot) = some next →
        ∃ peak, IsPeak peak (RiskAct.history (acts ++ [.observe snapshot])) ∧
          (next.isSet .kDrawdown = true ↔ risk.isSet .kDrawdown = true ∨
            tight.maxDrawdownDollars < RiskManager.dollars (peak - snapshot.totalPnlCents))) ∧
      (risk.isSet .kDrawdown = true → ∀ (later : List (RiskAct ℚ)) (last : RiskManager ℚ),
        (∀ act ∈ later, act.lifts = false) → later.foldlM RiskAct.apply risk = some last →
          last.isSet .kDrawdown = true) := by
  intro tight total acts
  have ranged : ∀ act ∈ acts, act.Ranged := by
    intro act member
    simp only [acts, List.mem_cons, List.not_mem_nil, or_false] at member
    rcases member with rfl | rfl | rfl
    · exact .inl (by decide +kernel)
    · trivial
    · exact .inl (by decide +kernel)
  have runs : (acts.foldlM RiskAct.apply ({ limits := tight } : RiskManager ℚ)).isSome = true := by decide +kernel
  obtain ⟨risk, ran⟩ := Option.isSome_iff_exists.mp runs
  exact ⟨risk, ran, drawdown_from_peak tight acts ranged risk ran⟩

end Kalshi
