import KalshiMaker.App.Drift
import KalshiMaker.App.LoopSteps
import KalshiMaker.Net.ScriptedHost

/-! A market with a position is tracked in every state of the main loop, so the reconciliation leaves no market out. -/
namespace Kalshi

open Effect Eff Relation Ledger

variable {F X : Type} [Floating F]

/-- No market outside the tracked ones has a position. -/
def Ledger.HoldsTracked (L : Ledger F) : Prop :=
  ∀ ticker, ticker ∉ L.tickers → (L.orderMgr.netPosition ticker).centi = 0

namespace Ledger

variable {L L' : Ledger F}

/-- A fill on a tracked market moves the position of that market only. -/
theorem bookFill_holdsTracked (holds : L.HoldsTracked) {fill : Fill F} (tracked : fill.marketTicker ∈ L.tickers) :
    ∀ ticker, ticker ∉ L.tickers → ((L.orderMgr.bookFill fill).netPosition ticker).centi = 0 := by
  intro ticker untracked
  have elsewhere : ticker ≠ fill.marketTicker := by
    rintro rfl
    exact untracked tracked
  rw [OrderManager.bookFill_netPosition, if_neg elsewhere, holds ticker untracked]
  rfl

theorem step_holdsTracked {action : Action F} (step : Step L action L') (unflattened : ∀ fill, action ≠ .flatten fill)
    (holds : L.HoldsTracked) : L'.HoldsTracked := by
  intro ticker untracked
  cases step with
  | @fill fill _ tracked _ =>
    rw [forgetFilled_tickers] at untracked
    rw [forgetFilled_orderMgr]
    exact bookFill_holdsTracked holds tracked ticker untracked
  | flatten _ _ | reflatten => exact absurd rfl (unflattened _)
  | refill | raise _ | clear | resume | forget _ => exact holds ticker untracked
  | quote step =>
    obtain ⟨openOrders, books⟩ := quoteStep_books step
    rw [quoteStep_tickers step] at untracked
    rw [books]
    exact holds ticker untracked
  | sweepAll _ | sweep _ | cancel =>
    change ((L.orderMgr.afterCancels _).netPosition ticker).centi = 0
    rw [OrderManager.afterCancels_netPosition]
    exact holds ticker untracked
  | track _ =>
    exact holds ticker fun before => untracked (List.mem_append_left _ before)
  | @untrack dropped _ flat _ =>
    by_cases same : ticker = dropped
    · subst same
      exact (Quantity.isZero_iff _).mp flat
    · exact holds ticker fun before => untracked (List.mem_filter.mpr ⟨before, by simpa using same⟩)

end Ledger

/-- The running program flattens nothing: only the end of a session does. -/
def Beat.unflattened : Beat F → Prop
  | .event (.recordFlatten _) => False
  | _ => True

theorem Beat.permits_flatten {beat : Beat F} (unflattened : beat.unflattened) {action : Action F}
    (permitted : beat.permits action) (fill : Fill F) : action ≠ .flatten fill := by
  rintro rfl
  cases beat with
  | event input =>
    rcases permitted with permitted | swept
    · cases input with
      | enforceQuoteSafety => exact permitted.elim nofun fun ⟨_, same⟩ => nomatch same
      | recordFlatten order => exact unflattened
      | requoteIdleMarkets => exact nomatch permitted.choose_spec
      | cancelPreexistingOrders orders => exact nomatch permitted.choose_spec.2
      | fill _ | addMarket _ => exact permitted.elim nofun nofun
      | _ => cases permitted
    · cases swept
  | reconnected => exact permitted.elim id nofun
  | stopped => exact permitted
  | poll lastMessage => exact permitted

variable (venue : Venue X) (account : Account F X) (config : MainConfig)

/-- From a session that holds nothing, in whatever order feed, rotation, reconnects, rounds and the wind-down come, no
position is outside the tracked markets, and a reconciliation is in sync exactly if every market agrees, whatever the
exchange and the baseline list. -/
theorem positions_stay_tracked (live : Live F X)
    (flat : ∀ ticker, (live.desk.orderMgr.netPosition ticker).centi = 0) {beats : List (Beat F)}
    (unflattened : ∀ beat ∈ beats, beat.unflattened) :
    let after := (MainLoop.run venue account config ⟨live, .trading, 0, true, 0, []⟩ beats).desk
    (∀ ticker, (after.orderMgr.netPosition ticker).centi ≠ 0 → ticker ∈ after.session.tickers) ∧
    ∀ exchange baseline, (reconcile after.orderMgr after.session.tickers exchange baseline).inSync = true ↔
      ∀ ticker, (after.orderMgr.netPosition ticker).centi +
        (positionIn (countedBaseline after.session.tickers baseline) ticker).centi =
          (positionIn exchange ticker).centi := by
  have initially : live.desk.ledger.HoldsTracked := fun ticker _ => flat ticker
  intro after
  have holds : after.ledger.HoldsTracked := by
    refine MainLoop.run_keeps venue account config (fun beat member L L' action permitted step => ?_) initially
    exact step_holdsTracked step (Beat.permits_flatten (unflattened beat member) permitted)
  refine ⟨fun ticker => not_imp_comm.mp (holds ticker), fun exchange baseline => ?_⟩
  exact reconcile_inSync_iff baseline holds fun ticker => rfl

def quietAccount : Account ℚ Script := ⟨fun x => (.ok [], x), fun x => (.ok [], x), fun _ x => (.ok [], x)⟩

def twoMarkets : Live ℚ Script :=
  { desk := (Process.start { tickers := ["M", "N"] } {} {} {} none none false false).desk }

def boughtFill : Fill ℚ where
  tradeId := "T"
  orderId := "O"
  marketTicker := "M"
  side := .yes
  priceCents := 40
  quantity := ⟨100⟩
  feeCents := 0
  isTaker := false
  timestamp := 0

/-- One market is bought in, and a rotation would drop both. -/
def boughtBeats : List (Beat ℚ) :=
  [.event (.fill boughtFill), .event (.removeMarketIfIdle "M"), .event (.removeMarketIfIdle "N"),
    .reconnected, .poll 0]

/-- The market that was bought in stays, and a comparison with an exchange that holds nothing tells. -/
theorem positions_stay_tracked_bought :
    let after := (MainLoop.run ⟨⟨"exchange"⟩, Script.host⟩ quietAccount {} ⟨twoMarkets, .trading, 0, true, 0, []⟩
      boughtBeats).desk
    "M" ∈ after.session.tickers ∧ (reconcile after.orderMgr after.session.tickers [] []).inSync = false := by
  have unflattened : ∀ beat ∈ boughtBeats, beat.unflattened := by simp [boughtBeats, Beat.unflattened]
  obtain ⟨held, compared⟩ :=
    positions_stay_tracked ⟨⟨"exchange"⟩, Script.host⟩ quietAccount {} twoMarkets (fun _ => rfl) unflattened
  have position : ((MainLoop.run ⟨⟨"exchange"⟩, Script.host⟩ quietAccount {} ⟨twoMarkets, .trading, 0, true, 0, []⟩
      boughtBeats).desk.orderMgr.netPosition "M").centi = 100 := by decide +kernel
  refine ⟨held "M" (position ▸ by decide), ?_⟩
  rw [Bool.eq_false_iff, Ne, compared]
  intro agrees
  have zero := agrees "M"
  rw [position] at zero
  exact absurd zero (by decide)

end Kalshi
