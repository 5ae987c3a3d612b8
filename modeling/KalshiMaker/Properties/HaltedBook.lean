import KalshiMaker.App.MainLoop
import KalshiMaker.Engine.Looks
import KalshiMaker.Net.ScriptedHost

/-! A halt clears the book in each round of the trading loop; the wind-down loop neither clears it nor watches the
portfolio. -/
namespace Kalshi

open Effect Eff Desk Relation TradingSession

variable {F X : Type} [Floating F]

/-! ### What a round owes -/

/-- An open order on a tracked market. -/
def Desk.Resting (s : Desk F X) (id : OrderId) : Prop :=
  ∃ order, s.orderMgr.openOrders.lookup id = some order ∧ order.marketTicker ∈ s.session.tickers

/-- Every order that rested on a tracked market has been sent a cancel since. -/
def Desk.Swept (before after : Desk F X) : Prop :=
  ∀ id, before.Resting id → ∃ entry ∈ before.callsSince after, ∃ accepted, entry.call = .cancel id accepted

namespace MainLoop

def ClearsBook (before after : MainLoop F X) : Prop :=
  before.desk.riskMgr.isHalted = true → before.desk.Swept after.desk

/-- A round at the cadence of the portfolio check is due one. -/
def riskDue (loop : MainLoop F X) : Prop := (loop.iterations + 1) % kPortfolioRiskInterval = 0

/-- While orders rest, every tenth round puts the portfolio before the kill-switch. -/
def KeepsWatch (before after : MainLoop F X) : Prop :=
  before.riskDue → (∃ id, before.desk.Resting id) → after.alive = true →
    ∃ snapshot, after.judged = before.judged ++ [snapshot]

/-- The main thread has another round of a loop before it. -/
def Iterates (venue : Venue X) (loop : MainLoop F X) : Prop :=
  loop.alive = true ∧
    match loop.phase with
    | .trading => True
    | .windDown deadline => (venue.host.steadyNow loop.desk.outside).1 < deadline
    | .done => False

/-- In the trading loop a halt that the round begins with outlasts its staleness check. In the wind-down loop nothing
rests, or there is no halt and no portfolio check due. -/
def Guarded (venue : Venue X) (lastMessage : TimePoint) (loop : MainLoop F X) : Prop :=
  (∃ id, loop.desk.Resting id) →
    match loop.phase with
    | .trading =>
      loop.desk.riskMgr.isHalted = true → (loop.pollCount + 1) % kStalenessCheckInterval = 0 →
        (loop.desk.riskMgr.staleChecked ((venue.host.steadyNow loop.desk.outside).1 - lastMessage)).isHalted = true
    | .windDown _ => loop.desk.riskMgr.isHalted = false ∧ ¬ loop.riskDue
    | .done => True

end MainLoop

/-! ### A halted book -/

/-- Halted, with the orders, the tracked markets and the calls of `before`. -/
structure Desk.Stands (before s : Desk F X) : Prop where
  orderMgr : s.orderMgr = before.orderMgr
  tickers : s.session.tickers = before.session.tickers
  calls : s.calls = before.calls
  halted : s.riskMgr.isHalted = true

theorem Desk.Stands.raised {before s : Desk F X} (stands : Stands before s) {riskMgr : RiskManager F}
    (raises : s.riskMgr.Raises riskMgr) : Stands before { s with riskMgr } := by
  obtain ⟨bit, on⟩ := s.riskMgr.isHalted_iff.mp stands.halted
  exact ⟨stands.orderMgr, stands.tickers, stands.calls, riskMgr.isHalted_iff.mpr ⟨bit, raises bit on⟩⟩

variable (venue : Venue X)

/-- Cancelling all quotes of a halted desk sweeps it, and what is called later does not undo that. -/
theorem Desk.Stands.cancelAllQuotes {before s after : Desk F X} (stands : Stands before s)
    (grown : (cancelAllQuotes venue s).2.calls <+: after.calls) : before.Swept after := by
  obtain ⟨cancels, x, ran, sent⟩ := cancelAllQuotes_run venue s
  obtain ⟨later, grown⟩ := grown
  have calls : (TradingSession.cancelAllQuotes venue s).2.calls =
      before.calls ++ cancels.map fun sent => ⟨.cancel sent.1 sent.2, s.session.tickers⟩ := by
    rw [ran, ← stands.calls]
    rfl
  rintro id ⟨order, found, tracked⟩
  rw [← stands.orderMgr] at found
  rw [← stands.tickers] at tracked
  obtain ⟨cancel, member, rfl⟩ := List.mem_map.mp (sent.reaches id order found tracked)
  refine ⟨⟨.cancel cancel.1 cancel.2, s.session.tickers⟩, ?_, cancel.2, rfl⟩
  unfold Desk.callsSince
  rw [← grown, calls, List.append_assoc, List.drop_left]
  exact List.mem_append_left _ (List.mem_map_of_mem member)

/-! ### The stages of a round -/

variable (account : Account F X) (config : MainConfig)

/-- The refresh of a desk that stays halted does nothing more than look at the feed. -/
theorem MainLoop.refreshFeed_halted {s : Desk F X} {lastMessage : TimePoint}
    (outlasts : (s.riskMgr.staleChecked ((venue.host.steadyNow s.outside).1 - lastMessage)).isHalted = true) :
    refreshFeed venue lastMessage s =
      (.ok (), { s with
        outside := (venue.host.steadyNow s.outside).2
        riskMgr := s.riskMgr.staleChecked ((venue.host.steadyNow s.outside).1 - lastMessage) }) := by
  unfold refreshFeed checkWsStaleness
  rw [bind_apply, bind_apply]
  exact requoteIdleMarkets_halted venue outlasts

/-- Whatever fails within a requote starts a cooldown or ends the process. -/
theorem TradingSession.requoteIdleMarkets_contained : Contained (requoteIdleMarkets (F := F) venue) := by
  have wants : ∀ ticker, Contained (wantsRequote (F := F) venue ticker) := by
    intro ticker
    refine Contained.of_ok fun s => ?_
    obtain ⟨wanted, x, ran⟩ := wantsRequote_run venue ticker s
    exact ⟨wanted, by rw [ran]⟩
  have market : ∀ ticker, Contained (requoteMarket (F := F) venue ticker) := by
    intro ticker
    unfold requoteMarket
    refine Contained.bind (Contained.of_ok fun s => ⟨s, rfl⟩) fun s => ?_
    refine Contained.bind (wants ticker) fun wanted => Contained.ite ?_ (Contained.pure ())
    exact Contained.tryCatch fun _ => Contained.of_ok fun s => ⟨(), rfl⟩
  unfold requoteIdleMarkets
  refine Contained.bind (Contained.of_ok fun s => ⟨s, rfl⟩) fun s => ?_
  exact Contained.ite (Contained.pure ()) (Contained.forEach market _)

/-- The kill-switch stops with an abort or not at all, and leaves a halted book as it stands. -/
theorem TradingSession.feedPortfolio_leaves (snapshot : PortfolioSnapshot F) (s : Desk F X) :
    Leaves (fun _ t => ∀ before, Stands before s → Stands before t)
      (fun stop t => (∃ what, stop = .abort what) ∧ ∀ before, Stands before s → Stands before t)
      (feedPortfolio snapshot) s := by
  have stands : ∀ before, Stands before s →
      Stands before { s with riskMgr := (s.riskMgr.updatePortfolio snapshot).2 } :=
    fun before stands => stands.raised (s.riskMgr.updatePortfolio_raises snapshot)
  unfold feedPortfolio
  refine Leaves.bind (Leaves.of_run rfl (Leaves.bind (Leaves.of_run rfl ?_)))
  cases (s.riskMgr.updatePortfolio snapshot).1 with
  | none => exact Leaves.of_run rfl stands
  | some what => exact Leaves.abort ⟨⟨what, rfl⟩, stands⟩

namespace Live

/-- Calls are only ever added. -/
def Grows {α : Type} (m : Eff (Live F X) String α) : Prop :=
  ∀ live, Leads (fun live : Live F X => live.desk.calls) (· <+: ·) m live

theorem Grows.within {α : Type} {m : Eff (Live F X) String α} (grows : Grows m) (live : Live F X) :
    live.desk.calls <+: (m live).2.desk.calls :=
  chain_invariant (live.desk.calls <+: ·) (fun _ _ longer grown => grown.trans longer) (grows live)
    (List.prefix_refl _)

theorem Grows.bind {α β : Type} {m : Eff (Live F X) String α} {k : α → Eff (Live F X) String β} (first : Grows m)
    (rest : ∀ a, Grows (k a)) : Grows (m >>= k) :=
  fun live => Leads.bind (first live) fun a live' _ => rest a live'

theorem Grows.quiet {α : Type} {m : Eff (Live F X) String α} (same : ∀ live, (m live).2.desk.calls = live.desk.calls) :
    Grows m := fun live => Leads.quiet (same live)

theorem Grows.ite {α : Type} {c : Prop} [Decidable c] {m n : Eff (Live F X) String α} (yes : Grows m) (no : Grows n) :
    Grows (if c then m else n) := fun live => Leads.ite (fun _ => yes live) fun _ => no live

theorem onFill_grows (fill : Fill F) : Grows (onDesk (X := X) (TradingSession.onFill fill)) := by
  intro live
  obtain ⟨later, added⟩ := Ledger.Does.chain_calls (onFill_leads fill live.desk)
  exact Leads.single ⟨later, added.symm⟩

theorem replayFills_grows (fetched : List (Fill F)) (replayed : Int) :
    Grows (replayFills (X := X) fetched replayed) := by
  induction fetched generalizing replayed with
  | nil => exact Grows.quiet fun _ => rfl
  | cons fill fetched ih =>
    refine Grows.bind (Grows.quiet fun _ => rfl) fun live => Grows.ite ?_ (ih replayed)
    refine Grows.bind (onFill_grows fill) fun new => Grows.bind (Grows.quiet fun _ => rfl) fun _ => ?_
    cases new with
    | true => exact ih (replayed + 1)
    | false => exact ih replayed

variable (account : Account F X)

theorem backfillFills_grows (minTsSeconds : Int) : Grows (backfillFills account minTsSeconds) := by
  refine Grows.bind (Grows.quiet fun _ => rfl) fun fetched => ?_
  cases fetched with
  | none => exact Grows.quiet fun _ => rfl
  | some fetched => exact replayFills_grows fetched 0

theorem backInSync_grows : Grows (backInSync (F := F) (X := X)) :=
  Grows.bind (Grows.quiet fun _ => rfl) fun _ => Grows.ite (Grows.quiet fun _ => rfl) (Grows.quiet fun _ => rfl)

theorem comparedAgain_grows (baseline : List MarketPosition) : Grows (comparedAgain account baseline) := by
  refine Grows.bind (Grows.quiet fun _ => rfl) fun exchange => ?_
  cases exchange with
  | none => exact Grows.quiet fun _ => rfl
  | some exchange =>
    exact Grows.bind (Grows.quiet fun _ => rfl) fun result => Grows.ite backInSync_grows (Grows.quiet fun _ => rfl)

/-- A reconciliation sends nothing: it adds to the calls what the fetched fills record. -/
theorem reconcileAgainstExchange_grows (baseline : List MarketPosition) (sessionStartSeconds : Int) :
    Grows (reconcileAgainstExchange account baseline sessionStartSeconds) := by
  refine Grows.bind (Grows.quiet fun _ => rfl) fun exchange => ?_
  cases exchange with
  | none => exact Grows.quiet fun _ => rfl
  | some exchange =>
    refine Grows.bind (Grows.quiet fun _ => rfl) fun result => Grows.ite backInSync_grows ?_
    refine Grows.bind (backfillFills_grows account sessionStartSeconds) fun replayed => ?_
    exact Grows.ite (comparedAgain_grows account baseline) (Grows.quiet fun _ => rfl)

end Live

namespace MainLoop

/-- A run on the desk leaves what is around it. -/
theorem onDesk_leaves {α : Type} {Q : α → MainLoop F X → Prop} {E : Stop String → MainLoop F X → Prop}
    {m : Eff (Desk F X) String α} {loop : MainLoop F X}
    (within : Leaves (fun a t => Q a (loop.withDesk t)) (fun stop t => E stop (loop.withDesk t)) m loop.desk) :
    Leaves Q E (onDesk m) loop := by
  unfold onDesk onLive Live.onDesk
  exact Leaves.onPart (Leaves.onPart within)

theorem atCadence_leaves {σ : Type} {Q : Unit → σ → Prop} {E : Stop String → σ → Prop} {m : Eff σ String Unit} {s : σ}
    {count interval : Nat} (due : count % interval = 0 → Leaves Q E m s) (otherwise : count % interval ≠ 0 → Q () s) :
    Leaves Q E (atCadence count interval m) s := by
  unfold atCadence
  exact Leaves.ite due fun undue => Leaves.of_run rfl (otherwise undue)

/-- A kill-switch round adds the portfolio it judges and leaves a halted book as it stands. -/
theorem killSwitch_leaves (loop : MainLoop F X) :
    Leaves (fun _ t => t.judged = loop.judged ++ [portfolioSnapshot venue loop.desk] ∧
        ∀ before, Stands before loop.desk → Stands before t.desk)
      (fun stop t => (∃ what, stop = .abort what) ∧ ∀ before, Stands before loop.desk → Stands before t.desk)
      (killSwitch venue) loop := by
  unfold killSwitch
  refine Leaves.bind (Leaves.of_run rfl (Leaves.bind (Leaves.of_run rfl (onDesk_leaves ?_))))
  exact (feedPortfolio_leaves _ loop.desk).mono (fun _ _ stands => ⟨rfl, stands⟩) fun _ _ stopped => stopped

theorem refreshFeed_contained (lastMessage : TimePoint) : Contained (refreshFeed (F := F) venue lastMessage) := by
  unfold refreshFeed
  exact Contained.bind (Contained.of_ok fun _ => ⟨(), rfl⟩) fun _ => requoteIdleMarkets_contained venue

/-- What holds however a round ends holds once its outcome is settled. -/
theorem settle_leaves {P : MainLoop F X → Prop} {Q : Unit → MainLoop F X → Prop}
    {E : Stop String → MainLoop F X → Prop} {m : Eff (MainLoop F X) String Unit} {loop : MainLoop F X}
    (leaves : Leaves Q E m loop) (finished : ∀ t, Q () t → P t)
    (aborted : ∀ what t, E (.abort what) t →
      P { t.withDesk (cancelAllQuotes venue t.desk).2 with alive := false })
    (threw : ∀ what t, E (.exception what) t → P { t with phase := .done }) : P (settle venue (m loop)) := by
  unfold Leaves at leaves
  unfold settle
  cases ran : m loop with
  | mk r t =>
    rw [ran] at leaves
    rcases r with (what | what) | a
    · exact threw what t leaves
    · exact aborted what t leaves
    · exact finished t leaves

/-! ### A round of the trading loop -/

/-- A due kill-switch round is reached, unless an abort comes before it. -/
theorem tradingIteration_watches (lastMessage : TimePoint) {loop : MainLoop F X}
    (due : loop.pollCount % kPortfolioRiskInterval = 0) :
    Leaves (fun _ t => ∃ snapshot, t.judged = loop.judged ++ [snapshot])
      (fun stop t => (∃ what, stop = .abort what) ∨ ∃ snapshot, t.judged = loop.judged ++ [snapshot])
      (tradingIteration venue account config lastMessage) loop := by
  have refreshed : Leaves (fun _ t => t.judged = loop.judged) (fun stop _ => ∃ what, stop = .abort what)
      (atCadence loop.pollCount kStalenessCheckInterval (onDesk (refreshFeed venue lastMessage))) loop := by
    refine atCadence_leaves (fun _ => onDesk_leaves ?_) fun _ => rfl
    exact (refreshFeed_contained venue lastMessage).leaves (fun _ => rfl) fun what => ⟨what, rfl⟩
  unfold tradingIteration
  refine Leaves.bind (Leaves.of_run rfl (Leaves.bind (refreshed.mono ?_ fun _ _ => .inl)))
  intro _ t kept
  refine Leaves.bind (atCadence_leaves (fun _ => ?_) fun undue => absurd due undue)
  refine (killSwitch_leaves venue t).mono ?_ fun _ _ stopped => .inl stopped.1
  rintro _ t₁ ⟨judged, _⟩
  rw [kept] at judged
  -- neither the safety check nor a reconciliation is told of portfolios
  refine Leaves.bind (Leaves.of_state (fun _ => ?_) fun _ => .inr ⟨_, judged⟩)
  refine Leaves.ite (fun _ => Leaves.of_run rfl ⟨_, judged⟩) fun _ => ?_
  exact atCadence_leaves (fun _ => Leaves.of_state (fun _ => ⟨_, judged⟩) fun _ => .inr ⟨_, judged⟩) fun _ =>
    ⟨_, judged⟩

theorem enforceQuoteSafety_halted {s : Desk F X} (halted : s.riskMgr.isHalted = true) :
    enforceQuoteSafety venue s = cancelAllQuotes venue s := by
  unfold enforceQuoteSafety
  rw [bind_apply, get_apply, andThen_ok, if_pos halted]

/-- A round that stays halted sweeps the book, unless an abort comes before. -/
theorem tradingIteration_sweeps {lastMessage : TimePoint} {loop : MainLoop F X}
    (halted : loop.desk.riskMgr.isHalted = true)
    (outlasts : loop.pollCount % kStalenessCheckInterval = 0 →
      (loop.desk.riskMgr.staleChecked ((venue.host.steadyNow loop.desk.outside).1 - lastMessage)).isHalted = true) :
    Leaves (fun _ t => ∀ after : Desk F X, t.desk.calls <+: after.calls → loop.desk.Swept after)
      (fun stop t => (∃ what, stop = .abort what) ∧ Stands loop.desk t.desk ∨
        ∀ after : Desk F X, t.desk.calls <+: after.calls → loop.desk.Swept after)
      (tradingIteration venue account config lastMessage) loop := by
  have refreshed : Leaves (fun _ t => Stands loop.desk t.desk) (fun _ _ => False)
      (atCadence loop.pollCount kStalenessCheckInterval (onDesk (refreshFeed venue lastMessage))) loop := by
    refine atCadence_leaves (fun due => onDesk_leaves ?_) fun _ => ⟨rfl, rfl, rfl, halted⟩
    exact Leaves.of_run (refreshFeed_halted venue (outlasts due)) ⟨rfl, rfl, rfl, outlasts due⟩
  unfold tradingIteration
  refine Leaves.bind (Leaves.of_run rfl (Leaves.bind (refreshed.mono ?_ fun _ _ => False.elim)))
  intro _ t stands
  have watched : Leaves (fun _ t => Stands loop.desk t.desk)
      (fun stop t => (∃ what, stop = .abort what) ∧ Stands loop.desk t.desk)
      (atCadence loop.pollCount kPortfolioRiskInterval (killSwitch venue)) t := by
    refine atCadence_leaves (fun _ => ?_) fun _ => stands
    exact (killSwitch_leaves venue t).mono (fun _ _ kept => kept.2 _ stands) fun _ _ kept => ⟨kept.1, kept.2 _ stands⟩
  refine Leaves.bind (watched.mono ?_ fun _ _ => .inl)
  intro _ t₁ stands
  obtain ⟨cancels, x, ran, _⟩ := cancelAllQuotes_run venue t₁.desk
  -- the sweep itself, after which calls are only added
  have swept : ∀ after : Desk F X, (cancelAllQuotes venue t₁.desk).2.calls <+: after.calls → loop.desk.Swept after :=
    fun after grown => stands.cancelAllQuotes venue grown
  refine Leaves.bind (onDesk_leaves ?_)
  refine Leaves.of_run (enforceQuoteSafety_halted venue stands.halted ▸ ran) ?_
  rw [ran] at swept
  refine Leaves.ite (fun _ => Leaves.of_run rfl swept) fun _ => atCadence_leaves (fun _ => ?_) fun _ => swept
  have grows : Live.Grows (reconcileLive account config) :=
    (Live.reconcileAgainstExchange_grows account _ _).bind fun _ => Live.Grows.quiet fun _ => rfl
  refine Leaves.of_state (fun _ after grown => ?_) fun _ => .inr fun after grown => ?_
  · exact swept after ((grows.within _).trans grown)
  · exact swept after ((grows.within _).trans grown)

/-! ### A round of the wind-down loop -/

/-- The wind-down loop makes no call and judges no portfolio. -/
theorem windDownIteration_idle (loop : MainLoop F X) :
    ∃ t, settle venue (windDownIteration loop) = t ∧ t.desk = loop.desk ∧ t.judged = loop.judged ∧
      t.alive = loop.alive := by
  refine ⟨_, rfl, ?_⟩
  unfold windDownIteration
  rw [bind_apply, get_apply, andThen_ok]
  split
  · exact ⟨rfl, rfl, rfl⟩
  · exact ⟨rfl, rfl, rfl⟩

/-! ### Runs -/

/-- Where the main thread is, and its counts. -/
def pace (loop : MainLoop F X) : Phase × Nat × Nat := (loop.phase, loop.pollCount, loop.iterations)

theorem tradingIteration_pace (lastMessage : TimePoint) (loop : MainLoop F X) :
    (tradingIteration venue account config lastMessage loop).2.pace = loop.pace := by
  have cadence : ∀ {count interval : Nat} {m : Eff (MainLoop F X) String Unit},
      (∀ s, (m s).2.pace = s.pace) → ∀ s, Leads pace (fun _ _ => False) (atCadence count interval m) s := by
    intro count interval m same s
    unfold atCadence
    exact Leads.ite (fun _ => Leads.quiet (same s)) fun _ => Leads.quiet rfl
  have watched : ∀ s : MainLoop F X, (killSwitch venue s).2.pace = s.pace := fun s => by
    unfold killSwitch
    exact Leads.unmoved (Leads.bind (Leads.quiet rfl) fun _ _ _ => Leads.bind (Leads.quiet rfl) fun _ _ _ =>
      Leads.quiet rfl)
  unfold tradingIteration
  apply Leads.unmoved
  refine Leads.bind (Leads.quiet rfl) fun _ s₁ _ => ?_
  refine Leads.bind (cadence (fun _ => rfl) s₁) fun _ s₂ _ => ?_
  refine Leads.bind (cadence watched s₂) fun _ s₃ _ => ?_
  refine Leads.bind (Leads.quiet rfl) fun _ s₄ _ => ?_
  exact Leads.ite (fun _ => Leads.quiet rfl) fun _ => cadence (fun _ => rfl) s₄

/-- While the trading loop runs, its count is that of all the rounds. -/
def Counted (loop : MainLoop F X) : Prop := loop.phase = .trading → loop.iterations = loop.pollCount

theorem settle_counted {outcome : Except (Stop String) Unit × MainLoop F X} (counted : Counted outcome.2) :
    Counted (settle venue outcome) := by
  obtain ⟨(what | what) | a, t⟩ := outcome
  · intro trading
    cases trading
  · exact counted
  · exact counted

theorem contain_counted {outcome : Except (Stop String) Unit × MainLoop F X} (counted : Counted outcome.2) :
    Counted (contain venue outcome) := by
  obtain ⟨(what | what) | a, t⟩ := outcome
  · exact counted
  · exact counted
  · exact counted

theorem poll_counted (lastMessage : TimePoint) {loop : MainLoop F X} (counted : Counted loop) :
    Counted (poll venue account config lastMessage loop) := by
  unfold poll
  split
  next trading =>
    apply settle_counted
    have same := tradingIteration_pace venue account config lastMessage
      { loop with pollCount := loop.pollCount + 1, iterations := loop.iterations + 1 }
    simp only [pace, Prod.mk.injEq] at same
    intro still
    rw [same.2.1, same.2.2, counted trading]
  next deadline windDown =>
    dsimp only
    split
    · unfold windDownIteration
      rw [bind_apply, get_apply, andThen_ok]
      split
      · intro trading
        cases trading
      · intro trading
        exact absurd (windDown.symm.trans trading) nofun
    · intro trading
      cases trading
  next done => exact counted

theorem step_counted {loop : MainLoop F X} (counted : Counted loop) (beat : Beat F) :
    Counted (step venue account config loop beat) := by
  unfold step
  split
  next alive =>
    cases beat with
    | event event => exact contain_counted venue counted
    | reconnected => exact contain_counted venue counted
    | stopped =>
      dsimp only
      split
      · unfold beginWindDown
        split
        · intro trading
          cases trading
        · intro trading
          cases trading
      · exact counted
    | poll lastMessage => exact poll_counted venue account config lastMessage counted
  next => exact counted

theorem run_counted (live : Live F X) (beats : List (Beat F)) :
    Counted (run venue account config { live } beats) := by
  unfold run
  exact Run.invariant Counted (fun _ beat counted => step_counted venue account config counted beat)
    (fun _ => rfl) beats

theorem step_poll {loop : MainLoop F X} (alive : loop.alive = true) (lastMessage : TimePoint) :
    step venue account config loop (.poll lastMessage) = poll venue account config lastMessage loop := if_pos alive

/-- A round of the trading loop, with its counts moved on. -/
theorem poll_trading {loop : MainLoop F X} (trading : loop.phase = .trading) (lastMessage : TimePoint) :
    poll venue account config lastMessage loop = settle venue (tradingIteration venue account config lastMessage
      { loop with pollCount := loop.pollCount + 1, iterations := loop.iterations + 1 }) := by
  unfold poll
  split
  next => rfl
  next windDown => exact absurd (windDown.symm.trans trading) nofun
  next done => exact absurd (done.symm.trans trading) nofun

/-- A round of the trading loop that stays halted clears the book. -/
theorem trading_clears {lastMessage : TimePoint} {loop : MainLoop F X} (trading : loop.phase = .trading)
    (guarded : Guarded venue lastMessage loop) :
    ClearsBook loop (poll venue account config lastMessage loop) := by
  rintro halted id resting
  have outlasts := guarded ⟨id, resting⟩
  rw [trading] at outlasts
  have sweeps := @tradingIteration_sweeps F X _ venue account config lastMessage
    { loop with pollCount := loop.pollCount + 1, iterations := loop.iterations + 1 } halted
  rw [poll_trading venue account config trading]
  refine settle_leaves venue (P := fun after => loop.desk.Swept after.desk)
    (sweeps (outlasts halted)) ?_ ?_ ?_ id resting
  · exact fun t swept => swept _ (List.prefix_refl _)
  · rintro what t (⟨_, stands⟩ | swept)
    · exact stands.cancelAllQuotes venue (List.prefix_refl _)
    · obtain ⟨cancels, x, ran, _⟩ := cancelAllQuotes_run venue t.desk
      apply swept
      change t.desk.calls <+: (cancelAllQuotes venue t.desk).2.calls
      rw [ran]
      exact List.prefix_append _ _
  · rintro what t (⟨⟨_, stopped⟩, _⟩ | swept)
    · cases stopped
    · exact swept _ (List.prefix_refl _)

theorem trading_watches {lastMessage : TimePoint} {loop : MainLoop F X} (trading : loop.phase = .trading)
    (counted : Counted loop) : KeepsWatch loop (poll venue account config lastMessage loop) := by
  rintro due _ alive
  unfold riskDue at due
  rw [counted trading] at due
  revert alive
  rw [poll_trading venue account config trading]
  refine settle_leaves venue (P := fun after =>
    after.alive = true → ∃ snapshot, after.judged = loop.judged ++ [snapshot])
    (tradingIteration_watches venue account config lastMessage due) ?_ ?_ ?_
  · exact fun t judged _ => judged
  · exact fun what t _ alive => by cases alive
  · rintro what t (⟨_, stopped⟩ | judged) _
    · cases stopped
    · exact judged

/-- A round of the wind-down loop does neither, so it does what is owed exactly if nothing is. -/
theorem windDown_iff {lastMessage deadline : TimePoint} {loop : MainLoop F X}
    (windDown : loop.phase = .windDown deadline)
    (iterates : Iterates venue loop) :
    ClearsBook loop (poll venue account config lastMessage loop) ∧
        KeepsWatch loop (poll venue account config lastMessage loop) ↔ Guarded venue lastMessage loop := by
  obtain ⟨alive, before⟩ := iterates
  rw [windDown] at before
  obtain ⟨after, same, desk, judged, still⟩ := windDownIteration_idle venue
    { loop.withDesk { loop.desk with outside := (venue.host.steadyNow loop.desk.outside).2 } with
      iterations := loop.iterations + 1 }
  have polled : poll venue account config lastMessage loop = after := by
    unfold poll
    rw [windDown]
    dsimp only
    rw [if_pos before]
    exact same
  -- a round of the wind-down makes no call at all
  have uncalled : loop.desk.callsSince after.desk = [] := by
    unfold Desk.callsSince
    rw [desk]
    exact List.drop_length
  rw [polled]
  unfold Guarded
  rw [windDown]
  constructor
  · rintro ⟨clears, watches⟩ ⟨id, resting⟩
    constructor
    · rw [Bool.eq_false_iff]
      intro halted
      obtain ⟨entry, member, _⟩ := clears halted id resting
      rw [uncalled] at member
      cases member
    · intro due
      obtain ⟨snapshot, added⟩ := watches due ⟨id, resting⟩ (still.trans alive)
      rw [judged] at added
      exact List.cons_ne_nil _ _ (List.self_eq_append_right.mp added)
  · intro guarded
    constructor
    · intro halted id resting
      rw [(guarded ⟨id, resting⟩).1] at halted
      cases halted
    · intro due resting _
      exact absurd due (guarded resting).2

/-- In every round of every run of the main thread: while it is guarded it clears a halted book and keeps
its watch, and a round of the wind-down loop does so only while it is guarded. -/
theorem halt_clears_book (live : Live F X) (beats : List (Beat F)) (lastMessage : TimePoint)
    (iterates : Iterates venue (run venue account config { live } beats)) :
    let loop := run venue account config { live } beats
    let after := step venue account config loop (.poll lastMessage)
    (Guarded venue lastMessage loop → ClearsBook loop after ∧ KeepsWatch loop after) ∧
      (loop.phase ≠ .trading → ClearsBook loop after ∧ KeepsWatch loop after → Guarded venue lastMessage loop) := by
  intro loop after
  have polled : after = poll venue account config lastMessage loop :=
    step_poll venue account config iterates.1 lastMessage
  rw [polled]
  cases phase : loop.phase with
  | trading =>
    refine ⟨fun guarded => ⟨?_, ?_⟩, fun other => absurd rfl other⟩
    · exact trading_clears venue account config phase guarded
    · exact trading_watches venue account config phase (run_counted venue account config live beats)
  | windDown deadline =>
    have exact : ClearsBook loop (poll venue account config lastMessage loop) ∧
        KeepsWatch loop (poll venue account config lastMessage loop) ↔ Guarded venue lastMessage loop :=
      windDown_iff venue account config phase iterates
    exact ⟨exact.mpr, fun _ => exact.mp⟩
  | done =>
    obtain ⟨_, ended⟩ := iterates
    rw [phase] at ended
    exact ended.elim

/-! ### Two halts -/

def lossLimited : Live ℚ Script where
  desk := (Process.start { tickers := ["M"] } {} { dailyLossLimit := -1 } {} none none false false :
    Process ℚ Script).desk

def silent : Account ℚ Script where
  getOpenOrders x := (.ok [], x)
  getPositions x := (.ok [], x)
  getFills _ x := (.ok [], x)

/-- A part of the bid is filled, at a fee beyond the limit of the day's loss. -/
def costlyFill : Fill ℚ where
  tradeId := "trade-1"
  orderId := "order-1"
  marketTicker := "M"
  side := .yes
  priceCents := 48
  quantity := ⟨500⟩
  feeCents := 200
  isTaker := false
  timestamp := 0

def seedM : Orderbook := { ticker := "M", yes := [⟨40, ⟨1000⟩⟩], no := [⟨40, ⟨1000⟩⟩] }

/-- The halt of a fill in the trading loop. -/
theorem halt_clears_book_trading :
    let venue : Venue Script := ⟨⟨"exchange"⟩, Script.host⟩
    let loop := run venue silent {} { live := lossLimited } [.event (.addMarket seedM), .event (.fill costlyFill)]
    let after := step venue silent {} loop (.poll 0)
    loop.desk.riskMgr.isHalted = true ∧ (loop.desk.orderMgr.openOrders.lookup "order-2").isSome = true ∧
      ClearsBook loop after ∧ KeepsWatch loop after := by
  intro venue loop after
  have trading : loop.phase = .trading := by decide +kernel
  have counted : (loop.pollCount + 1) % kStalenessCheckInterval ≠ 0 := by decide +kernel
  refine ⟨by decide +kernel, by decide +kernel, ?_⟩
  apply (halt_clears_book venue silent {} lossLimited _ 0 ⟨by decide +kernel, by rw [trading]; trivial⟩).1
  intro _
  rw [trading]
  exact fun _ checked => absurd checked counted

/-- The same halt after the shutdown request: the ask rests on, and the tenth round judges nothing. -/
theorem windDown_leaves_book :
    let venue : Venue Script := ⟨⟨"exchange"⟩, Script.host⟩
    let halted := run venue silent {} { live := lossLimited }
      [.event (.addMarket seedM), .stopped, .event (.fill costlyFill)]
    let tenth := run venue silent {} halted (List.replicate 9 (.poll 0))
    Iterates venue halted ∧ Iterates venue tenth ∧
      halted.desk.riskMgr.isHalted = true ∧
      (tenth.desk.orderMgr.openOrders.lookup "order-2").map Order.marketTicker = some "M" ∧
      ¬ ClearsBook halted (step venue silent {} halted (.poll 0)) ∧
      ¬ KeepsWatch tenth (step venue silent {} tenth (.poll 0)) := by
  intro venue halted tenth
  have resting : ∀ loop : MainLoop ℚ Script,
      (loop.desk.orderMgr.openOrders.lookup "order-2").map Order.marketTicker = some "M" →
        loop.desk.session.tickers = ["M"] → loop.desk.Resting "order-2" := by
    intro loop found tickers
    obtain ⟨order, opened, on⟩ := Option.map_eq_some_iff.mp found
    exact ⟨order, opened, by rw [on, tickers]; decide⟩
  have called : (halted.desk.callsSince (step venue silent {} halted (.poll 0)).desk).length = 0 := by decide +kernel
  have judged : (step venue silent {} tenth (.poll 0)).judged.length = tenth.judged.length := by decide +kernel
  -- the loop stays in the wind-down until its deadline
  have phase : halted.phase = .windDown 45000000000 := by decide +kernel
  have phase' : tenth.phase = .windDown 45000000000 := by decide +kernel
  refine ⟨⟨by decide +kernel, ?_⟩, ⟨by decide +kernel, ?_⟩, by decide +kernel, by decide +kernel, fun clears => ?_,
    fun watches => ?_⟩
  · rw [phase]
    change halted.desk.outside.time < 45000000000
    decide +kernel
  · rw [phase']
    change tenth.desk.outside.time < 45000000000
    decide +kernel
  · obtain ⟨entry, member, _⟩ := clears (by decide +kernel) _ (resting halted (by decide +kernel) (by decide +kernel))
    rw [List.length_eq_zero_iff.mp called] at member
    cases member
  · obtain ⟨snapshot, added⟩ := watches (by unfold riskDue; decide +kernel)
      ⟨_, resting tenth (by decide +kernel) (by decide +kernel)⟩ (by decide +kernel)
    rw [added, List.length_append] at judged
    exact Nat.succ_ne_self _ judged

end MainLoop

end Kalshi
