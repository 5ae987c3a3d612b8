import KalshiMaker.App.MainLoop
import KalshiMaker.Lib.Run

/-! The main loop on the ledger: every beat is a chain of the ledger's steps. -/
namespace Kalshi

open Effect Eff Relation Desk Ledger TradingSession

variable {F X : Type} [Floating F]

/-- What fills fetched from the account come to: each is booked, and may raise a limit. -/
def Action.replays : Action F → Prop
  | .fill _ | .raise => True
  | _ => False

/-- The main thread tracks no market and gives none up, books no flatten and resumes nothing. It clears some bits. -/
def Action.routine (clears : Constraint → Prop) : Action F → Prop
  | .quote _ | .fill _ | .sweepAll | .sweep _ | .raise => True
  | .clear bit => clears bit
  | _ => False

/-- The bits that a staleness check and a reconciliation clear. -/
def recoverable (bit : Constraint) : Prop := bit = .kStaleBook ∨ bit = .kModelDiverge

def Beat.permits : Beat F → Action F → Prop
  | .event input, action => input.permits action ∨ action = .sweepAll
  | .reconnected, action => action.replays ∨ action = .sweepAll
  | .stopped, _ => False
  | .poll _, action => action.routine recoverable

/-! ### Fills from the account -/

namespace Live

/-- `m` moves the ledger by permitted steps. -/
def Moves (permitted : Action F → Prop) {α : Type} (m : Eff (Live F X) String α) : Prop :=
  ∀ live, Leads (fun live : Live F X => live.desk.ledger) (Does permitted) m live

variable {permitted : Action F → Prop}

theorem Moves.bind {α β : Type} {m : Eff (Live F X) String α} {k : α → Eff (Live F X) String β}
    (first : Moves permitted m) (rest : ∀ a, Moves permitted (k a)) : Moves permitted (m >>= k) :=
  fun live => Leads.bind (first live) fun a live' _ => rest a live'

theorem Moves.quiet {α : Type} {m : Eff (Live F X) String α}
    (same : ∀ live, (m live).2.desk.ledger = live.desk.ledger) : Moves permitted m :=
  fun live => Leads.quiet (same live)

theorem Moves.ite {α : Type} {c : Prop} [Decidable c] {m n : Eff (Live F X) String α} (yes : Moves permitted m)
    (no : Moves permitted n) : Moves permitted (if c then m else n) :=
  fun live => Leads.ite (fun _ => yes live) fun _ => no live

theorem Moves.onDesk {α : Type} {m : Eff (Desk F X) String α}
    (moves : ∀ s, Leads ledger (Does permitted) m s) : Moves permitted (Live.onDesk m) := by
  intro live
  have moved := moves live.desk
  unfold Leads at moved ⊢
  rw [Live.onDesk, onPart_apply]
  exact moved

theorem onFill_replays (fill : Fill F) : Moves Action.replays (onDesk (X := X) (TradingSession.onFill fill)) := by
  refine Moves.onDesk fun s => (onFill_leads fill s).mono fun _ _ => Does.mono ?_
  rintro _ (rfl | rfl) <;> trivial

theorem replayFills_replays (fetched : List (Fill F)) (replayed : Int) :
    Moves Action.replays (replayFills (X := X) fetched replayed) := by
  induction fetched generalizing replayed with
  | nil => exact Moves.quiet fun _ => rfl
  | cons fill fetched ih =>
    refine Moves.bind (Moves.quiet fun _ => rfl) fun live => Moves.ite ?_ (ih replayed)
    refine Moves.bind (onFill_replays fill) fun new => Moves.bind (Moves.quiet fun _ => rfl) fun _ => ?_
    cases new with
    | true => exact ih (replayed + 1)
    | false => exact ih replayed

variable (account : Account F X)

theorem backfillFills_replays (minTsSeconds : Int) : Moves Action.replays (backfillFills account minTsSeconds) := by
  refine Moves.bind (Moves.quiet fun _ => rfl) fun fetched => ?_
  cases fetched with
  | none => exact Moves.quiet fun _ => rfl
  | some fetched => exact replayFills_replays fetched 0

variable {clears : Constraint → Prop} (heals : clears .kModelDiverge)

include heals in
theorem backInSync_routine : Moves (Action.routine clears) (backInSync (F := F) (X := X)) := by
  refine Moves.bind (Moves.quiet fun _ => rfl) fun live => Moves.ite ?_ (Moves.quiet fun _ => rfl)
  refine Moves.bind (Moves.onDesk fun s => ?_) fun _ => Moves.quiet fun _ => rfl
  exact Leads.single ⟨.clear .kModelDiverge, heals, .clear⟩

theorem driftHalt_routine : Moves (Action.routine clears) (driftHalt (F := F) (X := X)) := by
  refine Moves.bind (Moves.onDesk fun s => Leads.single ⟨.raise, trivial, .raise ?_⟩) fun _ => Moves.quiet fun _ => rfl
  exact s.riskMgr.set_raises .kModelDiverge

include heals in
theorem comparedAgain_routine (baseline : List MarketPosition) :
    Moves (Action.routine clears) (comparedAgain account baseline) := by
  refine Moves.bind (Moves.quiet fun _ => rfl) fun exchange => ?_
  cases exchange with
  | none => exact driftHalt_routine
  | some exchange =>
    exact Moves.bind (Moves.quiet fun _ => rfl) fun result => Moves.ite (backInSync_routine heals) driftHalt_routine

include heals in
theorem reconcileAgainstExchange_routine (baseline : List MarketPosition) (sessionStartSeconds : Int) :
    Moves (Action.routine clears) (reconcileAgainstExchange account baseline sessionStartSeconds) := by
  have replays : ∀ action : Action F, action.replays → action.routine clears := by
    rintro (_ | _) replayed <;> trivial
  refine Moves.bind (Moves.quiet fun _ => rfl) fun exchange => ?_
  cases exchange with
  | none => exact Moves.quiet fun _ => rfl
  | some exchange =>
    refine Moves.bind (Moves.quiet fun _ => rfl) fun result => Moves.ite (backInSync_routine heals) ?_
    refine Moves.bind (fun live => (backfillFills_replays account sessionStartSeconds live).mono fun _ _ =>
      Does.mono replays) fun replayed => ?_
    exact Moves.ite (comparedAgain_routine account heals baseline) driftHalt_routine

end Live

/-! ### The main thread -/

namespace MainLoop

/-- `m` moves the ledger by permitted steps. -/
def Moves (permitted : Action F → Prop) {α : Type} (m : Eff (MainLoop F X) String α) : Prop :=
  ∀ loop, Leads (fun loop : MainLoop F X => loop.desk.ledger) (Does permitted) m loop

variable {permitted : Action F → Prop} (venue : Venue X) (account : Account F X) (config : MainConfig)

theorem Moves.bind {α β : Type} {m : Eff (MainLoop F X) String α} {k : α → Eff (MainLoop F X) String β}
    (first : Moves permitted m) (rest : ∀ a, Moves permitted (k a)) : Moves permitted (m >>= k) :=
  fun loop => Leads.bind (first loop) fun a loop' _ => rest a loop'

theorem Moves.quiet {α : Type} {m : Eff (MainLoop F X) String α}
    (same : ∀ loop, (m loop).2.desk.ledger = loop.desk.ledger) : Moves permitted m :=
  fun loop => Leads.quiet (same loop)

theorem Moves.ite {α : Type} {c : Prop} [Decidable c] {m n : Eff (MainLoop F X) String α} (yes : Moves permitted m)
    (no : Moves permitted n) : Moves permitted (if c then m else n) :=
  fun loop => Leads.ite (fun _ => yes loop) fun _ => no loop

theorem Moves.onLive {α : Type} {m : Eff (Live F X) String α} (moves : Live.Moves permitted m) :
    Moves permitted (MainLoop.onLive m) := by
  intro loop
  have moved := moves loop.live
  unfold Leads at moved ⊢
  rw [MainLoop.onLive, onPart_apply]
  exact moved

theorem Moves.onDesk {α : Type} {m : Eff (Desk F X) String α} (moves : ∀ s, Leads ledger (Does permitted) m s) :
    Moves permitted (MainLoop.onDesk m) := Moves.onLive (Live.Moves.onDesk moves)

/-- What a stage on the desk moves, where it starts from a state known. -/
theorem onDesk_leads {α : Type} {m : Eff (Desk F X) String α} {loop : MainLoop F X}
    (moves : Leads ledger (Does permitted) m loop.desk) :
    Leads (fun loop : MainLoop F X => loop.desk.ledger) (Does permitted) (MainLoop.onDesk m) loop := by
  unfold Leads at moves ⊢
  rw [MainLoop.onDesk, MainLoop.onLive, onPart_apply, Live.onDesk, onPart_apply]
  exact moves

variable {clears : Constraint → Prop}

/-- A look at the feed clears the stale bit at most, and that only where the feed has spoken lately. -/
theorem refreshFeed_leads {lastMessage : TimePoint} {s : Desk F X}
    (spoken : (venue.host.steadyNow s.outside).1 - lastMessage ≤ kStalenessThresholdSeconds * nanosPerSecond →
      clears .kStaleBook) :
    Leads ledger (Does (Action.routine clears)) (refreshFeed venue lastMessage) s := by
  have checked : ReflTransGen (Does (Action.routine clears)) s.ledger
      { s.ledger with riskMgr := s.riskMgr.staleChecked ((venue.host.steadyNow s.outside).1 - lastMessage) } := by
    unfold RiskManager.staleChecked
    split_ifs with silent
    · exact .single ⟨.raise, trivial, .raise (s.riskMgr.set_raises .kStaleBook)⟩
    · exact .single ⟨.clear .kStaleBook, spoken (not_lt.mp silent), .clear⟩
    · exact .refl
  unfold refreshFeed
  refine Leads.bind checked fun _ s₁ _ => (handle_leads venue .requoteIdleMarkets s₁).mono fun _ _ => Does.mono ?_
  rintro _ ⟨ticker, rfl⟩
  trivial

theorem killSwitch_routine : Moves (Action.routine clears) (killSwitch (F := F) venue) := by
  refine Moves.bind (Moves.quiet fun _ => rfl) fun loop => Moves.bind (Moves.quiet fun _ => rfl) fun _ => ?_
  refine Moves.onDesk fun s => (feedPortfolio_leads _ s).mono fun _ _ => Does.mono ?_
  rintro _ rfl
  trivial

/-- The round behind its look at the feed. -/
theorem afterRefresh_routine (heals : clears .kModelDiverge) (pollCount : Nat) :
    Moves (Action.routine clears) (do
      atCadence pollCount kPortfolioRiskInterval (killSwitch (F := F) venue)
      onDesk (enforceQuoteSafety venue)
      if config.paperMode then pure ()
      else atCadence pollCount kReconcileInterval (onLive (reconcileLive account config))) := by
  refine Moves.bind (Moves.ite (killSwitch_routine venue) (Moves.quiet fun _ => rfl)) fun _ => ?_
  refine Moves.bind (Moves.onDesk fun s => ?_) fun _ => ?_
  · refine (enforceQuoteSafety_leads venue s).mono fun _ _ => Does.mono ?_
    rintro _ (rfl | ⟨ticker, rfl⟩) <;> trivial
  · refine Moves.ite (Moves.quiet fun _ => rfl) (Moves.ite (Moves.onLive ?_) (Moves.quiet fun _ => rfl))
    exact Live.Moves.bind (Live.reconcileAgainstExchange_routine account heals _ _) fun _ =>
      Live.Moves.quiet fun _ => rfl

theorem tradingIteration_leads (heals : clears .kModelDiverge) {lastMessage : TimePoint} {loop : MainLoop F X}
    (spoken : loop.pollCount % kStalenessCheckInterval = 0 →
      (venue.host.steadyNow loop.desk.outside).1 - lastMessage ≤ kStalenessThresholdSeconds * nanosPerSecond →
        clears .kStaleBook) :
    Leads (fun loop : MainLoop F X => loop.desk.ledger) (Does (Action.routine clears))
      (tradingIteration venue account config lastMessage) loop := by
  unfold tradingIteration
  refine Leads.bind (Leads.quiet rfl) ?_
  rintro _ _ ⟨⟩
  refine Leads.bind ?_ fun _ after _ => afterRefresh_routine venue account config heals loop.pollCount after
  unfold atCadence
  exact Leads.ite (fun due => onDesk_leads (refreshFeed_leads venue (spoken due))) fun _ => Leads.quiet rfl

theorem windDownIteration_routine : Moves (Action.routine clears) (windDownIteration (F := F) (X := X)) :=
  Moves.bind (Moves.quiet fun _ => rfl) fun _ => Moves.ite (Moves.quiet fun _ => rfl) (Moves.quiet fun _ => rfl)

/-- However a round ends, its last sweep cancels. -/
theorem settle_moves {m : Eff (MainLoop F X) String Unit} {loop : MainLoop F X}
    (moves : Leads (fun loop : MainLoop F X => loop.desk.ledger) (Does permitted) m loop) :
    ReflTransGen (Does fun action => permitted action ∨ action = .sweepAll) loop.desk.ledger
      (settle venue (m loop)).desk.ledger := by
  have moved : ReflTransGen (Does fun action => permitted action ∨ action = .sweepAll) loop.desk.ledger
      (m loop).2.desk.ledger :=
    moves.mono fun _ _ => Does.mono fun _ => .inl
  unfold settle
  cases ran : m loop with
  | mk outcome after =>
    rw [ran] at moved
    rcases outcome with (what | what) | _
    · exact moved
    · refine moved.trans ?_
      exact (cancelAllQuotes_leads venue after.desk).mono fun _ _ => Does.mono fun _ => .inr
    · exact moved

theorem contain_moves {m : Eff (MainLoop F X) String Unit} (moves : Moves permitted m) (loop : MainLoop F X) :
    ReflTransGen (Does fun action => permitted action ∨ action = .sweepAll) loop.desk.ledger
      (contain venue (m loop)).desk.ledger := by
  have settled := settle_moves venue (moves loop)
  unfold contain
  unfold settle at settled
  cases ran : m loop with
  | mk outcome after =>
    rw [ran] at settled
    rcases outcome with (what | what) | _ <;> exact settled

theorem callback_moves (event : Event F) : Live.Moves event.permits (callback venue event) := by
  cases event with
  | fill fill =>
    intro live
    refine Leads.bind (Leads.quiet rfl) fun _ live' _ => Leads.bind (Live.Moves.onDesk ?_ live') fun _ _ _ =>
      Leads.quiet rfl
    exact fun s => onFill_leads fill s
  | _ => exact Live.Moves.onDesk (handle_leads venue _)

/-- A round of either loop, with what its look at the feed may clear. -/
theorem poll_moves (heals : clears .kModelDiverge) {lastMessage : TimePoint} {loop : MainLoop F X}
    (spoken : (loop.pollCount + 1) % kStalenessCheckInterval = 0 →
      (venue.host.steadyNow loop.desk.outside).1 - lastMessage ≤ kStalenessThresholdSeconds * nanosPerSecond →
        clears .kStaleBook) :
    ReflTransGen (Does (Action.routine clears)) loop.desk.ledger
      (poll venue account config lastMessage loop).desk.ledger := by
  have routine : ∀ action : Action F, action.routine clears ∨ action = .sweepAll → action.routine clears := by
    rintro action (routine | rfl)
    · exact routine
    · trivial
  obtain ⟨live, phase, pollCount, alive, iterations, judged⟩ := loop
  cases phase with
  | trading =>
    let counted : MainLoop F X := ⟨live, .trading, pollCount + 1, alive, iterations + 1, judged⟩
    have round := tradingIteration_leads venue account config heals (show counted.pollCount % _ = 0 → _ from spoken)
    exact ReflTransGen.mono (fun _ _ => Does.mono routine) _ _ (settle_moves venue round)
  | windDown deadline =>
    dsimp only [poll]
    split
    next =>
      -- reading the clock leaves the ledger
      exact ReflTransGen.mono (fun _ _ => Does.mono routine) _ _ (settle_moves venue (windDownIteration_routine
        ⟨{ live with desk := { live.desk with outside := (venue.host.steadyNow live.desk.outside).2 } },
          .windDown deadline, pollCount, alive, iterations + 1, judged⟩))
    next => exact .refl
  | done => exact .refl

/-- Every beat moves the ledger by steps it permits. -/
theorem step_moves (loop : MainLoop F X) (beat : Beat F) :
    ReflTransGen (Does beat.permits) loop.desk.ledger (step venue account config loop beat).desk.ledger := by
  unfold step
  split
  next =>
    cases beat with
    | event input => exact contain_moves venue (Moves.onLive (callback_moves venue input)) loop
    | reconnected =>
      refine contain_moves venue (Moves.onLive ?_) loop
      refine Live.Moves.bind (Live.Moves.quiet fun _ => rfl) fun live => ?_
      exact Live.Moves.bind (Live.backfillFills_replays account _) fun _ => Live.Moves.quiet fun _ => rfl
    | stopped =>
      dsimp only
      unfold beginWindDown
      split_ifs <;> exact .refl
    | poll lastMessage => exact poll_moves venue account config (.inr rfl) fun _ _ => .inl rfl
  next => exact .refl

/-- What each step keeps that the beats of a run permit, the run keeps. -/
theorem run_keeps {P : Ledger F → Prop} {beats : List (Beat F)}
    (kept : ∀ beat ∈ beats, ∀ L L' action, beat.permits action → Step L action L' → P L → P L') {loop : MainLoop F X}
    (initially : P loop.desk.ledger) : P (run venue account config loop beats).desk.ledger := by
  induction beats generalizing loop with
  | nil => exact initially
  | cons beat beats ih =>
    refine ih (fun beat member => kept beat (List.mem_cons_of_mem _ member)) ?_
    refine chain_invariant P ?_ (step_moves venue account config loop beat) initially
    rintro L L' ⟨action, permitted, step⟩
    exact kept beat List.mem_cons_self L L' action permitted step

end MainLoop

end Kalshi
