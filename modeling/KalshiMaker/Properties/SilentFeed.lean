import KalshiMaker.App.LoopSteps
import KalshiMaker.Properties.HaltedBook
import KalshiMaker.Properties.KillSwitch

/-! A feed that falls silent halts the quoting within one staleness interval of the trading loop. -/
namespace Kalshi

open Effect Eff Desk Relation Ledger TradingSession

variable {F X : Type} [Floating F]

namespace MainLoop

variable (venue : Venue X) (account : Account F X) (config : MainConfig)

/-- A round finds the feed silent beyond the threshold, and no event lifts a halt: neither the feed nor
rotation does. -/
def Silent (loop : MainLoop F X) : Beat F → Prop
  | .poll lastMessage =>
    kStalenessThresholdSeconds * nanosPerSecond < (venue.host.steadyNow loop.desk.outside).1 - lastMessage
  | .event event => event ≠ .resume ∧ event ≠ .clearConstraint .kStaleBook
  | .reconnected | .stopped => True

def isPoll : Beat F → Bool
  | .poll _ => true
  | _ => false

/-- The process lives and its main thread is still in the trading loop. -/
def Trading (loop : MainLoop F X) : Prop := loop.alive = true ∧ loop.phase = .trading

/-! ### The trading loop -/

theorem settle_trading {outcome : Except (Stop String) Unit × MainLoop F X}
    (trading : Trading (settle venue outcome)) :
    settle venue outcome = outcome.2 := by
  obtain ⟨(what | what) | a, t⟩ := outcome
  · exact absurd trading.2 nofun
  · exact absurd trading.1 Bool.false_ne_true
  · rfl

theorem contain_trading {outcome : Except (Stop String) Unit × MainLoop F X}
    (trading : Trading (contain venue outcome)) :
    contain venue outcome = outcome.2 := by
  obtain ⟨(what | what) | a, t⟩ := outcome
  · rfl
  · exact absurd trading.1 Bool.false_ne_true
  · rfl

/-- Whoever is still in the trading loop after a beat was in it before, and a round counts. -/
theorem step_was_trading {loop : MainLoop F X} {beat : Beat F}
    (trading : Trading (step venue account config loop beat)) :
    Trading loop ∧ (step venue account config loop beat).pollCount =
      loop.pollCount + if isPoll beat then 1 else 0 := by
  have alive : loop.alive = true := by
    by_contra dead
    unfold step at trading
    rw [if_neg dead] at trading
    exact dead trading.1
  have onward : ∀ {m : Eff (Live F X) String Unit}, Trading (contain venue (onLive m loop)) →
      loop.phase = .trading ∧ (contain venue (onLive m loop)).pollCount = loop.pollCount := by
    intro m after
    have same := contain_trading venue after
    have kept : (onLive m loop).2.phase = loop.phase ∧ (onLive m loop).2.pollCount = loop.pollCount := ⟨rfl, rfl⟩
    rw [same] at after ⊢
    exact ⟨kept.1 ▸ after.2, kept.2⟩
  unfold step at trading ⊢
  rw [if_pos alive] at trading ⊢
  cases beat with
  | event event =>
    obtain ⟨phase, count⟩ := onward trading
    exact ⟨⟨alive, phase⟩, count⟩
  | reconnected =>
    obtain ⟨phase, count⟩ := onward trading
    exact ⟨⟨alive, phase⟩, count⟩
  | stopped =>
    dsimp only at trading ⊢
    split at trading
    next phase =>
      unfold beginWindDown at trading
      split at trading <;> exact absurd trading.2 nofun
    next => exact ⟨trading, by rw [if_neg ‹_›]; rfl⟩
  | poll lastMessage =>
    dsimp only at trading ⊢
    cases phase : loop.phase with
    | trading =>
      rw [poll_trading venue account config phase] at trading ⊢
      have paced := tradingIteration_pace venue account config lastMessage
        { loop with pollCount := loop.pollCount + 1, iterations := loop.iterations + 1 }
      refine ⟨⟨alive, phase⟩, ?_⟩
      rw [settle_trading venue trading]
      exact congrArg (fun pace => pace.2.1) paced
    | windDown deadline =>
      unfold poll at trading
      rw [phase] at trading
      dsimp only at trading
      split at trading
      · rw [settle_trading venue trading] at trading
        unfold windDownIteration at trading
        rw [bind_apply, get_apply, andThen_ok] at trading
        split at trading
        · exact absurd trading.2 nofun
        · exact absurd (phase.symm.trans trading.2) nofun
      · exact absurd trading.2 nofun
    | done =>
      unfold poll at trading
      rw [phase] at trading
      exact absurd (phase.symm.trans trading.2) nofun

theorem run_was_trading {loop : MainLoop F X} {beats : List (Beat F)}
    (trading : Trading (run venue account config loop beats)) : Trading loop := by
  induction beats generalizing loop with
  | nil => exact trading
  | cons beat beats ih => exact (step_was_trading venue account config (ih trading)).1

/-! ### The halt -/

/-- The bit for a silent feed is set, and no order was sent since `before`. -/
abbrev Pulled (before : List (Entry F)) (loop : MainLoop F X) : Prop := Latched .kStaleBook before loop.desk.ledger

def drifted (bit : Constraint) : Prop := bit = .kModelDiverge

omit [Floating F] in
theorem routine_keeps {action : Action F} (routine : action.routine drifted) :
    action ≠ .resume ∧ action ≠ .clear .kStaleBook := by
  constructor
  · rintro rfl
    exact routine
  · rintro rfl
    exact nomatch routine

/-- While the feed is silent no beat lets go of the bit, and so none sends an order. -/
theorem step_pulled {before : List (Entry F)} {loop : MainLoop F X} {beat : Beat F} (silent : Silent venue loop beat)
    (pulled : Pulled before loop) : Pulled before (step venue account config loop beat) := by
  have keeps : ∀ {permitted : Action F → Prop} {L : Ledger F},
      (∀ action, permitted action → action ≠ .resume ∧ action ≠ .clear .kStaleBook) →
      ReflTransGen (Does permitted) loop.desk.ledger L → Latched .kStaleBook before L := by
    intro permitted L kept chain
    refine chain_invariant (Latched .kStaleBook before) ?_ chain pulled
    rintro _ _ ⟨action, allowed, step⟩
    exact step_keeps_latched step (kept action allowed)
  cases beat with
  | poll lastMessage =>
    unfold step
    split
    next =>
      -- the look at the feed finds it silent, so a reconciliation alone clears a bit
      have moves := poll_moves venue account config (show drifted .kModelDiverge from rfl)
        fun _ spoken => absurd silent (not_lt.mpr spoken)
      exact keeps (fun _ => routine_keeps) moves
    next => exact pulled
  | event event =>
    exact keeps (fun action => permits_keeps silent) (step_moves venue account config loop (.event event))
  | reconnected =>
    refine keeps (fun action allowed => ?_) (step_moves venue account config loop .reconnected)
    rcases allowed with replays | rfl
    · cases action with
      | fill _ | raise => exact ⟨nofun, nofun⟩
      | _ => exact replays.elim
    · exact ⟨nofun, nofun⟩
  | stopped => exact keeps (fun action allowed => allowed.elim) (step_moves venue account config loop .stopped)

theorem run_pulled {before : List (Entry F)} {loop : MainLoop F X} {beats : List (Beat F)}
    (silent : Run.Meets (step venue account config) (Silent venue) loop beats) (pulled : Pulled before loop) :
    Pulled before (run venue account config loop beats) :=
  Run.invariant_of_meets (Pulled before) (fun _ _ quiet held => step_pulled venue account config quiet held) pulled
    silent

theorem staleChecked_silent (risk : RiskManager F) {sinceLast : Int}
    (silent : kStalenessThresholdSeconds * nanosPerSecond < sinceLast) :
    (risk.staleChecked sinceLast).constraints .kStaleBook = true := by
  unfold RiskManager.staleChecked
  rw [if_pos silent]
  simp

/-- What clears no more than a drift keeps the bit. -/
theorem Moves.keeps_stale {α : Type} {m : Eff (MainLoop F X) String α} (moves : Moves (Action.routine drifted) m)
    {loop : MainLoop F X} (on : loop.desk.riskMgr.constraints .kStaleBook = true) :
    (m loop).2.desk.riskMgr.constraints .kStaleBook = true :=
  chain_invariant (fun L : Ledger F => L.riskMgr.constraints .kStaleBook = true)
    (fun _ _ ⟨_, routine, step⟩ on => step_keeps_bit step (routine_keeps routine) on) (moves loop) on

/-- The round at the staleness interval sets the bit, and the rest of it does not let go. -/
theorem check_pulls {lastMessage : TimePoint} {loop : MainLoop F X} (trading : loop.phase = .trading)
    (due : (loop.pollCount + 1) % kStalenessCheckInterval = 0) (silent : Silent venue loop (.poll lastMessage)) :
    (poll venue account config lastMessage loop).desk.riskMgr.isSet .kStaleBook = true := by
  have set := staleChecked_silent loop.desk.riskMgr silent
  have refreshed := refreshFeed_halted venue ((RiskManager.isHalted_iff _).mpr ⟨_, set⟩)
  rw [poll_trading venue account config trading]
  have round : Leaves (fun _ t => t.desk.riskMgr.constraints .kStaleBook = true)
      (fun _ t => t.desk.riskMgr.constraints .kStaleBook = true) (tradingIteration venue account config lastMessage)
      { loop with pollCount := loop.pollCount + 1, iterations := loop.iterations + 1 } := by
    unfold tradingIteration
    refine Leaves.bind (Leaves.of_run rfl (Leaves.bind ?_))
    refine atCadence_leaves (fun _ => onDesk_leaves (Leaves.of_run refreshed ?_)) fun undue => absurd due undue
    have moves := afterRefresh_routine venue account config (show drifted .kModelDiverge from rfl) (loop.pollCount + 1)
    exact Leaves.of_state (fun _ => moves.keeps_stale set) fun _ => moves.keeps_stale set
  refine settle_leaves venue round (fun _ on => on) (fun what t on => ?_) fun _ _ on => on
  obtain ⟨cancels, x, ran, _⟩ := cancelAllQuotes_run venue t.desk
  rw [ran]
  exact on

/-- A silence of so many rounds meets the staleness interval, and the bit stays. -/
theorem silence_pulls {loop : MainLoop F X} {beats : List (Beat F)}
    (silent : Run.Meets (step venue account config) (Silent venue) loop beats)
    (trading : Trading (run venue account config loop beats)) :
    (run venue account config loop beats).desk.riskMgr.isSet .kStaleBook = true ∨
      loop.pollCount % kStalenessCheckInterval + beats.countP isPoll < kStalenessCheckInterval := by
  induction beats generalizing loop with
  | nil => exact .inr (by simpa using Nat.mod_lt _ (by decide))
  | cons beat beats ih =>
    obtain ⟨now, later⟩ := silent
    have after : Trading (step venue account config loop beat) := run_was_trading venue account config trading
    obtain ⟨before, counted⟩ := step_was_trading venue account config after
    rcases ih later trading with set | few
    · exact .inl set
    · rw [counted] at few
      rw [List.countP_cons]
      cases poll : isPoll beat with
      | false =>
        rw [poll] at few
        exact .inr (by simpa using few)
      | true =>
        rw [poll] at few
        by_cases due : (loop.pollCount + 1) % kStalenessCheckInterval = 0
        · left
          cases beat with
          | poll lastMessage =>
            have set := check_pulls venue account config before.2 due now
            rw [← step_poll venue account config before.1] at set
            have pulled : Pulled (step venue account config loop (.poll lastMessage)).desk.calls
                (step venue account config loop (.poll lastMessage)) := ⟨set, [], (List.append_nil _).symm, nofun⟩
            exact (run_pulled venue account config later pulled).1
          | _ => cases poll
        · right
          simp only [if_true] at few ⊢
          unfold kStalenessCheckInterval at *
          omega

/-- Once a silence has lasted to the next staleness check, which is due within one interval of rounds, the
quoting is halted: while the silence lasts no order goes out, and each further round sends a cancel for
every order that rests on a tracked market. -/
theorem silent_feed_pulls_quotes {loop : MainLoop F X} {silence later : List (Beat F)}
    (silent : Run.Meets (step venue account config) (Silent venue) loop (silence ++ later))
    (long : kStalenessCheckInterval ≤ loop.pollCount % kStalenessCheckInterval + silence.countP isPoll)
    (trading : Trading (run venue account config loop (silence ++ later))) :
    let halted := run venue account config loop silence
    let now := run venue account config loop (silence ++ later)
    now.desk.riskMgr.isSet .kStaleBook = true ∧
      (∀ entry ∈ halted.desk.callsSince now.desk, entry.call.sentOn = none) ∧
      ∀ lastMessage, Silent venue now (.poll lastMessage) →
        now.desk.Swept (step venue account config now (.poll lastMessage)).desk := by
  intro halted now
  obtain ⟨first, second⟩ := Run.meets_append.mp silent
  have joined : now = run venue account config halted later := List.foldl_append
  have onward : Trading (run venue account config halted later) := by
    rw [← joined]
    exact trading
  have still : Trading halted := run_was_trading venue account config onward
  have set : halted.desk.riskMgr.isSet .kStaleBook = true := by
    rcases silence_pulls venue account config first still with set | few
    · exact set
    · omega
  obtain ⟨kept, sent, calls, unsent⟩ : Pulled halted.desk.calls now := by
    rw [joined]
    exact run_pulled venue account config second ⟨set, [], (List.append_nil _).symm, nofun⟩
  refine ⟨kept, fun entry member => ?_, fun lastMessage quiet => ?_⟩
  · have since : halted.desk.callsSince now.desk = sent := Desk.callsSince_of_append calls
    exact unsent entry (since ▸ member)
  · rw [step_poll venue account config trading.1]
    refine trading_clears venue account config trading.2 (fun _ => ?_) ((RiskManager.isHalted_iff _).mpr ⟨_, kept⟩)
    rw [trading.2]
    intro _ _
    exact (RiskManager.isHalted_iff _).mpr ⟨.kStaleBook, staleChecked_silent _ quiet⟩

def silentVenue : Venue Script := ⟨⟨"exchange"⟩, Script.host⟩

/-- A quoted market, one round before the check, and the clock half a minute and more after the last message. -/
def quotedLoop : MainLoop ℚ Script where
  live := { desk := ((Process.start { tickers := ["M"] } {} {} { time := 31000000000 } none none false false).run
    silentVenue
    [.addMarket seedM]).desk }
  pollCount := 299

theorem silent_feed_pulls_quotes_check :
    let now := run silentVenue silent {} quotedLoop [.poll 0, .event (.delta "M" .yes 40 ⟨100⟩)]
    now.desk.riskMgr.isSet .kStaleBook = true ∧ now.desk.Swept (step silentVenue silent {} now (.poll 0)).desk := by
  have long : kStalenessCheckInterval ≤ quotedLoop.pollCount % kStalenessCheckInterval +
      [Beat.poll (F := ℚ) 0].countP isPoll := by decide
  have quiet : Run.Meets (step silentVenue silent {}) (Silent silentVenue) quotedLoop
      ([.poll 0] ++ [.event (.delta "M" .yes 40 ⟨100⟩)]) := by
    refine ⟨?_, ⟨nofun, nofun⟩, trivial⟩
    change kStalenessThresholdSeconds * nanosPerSecond < _
    decide +kernel
  have trading : Trading (run silentVenue silent {} quotedLoop
    ([.poll 0] ++ [.event (.delta "M" .yes 40 ⟨100⟩)])) := by
    constructor <;> decide +kernel
  obtain ⟨set, _, swept⟩ := silent_feed_pulls_quotes silentVenue silent {} quiet long trading
  refine ⟨set, swept 0 ?_⟩
  change kStalenessThresholdSeconds * nanosPerSecond < _
  decide +kernel

end MainLoop

end Kalshi
