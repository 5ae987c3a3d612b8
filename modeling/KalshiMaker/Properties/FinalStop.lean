import KalshiMaker.Lib.Run
import KalshiMaker.Net.ConnectionLoop

/-! Whether a stop of the websocket client is final: no interleaving opens a connection after it, and `run` returns. -/
namespace Kalshi

namespace ConnectionLoop

variable (maxReconnects : Int)

/-- Whatever happens next, no connection is opened, and `run` returns once it has taken enough turns. -/
def Final (loop : ConnectionLoop) : Prop :=
  (∀ later : List ThreadTurn, (later.foldl (take maxReconnects) loop).opened = loop.opened) ∧
    ∃ enough, ∀ later : List ThreadTurn, enough ≤ later.count .run →
      (later.foldl (take maxReconnects) loop).run = .returned

/-- What `run` finds next keeps it from a connection: it is about to leave or has returned, or the flag it
tests next is down, or the reconnects it counts next are used up. -/
def Stopped (loop : ConnectionLoop) : Prop :=
  match loop.run with
  | .lowerFlag | .returned => True
  | .testFlag | .sleep => loop.running = false
  | .awaitDone | .retestFlag | .countReconnect => loop.running = false ∨ loop.exhausted maxReconnects = true
  | .raiseFlag | .connect | .clearDone | .start => False

/-- How many turns `run` takes at most before it returns. -/
def turnsLeft (loop : ConnectionLoop) : Nat :=
  match loop.run with
  | .returned => 0
  | .lowerFlag => 1
  | .testFlag => 2
  | .sleep => 3
  | .countReconnect => 4
  | .retestFlag => 5
  | .awaitDone => 6
  | .raiseFlag | .connect | .clearDone | .start => 0

/-- A stop has returned, and `run` is kept from a connection and from waiting. -/
structure Leaving (loop : ConnectionLoop) : Prop where
  stop : loop.stop = .returned
  stopped : loop.Stopped maxReconnects
  released : loop.run = .awaitDone → loop.done = true

variable {maxReconnects} {loop : ConnectionLoop}

/-! ### What a turn does after the stop -/

theorem Leaving.closeSocket (leaving : loop.Leaving maxReconnects) : loop.closeSocket.Leaving maxReconnects where
  stop := leaving.stop
  stopped := leaving.stopped
  released waits := by
    simp only [ConnectionLoop.closeSocket, leaving.released waits, Bool.true_or]

/-- A statement that throws is one that a stopped `run` does not come to. -/
theorem Leaving.throwTurn (leaving : loop.Leaving maxReconnects) : loop.throwTurn = loop := by
  have stopped := leaving.stopped
  unfold Stopped at stopped
  unfold ConnectionLoop.throwTurn
  cases stage : loop.run <;> rw [stage] at stopped
  case connect => exact stopped.elim
  case start => exact stopped.elim

theorem Leaving.stopTurn (leaving : loop.Leaving maxReconnects) : loop.stopTurn = loop := by
  unfold ConnectionLoop.stopTurn
  rw [leaving.stop]

theorem Leaving.runTurn (leaving : loop.Leaving maxReconnects) :
    (loop.runTurn maxReconnects).Leaving maxReconnects ∧ (loop.runTurn maxReconnects).opened = loop.opened ∧
      (loop.runTurn maxReconnects).turnsLeft ≤ loop.turnsLeft - 1 := by
  obtain ⟨stop, stopped, released⟩ := leaving
  unfold Stopped at stopped
  unfold ConnectionLoop.runTurn
  cases stage : loop.run <;> rw [stage] at stopped released <;> dsimp only at stopped ⊢
  case returned => exact ⟨⟨stop, by simp [Stopped, stage], by simp [stage]⟩, rfl, by simp [turnsLeft, stage]⟩
  case lowerFlag => exact ⟨⟨stop, trivial, by simp⟩, rfl, by simp [turnsLeft, stage]⟩
  case testFlag =>
    rw [stopped]
    exact ⟨⟨stop, trivial, by simp⟩, rfl, by simp [turnsLeft, stage]⟩
  case sleep => exact ⟨⟨stop, stopped, by simp⟩, rfl, by simp [turnsLeft, stage]⟩
  -- the stop has released the wait, so the turn goes on to test the flag again
  case awaitDone =>
    rw [released rfl]
    exact ⟨⟨stop, stopped, by simp⟩, rfl, by simp [turnsLeft, stage]⟩
  case retestFlag =>
    cases flag : loop.running with
    | false => exact ⟨⟨stop, trivial, by simp⟩, rfl, by simp [turnsLeft, stage]⟩
    | true =>
      rw [flag] at stopped
      exact ⟨⟨stop, .inr (stopped.resolve_left (by decide)), by simp⟩, rfl, by simp [turnsLeft, stage]⟩
  case countReconnect =>
    cases spent : loop.exhausted maxReconnects with
    | true => exact ⟨⟨stop, trivial, by simp⟩, rfl, by simp [turnsLeft, stage]⟩
    | false =>
      rw [spent] at stopped
      exact ⟨⟨stop, stopped.resolve_right (by decide), by simp⟩, rfl, by simp [turnsLeft, stage]⟩

/-- Whatever happens next, nothing is opened, and a turn of `run` brings it closer to its return. -/
theorem Leaving.take (leaving : loop.Leaving maxReconnects) (turn : ThreadTurn) :
    (loop.take maxReconnects turn).Leaving maxReconnects ∧ (loop.take maxReconnects turn).opened = loop.opened ∧
      (loop.take maxReconnects turn).turnsLeft ≤ loop.turnsLeft ∧
      (turn = .run → (loop.take maxReconnects turn).turnsLeft ≤ loop.turnsLeft - 1) := by
  cases turn with
  | run =>
    obtain ⟨later, opened, fewer⟩ := leaving.runTurn
    exact ⟨later, opened, fewer.trans (Nat.sub_le _ _), fun _ => fewer⟩
  | throws =>
    have same : loop.take maxReconnects .throws = loop := leaving.throwTurn
    rw [same]
    exact ⟨leaving, rfl, le_rfl, fun other => by cases other⟩
  | stop =>
    have same : loop.take maxReconnects .stop = loop := leaving.stopTurn
    rw [same]
    exact ⟨leaving, rfl, le_rfl, fun other => by cases other⟩
  | lost => exact ⟨leaving.closeSocket, rfl, le_rfl, fun other => by cases other⟩

theorem Leaving.final (leaving : loop.Leaving maxReconnects) : loop.Final maxReconnects := by
  have keeps : ∀ (l : ConnectionLoop) (turn : ThreadTurn), l.Leaving maxReconnects →
      (l.take maxReconnects turn).Leaving maxReconnects := fun l turn between => (between.take turn).1
  constructor
  · intro later
    have unopened : ∀ later : List ThreadTurn,
        let l := later.foldl (ConnectionLoop.take maxReconnects) loop
        l.Leaving maxReconnects ∧ l.opened = loop.opened := by
      refine Run.invariant (fun l : ConnectionLoop => l.Leaving maxReconnects ∧ l.opened = loop.opened)
        ?_ ⟨leaving, rfl⟩
      rintro l turn ⟨between, same⟩
      exact ⟨keeps l turn between, (between.take turn).2.1.trans same⟩
    exact (unopened later).2
  · refine ⟨loop.turnsLeft, fun later enough => ?_⟩
    have left : (later.foldl (ConnectionLoop.take maxReconnects) loop).turnsLeft = 0 := by
      refine Run.rank_zero (fun l : ConnectionLoop => l.Leaving maxReconnects) turnsLeft
        (fun turn : ThreadTurn => turn == .run) keeps ?_ ?_ leaving enough
      · exact fun l turn between => (between.take turn).2.2.1
      · exact fun l turn between runs => (between.take turn).2.2.2 (by simpa using runs)
    have stopped := (Run.invariant (fun l : ConnectionLoop => l.Leaving maxReconnects) keeps leaving later).stopped
    unfold turnsLeft at left
    unfold Stopped at stopped
    generalize (later.foldl (ConnectionLoop.take maxReconnects) loop).run = stage at left stopped ⊢
    cases stage <;> simp_all

/-! ### Where a stop is not final -/

variable (maxReconnects) in
/-- Some turns of `run` alone open a connection. -/
def Opens (loop : ConnectionLoop) : Prop :=
  ∃ turns, ((List.replicate turns ThreadTurn.run).foldl (take maxReconnects) loop).opened = loop.opened + 1

theorem Opens.next {next : ConnectionLoop} (opens : next.Opens maxReconnects)
    (ran : loop.runTurn maxReconnects = next) (same : next.opened = loop.opened) : loop.Opens maxReconnects := by
  obtain ⟨turns, opened⟩ := opens
  refine ⟨turns + 1, ?_⟩
  rw [List.replicate_succ, List.foldl_cons]
  change ((List.replicate turns ThreadTurn.run).foldl (ConnectionLoop.take maxReconnects)
    (loop.runTurn maxReconnects)).opened = _
  rw [ran, opened, same]

/-- Past the loop test, `run` opens a connection. -/
theorem opens_of_started (started : loop.run = .connect ∨ loop.run = .clearDone ∨ loop.run = .start) :
    loop.Opens maxReconnects := by
  have starts : ∀ {l : ConnectionLoop}, l.run = .start → l.Opens maxReconnects := by
    intro l stage
    refine ⟨1, ?_⟩
    simp [take, runTurn, stage]
  have clears : ∀ {l : ConnectionLoop}, l.run = .clearDone → l.Opens maxReconnects := by
    intro l stage
    exact (starts (l := { l with done := false, run := .start }) rfl).next (by simp [runTurn, stage]) rfl
  rcases started with stage | stage | stage
  · exact (clears (l := { loop.closeSocket with run := .clearDone }) rfl).next (by simp [runTurn, stage]) rfl
  · exact clears stage
  · exact starts stage

/-- With the flag up, the loop goes round again. -/
theorem opens_of_running (running : loop.running = true) (tests : loop.run = .testFlag ∨ loop.run = .sleep) :
    loop.Opens maxReconnects := by
  have passes : ∀ {l : ConnectionLoop}, l.running = true → l.run = .testFlag → l.Opens maxReconnects := by
    intro l up stage
    have started : ({ l with run := .connect } : ConnectionLoop).Opens maxReconnects := opens_of_started (.inl rfl)
    exact started.next (by simp [runTurn, stage, up]) rfl
  rcases tests with stage | stage
  · exact passes running stage
  · exact (passes (l := { loop with run := .testFlag }) running rfl).next (by simp [runTurn, stage]) rfl

theorem opens_of_unexhausted (running : loop.running = true) (left : loop.exhausted maxReconnects = false)
    (counts : loop.run = .retestFlag ∨ loop.run = .countReconnect) : loop.Opens maxReconnects := by
  have counted : ∀ {l : ConnectionLoop}, l.running = true → l.exhausted maxReconnects = false →
    l.run = .countReconnect →
      l.Opens maxReconnects := by
    intro l up left stage
    have again : ({ l with reconnectAttempts := l.reconnectAttempts + 1, run := .sleep } : ConnectionLoop).Opens
        maxReconnects := opens_of_running up (.inr rfl)
    exact again.next (by simp [runTurn, stage, left]) rfl
  rcases counts with stage | stage
  · exact (counted (l := { loop with run := .countReconnect }) running left rfl).next
      (by simp [runTurn, stage, running]) rfl
  · exact counted running left stage

/-- From every state a stop can leave but the stopped ones, `run` opens a connection. -/
theorem opens_of_not_stopped (released : loop.done = true) (unstopped : ¬ loop.Stopped maxReconnects) :
    loop.Opens maxReconnects := by
  unfold Stopped at unstopped
  cases stage : loop.run <;> rw [stage] at unstopped <;> dsimp only at unstopped
  -- a run that has yet to raise the flag undoes the stop
  case raiseFlag =>
    have raised : ({ loop with running := true, reconnectAttempts := 0, run := .testFlag } : ConnectionLoop).Opens
        maxReconnects := opens_of_running rfl (.inl rfl)
    exact raised.next (by simp [runTurn, stage]) rfl
  case testFlag => exact opens_of_running (by simpa using unstopped) (.inl stage)
  case connect => exact opens_of_started (.inl stage)
  case clearDone => exact opens_of_started (.inr (.inl stage))
  case start => exact opens_of_started (.inr (.inr stage))
  case awaitDone =>
    obtain ⟨running, left⟩ := not_or.mp unstopped
    have woken : ({ loop with run := .retestFlag } : ConnectionLoop).Opens maxReconnects :=
      opens_of_unexhausted (by simpa using running) (Bool.eq_false_iff.mpr left) (.inl rfl)
    exact woken.next (by simp [runTurn, stage, released]) rfl
  case retestFlag =>
    obtain ⟨running, left⟩ := not_or.mp unstopped
    exact opens_of_unexhausted (by simpa using running) (Bool.eq_false_iff.mpr left) (.inl stage)
  case countReconnect =>
    obtain ⟨running, left⟩ := not_or.mp unstopped
    exact opens_of_unexhausted (by simpa using running) (Bool.eq_false_iff.mpr left) (.inr stage)
  case sleep => exact opens_of_running (by simpa using unstopped) (.inr stage)
  case lowerFlag => exact absurd trivial unstopped
  case returned => exact absurd trivial unstopped

/-- Of every interleaving of the two threads: when `stop` takes its last step, it is final exactly if it finds `run`
stopped. -/
theorem stop_is_final_iff (maxReconnects : Int) (turns : List ThreadTurn) :
    let loop := after maxReconnects turns
    loop.stop = .raiseDone → ((loop.take maxReconnects .stop).Final maxReconnects ↔ loop.Stopped maxReconnects) := by
  intro loop last
  have returns : loop.take maxReconnects .stop = { loop with done := true, stop := .returned } := by
    simp only [take, stopTurn, last]
  rw [returns]
  constructor
  · rintro ⟨unopened, _⟩
    by_contra unstopped
    have opens : ({ loop with done := true, stop := .returned } : ConnectionLoop).Opens maxReconnects :=
      opens_of_not_stopped rfl unstopped
    obtain ⟨count, opened⟩ := opens
    rw [unopened] at opened
    exact absurd opened (by simp)
  · intro stopped
    exact Leaving.final ⟨rfl, stopped, fun _ => rfl⟩

/-- Stopped during the connection, `run` returns. -/
theorem stop_is_final_iff_connected :
    let loop := after (-1) [.run, .run, .run, .run, .run, .stop, .stop]
    loop.run = .awaitDone ∧ loop.up = false ∧ (loop.take (-1) .stop).Final (-1) :=
  ⟨by decide, by decide,
    (stop_is_final_iff (-1) [.run, .run, .run, .run, .run, .stop, .stop] (by decide)).mpr (Or.inl (by decide))⟩

/-- A `run` that waits on a connection that nobody stops does not return. -/
theorem waits_on (waits : loop.run = .awaitDone) (undone : loop.done = false) (turns : Nat) :
    ((List.replicate turns ThreadTurn.run).foldl (take maxReconnects) loop).run = .awaitDone := by
  have unmoved : loop.take maxReconnects .run = loop := by simp [take, runTurn, waits, undone]
  induction turns with
  | zero => exact waits
  | succ turns ih => rw [List.replicate_succ, List.foldl_cons, unmoved, ih]

/-- A stop that comes before the first statement of `run` is undone by it, and one that comes between the loop test and
the transport's `run` has its `done` cleared: each time `run` connects after the stop has returned, and stays. -/
theorem early_stop_is_lost :
    let early := after (-1) [.stop, .stop, .stop]
    let between := after (-1) [.run, .run, .stop, .stop, .stop]
    (early.stop = .returned ∧ ¬ early.Final (-1) ∧
      ∀ turns, ((List.replicate (5 + turns) ThreadTurn.run).foldl (take (-1)) early).run = .awaitDone) ∧
    (between.stop = .returned ∧ ¬ between.Final (-1) ∧
      ∀ turns, ((List.replicate (3 + turns) ThreadTurn.run).foldl (take (-1)) between).run = .awaitDone) := by
  refine ⟨⟨by decide, ?_, fun turns => ?_⟩, by decide, ?_, fun turns => ?_⟩
  · exact fun final => absurd (final.1 (List.replicate 5 .run)) (by decide)
  · rw [List.replicate_add, List.foldl_append]
    exact waits_on (by decide) (by decide) turns
  · exact fun final => absurd (final.1 (List.replicate 3 .run)) (by decide)
  · rw [List.replicate_add, List.foldl_append]
    exact waits_on (by decide) (by decide) turns

end ConnectionLoop

end Kalshi
