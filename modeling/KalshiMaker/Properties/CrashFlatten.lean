import KalshiMaker.Core.Ensure
import KalshiMaker.Engine.Steps
import KalshiMaker.Net.ScriptedHost
import KalshiMaker.Lib.Run

/-! However the threads interleave, a crash runs the panic handler once, and a thread that failed does nothing else. -/
namespace Kalshi

open Effect

variable {W : Type}

/-- The calls that end the process. -/
def CrashFrame.fatal : CrashFrame → Bool
  | .raise _ | .abort => true
  | .work | .runPanicHandler | .tookFlag | .handler | .resetSignal _ => false

def CrashTurn.thread : CrashTurn → Nat
  | .run thread | .ensureFails thread | .faults thread _ | .throws thread => thread

namespace Crash

/-! ### Any failures in any order -/

/-- No thread is between the flag and the handler. -/
def Unclaimed (s : Crash W) : Prop := ∀ thread, .tookFlag ∉ s.calls thread

/-- One thread has taken the flag and has still to begin the handler. -/
def Claimed (s : Crash W) : Prop := ∃ thread rest, s.calls thread = .tookFlag :: rest ∧ .tookFlag ∉ rest ∧
  ∀ other, other ≠ thread → .tookFlag ∉ s.calls other

/-- Once the flag is up the handler has been begun, or the thread that took the flag is to begin it. Until then
nothing has been set back or has died, and every failed thread is about to test the flag. -/
structure Sound (s : Crash W) : Prop where
  armed : s.panicHandler.isSome = true
  once : s.panicking = true → s.begun = 1 ∧ s.Unclaimed ∨ s.begun = 0 ∧ s.Claimed
  calm : s.panicking = false → s.begun = 0 ∧ s.Unclaimed ∧ s.alive = true ∧ s.defaults = [] ∧
    ∀ thread, s.calls thread = [] ∨ s.calls thread = [.work] ∨ ∃ rest, s.calls thread = .runPanicHandler :: rest

theorem setStack_self (s : Crash W) (thread : Nat) (stack : List CrashFrame) :
    (s.setStack thread stack).calls thread = stack := Function.update_self _ _ _

theorem setStack_other (s : Crash W) {thread other : Nat} (apart : other ≠ thread) (stack : List CrashFrame) :
    (s.setStack thread stack).calls other = s.calls other := Function.update_of_ne apart _ _

theorem deliver_other (s : Crash W) {thread other : Nat} (apart : other ≠ thread) (sig : FatalSignal) :
    (s.deliver thread sig).calls other = s.calls other := by
  unfold deliver
  split
  · rfl
  · exact setStack_other s apart _

/-- A turn leaves the calls of the other threads alone. -/
theorem take_other (s : Crash W) {turn : CrashTurn} {other : Nat} (apart : other ≠ turn.thread) :
    (s.take turn).calls other = s.calls other := by
  unfold take
  split
  · cases turn with
    | run thread =>
      simp only [runTurn]
      repeat' split
      all_goals first | rfl | exact deliver_other s apart _ | exact setStack_other s apart _
    | ensureFails thread | throws thread | faults thread sig =>
      simp only [failTurn]
      split
      all_goals first | rfl | exact deliver_other s apart _ | exact setStack_other s apart _
  · rfl

/-- Once the flag is up it stays up, and a thread that has not taken it neither takes it nor begins the handler. -/
theorem take_flagged {s : Crash W} (flagged : s.panicking = true) (turn : CrashTurn) :
    (s.take turn).panicking = true ∧ (.tookFlag ∉ s.calls turn.thread →
      (s.take turn).begun = s.begun ∧ .tookFlag ∉ (s.take turn).calls turn.thread) := by
  have popped : ∀ {thread frame rest}, s.calls thread = frame :: rest → .tookFlag ∉ s.calls thread →
      .tookFlag ∉ (s.setStack thread rest).calls thread := by
    intro thread frame rest found absent
    rw [setStack_self]
    exact fun member => absent (found ▸ List.mem_cons_of_mem _ member)
  have pushed : ∀ {thread} calls, .tookFlag ∉ calls → .tookFlag ∉ s.calls thread →
      .tookFlag ∉ (s.setStack thread (calls ++ s.calls thread)).calls thread := by
    intro thread calls new absent
    rw [setStack_self, List.mem_append, not_or]
    exact ⟨new, absent⟩
  have delivered : ∀ thread sig, (s.deliver thread sig).panicking = true ∧ (.tookFlag ∉ s.calls thread →
      (s.deliver thread sig).begun = s.begun ∧ .tookFlag ∉ (s.deliver thread sig).calls thread) := by
    intro thread sig
    unfold deliver
    split
    · exact ⟨flagged, fun absent => ⟨rfl, absent⟩⟩
    · exact ⟨flagged, fun absent => ⟨rfl, pushed _ (by simp [signalFrames]) absent⟩⟩
  unfold take
  split
  · cases turn with
    | run thread =>
      simp only [runTurn, CrashTurn.thread, flagged, ↓reduceIte]
      -- idle, at work, and then the calls of a crash path in the order that they are made in
      split
      next => exact ⟨flagged, fun absent => ⟨rfl, absent⟩⟩
      next => exact ⟨flagged, fun absent => ⟨rfl, absent⟩⟩
      next rest found => exact ⟨flagged, fun absent => ⟨rfl, popped found absent⟩⟩
      next rest found =>
        have took : .tookFlag ∈ s.calls thread := found ▸ List.mem_cons_self ..
        split
        · exact ⟨flagged, fun absent => absurd took absent⟩
        · exact ⟨flagged, fun absent => absurd took absent⟩
      next rest found => exact ⟨flagged, fun absent => ⟨rfl, popped found absent⟩⟩
      next sig rest found => exact ⟨flagged, fun absent => ⟨rfl, popped found absent⟩⟩
      next => exact delivered _ _
      next => exact delivered _ _
    | ensureFails thread =>
      simp only [failTurn, CrashTurn.thread]
      split
      · exact ⟨flagged, fun absent => ⟨rfl, pushed _ (by simp [ensureFrames]) absent⟩⟩
      · exact ⟨flagged, fun absent => ⟨rfl, pushed _ (by simp [ensureFrames]) absent⟩⟩
      · exact ⟨flagged, fun absent => ⟨rfl, absent⟩⟩
    | faults thread sig =>
      simp only [failTurn, CrashTurn.thread]
      split
      · exact delivered _ _
      · exact delivered _ _
      · exact ⟨flagged, fun absent => ⟨rfl, absent⟩⟩
    | throws thread =>
      simp only [failTurn, CrashTurn.thread]
      split
      next => exact ⟨flagged, fun absent => ⟨rfl, pushed _ (by simp [ensureFrames]) absent⟩⟩
      next rest found => exact ⟨flagged, fun absent => ⟨rfl, popped found absent⟩⟩
      next => exact ⟨flagged, fun absent => ⟨rfl, absent⟩⟩
  · exact ⟨flagged, fun absent => ⟨rfl, absent⟩⟩

/-- The thread that has taken the flag can only go on, and begins the handler. -/
theorem take_claimed {s : Crash W} (armed : s.panicHandler.isSome = true) {turn : CrashTurn} {rest : List CrashFrame}
    (took : s.calls turn.thread = .tookFlag :: rest) :
    s.take turn = s ∨ (s.take turn).begun = s.begun + 1 ∧ (s.take turn).calls turn.thread = .handler :: rest := by
  unfold take
  split
  · cases turn with
    | run thread =>
      right
      change s.calls thread = _ at took
      simp only [runTurn, CrashTurn.thread, took, armed, ↓reduceIte]
      exact ⟨trivial, setStack_self _ _ _⟩
    | ensureFails thread | faults thread sig | throws thread =>
      left
      change s.calls thread = _ at took
      simp only [failTurn, took]
  · exact .inl rfl

/-- The handler is begun by the thread that took the flag, and by no other. -/
theorem take_once {s : Crash W} (armed : s.panicHandler.isSome = true) (flagged : s.panicking = true)
    (once : s.begun = 1 ∧ s.Unclaimed ∨ s.begun = 0 ∧ s.Claimed) (turn : CrashTurn) :
    (s.take turn).begun = 1 ∧ (s.take turn).Unclaimed ∨ (s.take turn).begun = 0 ∧ (s.take turn).Claimed := by
  rcases once with ⟨begun, unclaimed⟩ | ⟨begun, claimer, rest, took, once, others⟩
  -- with the handler begun no thread takes the flag again
  · left
    obtain ⟨same, absent⟩ := (take_flagged flagged turn).2 (unclaimed turn.thread)
    refine ⟨same.trans begun, fun thread => ?_⟩
    by_cases own : thread = turn.thread
    · exact own ▸ absent
    · exact take_other s own ▸ unclaimed thread
  -- until then the turn is the claimer's, which begins it, or leaves the claim as it is
  · by_cases own : turn.thread = claimer
    · subst own
      rcases take_claimed armed took with same | ⟨first, went⟩
      · rw [same]
        exact .inr ⟨begun, turn.thread, rest, took, once, others⟩
      · left
        refine ⟨by rw [first, begun], fun thread => ?_⟩
        by_cases here : thread = turn.thread
        · subst here
          rw [went]
          exact fun member => once ((List.mem_cons.mp member).resolve_left nofun)
        · exact take_other s here ▸ others thread here
    · right
      obtain ⟨same, absent⟩ := (take_flagged flagged turn).2 (others turn.thread own)
      refine ⟨same.trans begun, claimer, rest, (take_other s (Ne.symm own)).trans took, once, fun other apart => ?_⟩
      by_cases here : other = turn.thread
      · exact here ▸ absent
      · exact take_other s here ▸ others other apart

theorem take_handler (s : Crash W) (turn : CrashTurn) : (s.take turn).panicHandler = s.panicHandler := by
  have delivered : ∀ thread sig, (s.deliver thread sig).panicHandler = s.panicHandler := by
    intro thread sig
    unfold deliver
    split <;> rfl
  unfold take
  split
  · cases turn with
    | run thread =>
      simp only [runTurn]
      repeat' split
      all_goals first | rfl | exact delivered _ _
    | ensureFails thread | throws thread | faults thread sig =>
      simp only [failTurn]
      repeat' split
      all_goals first | rfl | exact delivered _ _
  · rfl

/-- What a failure of a working thread leaves before the flag is up. -/
theorem pushed_sound {s : Crash W} (sound : s.Sound) (unflagged : s.panicking = false) (thread : Nat)
    {rest : List CrashFrame} (absent : .tookFlag ∉ rest) : (s.setStack thread (.runPanicHandler :: rest)).Sound := by
  obtain ⟨begun, unclaimed, alive, defaults, calm⟩ := sound.calm unflagged
  have free : (s.setStack thread (.runPanicHandler :: rest)).Unclaimed := by
    intro other
    by_cases here : other = thread
    · subst here
      rw [setStack_self]
      exact fun member => absent ((List.mem_cons.mp member).resolve_left nofun)
    · rw [setStack_other s here]
      exact unclaimed other
  refine ⟨sound.armed, fun flagged => ?_, fun _ => ⟨begun, free, alive, defaults, fun other => ?_⟩⟩
  · change s.panicking = true at flagged
    rw [unflagged] at flagged
    cases flagged
  by_cases here : other = thread
  · subst here
    rw [setStack_self]
    exact .inr (.inr ⟨rest, rfl⟩)
  · rw [setStack_other s here]
    exact calm other

theorem take_sound {s : Crash W} (sound : s.Sound) (turn : CrashTurn) : (s.take turn).Sound := by
  cases flagged : s.panicking with
  | true =>
    refine ⟨?_, fun _ => take_once sound.armed flagged (sound.once flagged) turn, fun unflagged => ?_⟩
    · rw [take_handler]
      exact sound.armed
    · rw [(take_flagged flagged turn).1] at unflagged
      cases unflagged
  | false =>
    obtain ⟨begun, unclaimed, alive, defaults, calm⟩ := sound.calm flagged
    -- nothing but a working thread fails, and nothing but the test of the flag goes on
    unfold take
    rw [if_pos alive]
    cases turn with
    | run thread =>
      rcases calm thread with none | works | ⟨rest, tests⟩
      · simpa only [runTurn, none] using sound
      · simpa only [runTurn, works] using sound
      · simp only [runTurn, tests, flagged, Bool.false_eq_true, ↓reduceIte]
        have absent : .tookFlag ∉ rest := fun member => unclaimed thread (tests ▸ List.mem_cons_of_mem _ member)
        refine ⟨sound.armed, fun _ => .inr ⟨begun, thread, rest, setStack_self _ _ _, absent, fun other apart => ?_⟩,
          nofun⟩
        exact setStack_other s apart _ ▸ unclaimed other
    | ensureFails thread | throws thread =>
      rcases calm thread with none | works | ⟨rest, tests⟩
      · simpa only [failTurn, none] using sound
      · simp only [failTurn, works]
        exact pushed_sound sound flagged thread (by simp)
      · simpa only [failTurn, tests] using sound
    | faults thread sig =>
      rcases calm thread with none | works | ⟨rest, tests⟩
      · simpa only [failTurn, none] using sound
      · simp only [failTurn, works, deliver, defaults]
        rw [if_neg (by simp)]
        exact pushed_sound sound flagged thread (by simp)
      · simpa only [failTurn, tests] using sound

theorem after_sound {s : Crash W} (sound : s.Sound) (turns : List CrashTurn) : (s.after turns).Sound :=
  Run.invariant Sound (fun _ turn sound => take_sound sound turn) sound turns

/-! ### A thread that failed -/

def Failed (s : Crash W) (thread : Nat) : Prop := ∃ frame ∈ s.calls thread, frame.fatal = true

/-- The program's own code is at the bottom of a stack only. -/
def Grounded (s : Crash W) : Prop := ∀ thread, .work ∉ (s.calls thread).dropLast

/-- What a turn does to the stack of its thread: nothing, or one call of a crash path returns or comes a step nearer
the handler, or such calls are made. -/
def Turned (stack stack' : List CrashFrame) : Prop :=
  stack' = stack ∨
  (∃ frame rest, stack = frame :: rest ∧ frame.fatal = false ∧
    (stack' = rest ∨ ∃ next, next ≠ .work ∧ stack' = next :: rest)) ∨
  ∃ calls, stack' = calls ++ stack ∧ .work ∉ calls ∧ stack ≠ []

theorem deliver_turned (s : Crash W) {thread : Nat} (busy : s.calls thread ≠ []) (sig : FatalSignal) :
    Turned (s.calls thread) ((s.deliver thread sig).calls thread) := by
  unfold deliver
  split
  · exact .inl rfl
  · refine .inr (.inr ⟨signalFrames sig, Function.update_self _ _ _, by simp [signalFrames], busy⟩)

theorem take_turned (s : Crash W) (turn : CrashTurn) :
    Turned (s.calls turn.thread) ((s.take turn).calls turn.thread) := by
  have pops : ∀ {thread frame rest}, s.calls thread = frame :: rest → frame.fatal = false →
      Turned (s.calls thread) ((s.setStack thread rest).calls thread) := fun found quiet =>
    .inr (.inl ⟨_, _, found, quiet, .inl (Function.update_self _ _ _)⟩)
  have pushes : ∀ {thread frame rest}, s.calls thread = frame :: rest →
      Turned (s.calls thread) ((s.setStack thread (ensureFrames ++ s.calls thread)).calls thread) := fun found =>
    .inr (.inr ⟨ensureFrames, Function.update_self _ _ _, by simp [ensureFrames], by simp [found]⟩)
  unfold take
  split
  · cases turn with
    | run thread =>
      simp only [runTurn, CrashTurn.thread]
      -- idle, at work, and then the calls of a crash path in the order that they are made in
      split
      next => exact .inl rfl
      next => exact .inl rfl
      next rest found =>
        split
        · exact pops found rfl
        · exact .inr (.inl ⟨_, _, found, rfl, .inr ⟨.tookFlag, nofun, Function.update_self _ _ _⟩⟩)
      next rest found =>
        split
        · exact .inr (.inl ⟨_, _, found, rfl, .inr ⟨.handler, nofun, Function.update_self _ _ _⟩⟩)
        · exact pops found rfl
      next rest found => exact pops found rfl
      next sig rest found => exact pops found rfl
      next sig rest found => exact deliver_turned s (by simp [found]) sig
      next rest found => exact deliver_turned s (by simp [found]) .abrt
    | ensureFails thread =>
      simp only [failTurn, CrashTurn.thread]
      split
      next rest found => exact pushes found
      next rest found => exact pushes found
      next => exact .inl rfl
    | faults thread sig =>
      simp only [failTurn, CrashTurn.thread]
      split
      next rest found => exact deliver_turned s (by simp [found]) sig
      next rest found => exact deliver_turned s (by simp [found]) sig
      next => exact .inl rfl
    | throws thread =>
      simp only [failTurn, CrashTurn.thread]
      split
      next rest found => exact pushes found
      next rest found => exact pops found rfl
      next => exact .inl rfl
  · exact .inl rfl

theorem turned_fatal {stack stack' : List CrashFrame} (turned : Turned stack stack')
    (failed : ∃ frame ∈ stack, frame.fatal = true) : ∃ frame ∈ stack', frame.fatal = true := by
  obtain ⟨frame, member, fatal⟩ := failed
  rcases turned with same | ⟨top, rest, found, quiet, popped⟩ | ⟨calls, pushed, _, _⟩
  · exact ⟨frame, same ▸ member, fatal⟩
  · -- what returned was not the fatal call
    have below : frame ∈ rest := by
      rw [found, List.mem_cons] at member
      rcases member with rfl | member
      · rw [quiet] at fatal
        cases fatal
      · exact member
    rcases popped with popped | ⟨next, _, popped⟩
    · exact ⟨frame, popped ▸ below, fatal⟩
    · exact ⟨frame, popped ▸ List.mem_cons_of_mem _ below, fatal⟩
  · exact ⟨frame, pushed ▸ List.mem_append_right _ member, fatal⟩

theorem turned_grounded {stack stack' : List CrashFrame} (turned : Turned stack stack')
    (grounded : .work ∉ stack.dropLast) : .work ∉ stack'.dropLast := by
  rcases turned with same | ⟨top, rest, found, _, popped⟩ | ⟨calls, pushed, outside, busy⟩
  · rwa [same]
  · have below : .work ∉ rest.dropLast := by
      cases rest with
      | nil => exact List.not_mem_nil
      | cons next rest =>
        rw [found] at grounded
        exact fun member => grounded (List.mem_cons_of_mem _ member)
    rcases popped with popped | ⟨next, other, popped⟩
    · rwa [popped]
    · rw [popped]
      cases rest with
      | nil => exact List.not_mem_nil
      | cons below' rest => exact fun member => below ((List.mem_cons.mp member).resolve_left other.symm)
  · rw [pushed, List.dropLast_append_of_ne_nil busy, List.mem_append]
    exact fun member => member.elim outside grounded

theorem take_failed {s : Crash W} {thread : Nat} (failed : s.Failed thread) (turn : CrashTurn) :
    (s.take turn).Failed thread := by
  by_cases here : thread = turn.thread
  · subst here
    exact turned_fatal (take_turned s turn) failed
  · unfold Failed
    rw [take_other s here]
    exact failed

theorem take_grounded {s : Crash W} (grounded : s.Grounded) (turn : CrashTurn) : (s.take turn).Grounded := by
  intro thread
  by_cases here : thread = turn.thread
  · subst here
    exact turned_grounded (take_turned s turn) (grounded turn.thread)
  · rw [take_other s here]
    exact grounded thread

/-- A thread that failed is in a call of a crash path. -/
theorem busy_of_failed {s : Crash W} (grounded : s.Grounded) {thread : Nat} (failed : s.Failed thread) :
    ∃ frame rest, s.calls thread = frame :: rest ∧ frame ≠ .work := by
  obtain ⟨fatal, member, isFatal⟩ := failed
  have outside := grounded thread
  cases found : s.calls thread with
  | nil =>
    rw [found] at member
    cases member
  | cons frame rest =>
    refine ⟨frame, rest, rfl, ?_⟩
    rintro rfl
    rw [found] at member outside
    cases rest with
    | nil =>
      rw [List.mem_singleton.mp member] at isFatal
      cases isFatal
    | cons next rest => exact outside (List.mem_cons_self ..)

theorem working_calls (panicHandler : Option (W → W)) (world : W) (threads : Nat → Bool) (thread : Nat) :
    (working panicHandler world threads).calls thread = [] ∨
    (working panicHandler world threads).calls thread = [.work] := by
  unfold working
  dsimp only
  split
  · exact .inr rfl
  · exact .inl rfl

theorem working_unclaimed (panicHandler : Option (W → W)) (world : W) (threads : Nat → Bool) :
    (working panicHandler world threads).Unclaimed := by
  intro thread
  rcases working_calls panicHandler world threads thread with idle | works
  · rw [idle]
    exact List.not_mem_nil
  · rw [works]
    decide

theorem working_sound (panicHandler : W → W) (world : W) (threads : Nat → Bool) :
    (working (some panicHandler) world threads).Sound where
  armed := rfl
  once := nofun
  calm _ := ⟨rfl, working_unclaimed _ world threads, rfl, rfl,
    fun thread => (working_calls _ world threads thread).imp id .inl⟩

theorem working_grounded (panicHandler : Option (W → W)) (world : W) (threads : Nat → Bool) :
    (working panicHandler world threads).Grounded := by
  intro thread
  rcases working_calls panicHandler world threads thread with idle | works
  · rw [idle]
    exact List.not_mem_nil
  · rw [works]
    exact List.not_mem_nil

/-- Whatever fails, in whatever order the threads go on: the handler is begun once at most, no crash ends the process
before a thread has taken the flag and has begun the handler or is about to, and a thread that failed never gets back
to the program's code. -/
theorem crash_begins_handler_once (panicHandler : W → W) (world : W) (threads : Nat → Bool)
    (turns : List CrashTurn) :
    let s := (working (some panicHandler) world threads).after turns
    s.begun ≤ 1 ∧ (s.alive = false → s.panicking = true ∧ (s.begun = 1 ∨ s.Claimed)) ∧
    ∀ thread, s.Failed thread → ∀ later, ∃ frame rest, (s.after later).calls thread = frame :: rest ∧
      frame ≠ .work := by
  intro s
  have sound : s.Sound := after_sound (working_sound _ world threads) turns
  refine ⟨?_, fun dead => ?_, fun thread failed later => ?_⟩
  · cases flagged : s.panicking with
    | true => rcases sound.once flagged with ⟨begun, _⟩ | ⟨begun, _⟩ <;> omega
    | false => exact (sound.calm flagged).1.trans_le (Nat.zero_le _)
  · cases flagged : s.panicking with
    | true => exact ⟨rfl, (sound.once flagged).imp And.left And.right⟩
    | false =>
      rw [(sound.calm flagged).2.2.1] at dead
      cases dead
  · have grounded : (s.after later).Grounded :=
      Run.invariant Grounded (fun _ turn grounded => take_grounded grounded turn)
        (Run.invariant Grounded (fun _ turn grounded => take_grounded grounded turn) (working_grounded _ _ _) turns)
          later
    have still : (s.after later).Failed thread :=
      Run.invariant (Failed · thread) (fun _ turn failed => take_failed failed turn) failed later
    exact busy_of_failed grounded still

/-! ### One failure -/

/-- The calls of a crash path that end the process once `defaults` are set back. -/
def Dying : List FatalSignal → List CrashFrame → Prop
  | defaults, .runPanicHandler :: rest => Dying defaults rest
  | defaults, .resetSignal sig :: rest => Dying (sig :: defaults) rest
  | defaults, .raise sig :: _ => sig ∈ defaults
  | _, .abort :: _ => True
  | _, _ => False

/-- How many turns such calls take once the flag is up. -/
def framesLeft : List CrashFrame → Nat
  | .tookFlag :: rest => framesLeft rest + 2
  | .runPanicHandler :: rest | .handler :: rest | .resetSignal _ :: rest => framesLeft rest + 1
  | .raise _ :: _ => 1
  | .abort :: _ => 4
  | _ => 0

/-- How many turns the thread has left: the first to test the flag has the handler to run besides. -/
def turnsLeft (s : Crash W) (thread : Nat) : Nat :=
  framesLeft (s.calls thread) + if s.panicking then 0 else 2

/-- One thread has failed, and no other does: it is about to test the flag, has taken it, runs the handler, or has
run it. -/
structure Lone (flatten : W → W) (world : W) (thread : Nat) (s : Crash W) : Prop where
  armed : s.panicHandler = some flatten
  others : ∀ other, other ≠ thread → s.calls other = [] ∨ s.calls other = [.work]
  phase :
    (s.panicking = false ∧ s.alive = true ∧ s.world = world ∧ s.begun = 0 ∧ s.ended = 0 ∧
      ∃ rest, s.calls thread = .runPanicHandler :: rest ∧ Dying s.defaults rest) ∨
    (s.panicking = true ∧ s.alive = true ∧ s.world = world ∧ s.begun = 0 ∧ s.ended = 0 ∧
      ∃ rest, s.calls thread = .tookFlag :: rest ∧ Dying s.defaults rest) ∨
    (s.panicking = true ∧ s.alive = true ∧ s.world = world ∧ s.begun = 1 ∧ s.ended = 0 ∧
      ∃ rest, s.calls thread = .handler :: rest ∧ Dying s.defaults rest) ∨
    (s.panicking = true ∧ s.world = flatten world ∧ s.begun = 1 ∧ s.ended = 1 ∧ Dying s.defaults (s.calls thread))

theorem run_alive {s : Crash W} (alive : s.alive = true) (thread : Nat) : s.take (.run thread) = s.runTurn thread := by
  unfold take
  rw [if_pos alive]

/-- With the flag up a turn on the way to the end changes nothing but the stack and the actions set back, and is one
of the last. -/
theorem run_dying {s : Crash W} {thread : Nat} (flag : s.panicking = true) (alive : s.alive = true)
    (dying : Dying s.defaults (s.calls thread)) :
    ∃ calls defaults living, s.take (.run thread) = { s.setStack thread calls with defaults, alive := living } ∧
      Dying defaults calls ∧ (living = true → framesLeft calls < framesLeft (s.calls thread)) := by
  rw [run_alive alive, runTurn]
  have dead : s.die = { s.setStack thread (s.calls thread) with alive := false } := by
    unfold die setStack
    rw [Function.update_eq_self]
  cases found : s.calls thread with
  | nil =>
    rw [found] at dying
    exact dying.elim
  | cons frame rest =>
    rw [found] at dying dead
    cases frame with
    | work | tookFlag | handler => exact dying.elim
    | runPanicHandler =>
      refine ⟨rest, s.defaults, s.alive, ?_, dying, fun _ => by simp [framesLeft]⟩
      simp only [flag, ↓reduceIte]
      rfl
    | resetSignal sig => exact ⟨rest, sig :: s.defaults, s.alive, rfl, dying, fun _ => by simp [framesLeft]⟩
    | raise sig =>
      refine ⟨.raise sig :: rest, s.defaults, false, ?_, dying, nofun⟩
      exact (if_pos (.inl dying)).trans dead
    | abort =>
      -- the signal of `abort` goes through the handler once more, where it is not set back
      by_cases ends : .abrt ∈ s.defaults ∨ .resetSignal .abrt ∈ s.calls thread
      · refine ⟨.abort :: rest, s.defaults, false, ?_, trivial, nofun⟩
        exact (if_pos ends).trans dead
      · refine ⟨signalFrames .abrt ++ .abort :: rest, s.defaults, s.alive, ?_, ?_, fun _ => ?_⟩
        · refine (if_neg ends).trans ?_
          rw [found]
          rfl
        · exact List.mem_cons_self ..
        · simp [signalFrames, framesLeft]

/-- A turn of the failed thread keeps to the crash path, and brings the end nearer. -/
theorem run_lone {flatten : W → W} {world : W} {thread : Nat} {s : Crash W} (lone : s.Lone flatten world thread)
    (alive : s.alive = true) :
    (s.take (.run thread)).Lone flatten world thread ∧
      ((s.take (.run thread)).alive = true → (s.take (.run thread)).turnsLeft thread < s.turnsLeft thread) := by
  have others : ∀ other, other ≠ thread → (s.take (.run thread)).calls other = [] ∨
      (s.take (.run thread)).calls other = [.work] := by
    intro other apart
    rw [@take_other _ s (.run thread) other apart]
    exact lone.others other apart
  have armed := (take_handler s (.run thread)).trans lone.armed
  rcases lone.phase with ⟨flag, _, same, begun, ended, rest, found, dying⟩ |
    ⟨flag, _, same, begun, ended, rest, found, dying⟩ | ⟨flag, _, same, begun, ended, rest, found, dying⟩ |
    ⟨flag, flattened, begun, ended, dying⟩
  -- it finds the flag down and takes it, begins the handler, and runs it to its end
  · have went : s.take (.run thread) = { s.setStack thread (.tookFlag :: rest) with panicking := true } := by
      rw [run_alive alive, runTurn, found]
      simp [flag]
    have stack : (s.take (.run thread)).calls thread = .tookFlag :: rest := by
      rw [went]
      exact Function.update_self _ _ _
    refine ⟨⟨armed, others, .inr (.inl ?_)⟩, fun _ => ?_⟩
    · rw [went] at stack ⊢
      exact ⟨rfl, alive, same, begun, ended, rest, stack, dying⟩
    · unfold turnsLeft
      rw [stack, found, went]
      simp [framesLeft, flag]
  · have went : s.take (.run thread) = { s.setStack thread (.handler :: rest) with begun := s.begun + 1 } := by
      rw [run_alive alive, runTurn, found]
      simp [lone.armed]
    have stack : (s.take (.run thread)).calls thread = .handler :: rest := by
      rw [went]
      exact Function.update_self _ _ _
    refine ⟨⟨armed, others, .inr (.inr (.inl ?_))⟩, fun _ => ?_⟩
    · rw [went] at stack ⊢
      exact ⟨flag, alive, same, by rw [begun], ended, rest, stack, dying⟩
    · unfold turnsLeft
      rw [stack, found, went]
      simp [framesLeft, flag, setStack]
  · have went : s.take (.run thread) = { s.setStack thread rest with world := flatten s.world, ended :=
      s.ended + 1 } := by
      rw [run_alive alive, runTurn, found]
      simp [lone.armed]
    have stack : (s.take (.run thread)).calls thread = rest := by
      rw [went]
      exact Function.update_self _ _ _
    refine ⟨⟨armed, others, .inr (.inr (.inr ?_))⟩, fun _ => ?_⟩
    · rw [stack]
      rw [went]
      exact ⟨flag, by rw [← same], begun, by rw [ended], dying⟩
    · unfold turnsLeft
      rw [stack, found, went]
      simp [framesLeft, flag, setStack]
  · -- the handler has run: what is left ends the process
    obtain ⟨calls, defaults, living, went, dying', nearer⟩ := run_dying flag alive dying
    have stack : (s.take (.run thread)).calls thread = calls := by
      rw [went]
      exact Function.update_self _ _ _
    refine ⟨⟨armed, others, .inr (.inr (.inr ?_))⟩, fun lives => ?_⟩
    · rw [stack, went]
      exact ⟨flag, flattened, begun, ended, dying'⟩
    · unfold turnsLeft
      rw [stack]
      rw [went] at lives ⊢
      exact Nat.add_lt_add_right (nearer lives) _

/-- The other threads go on with their work. -/
theorem run_other {flatten : W → W} {world : W} {thread other : Nat} {s : Crash W}
    (lone : s.Lone flatten world thread) (apart : other ≠ thread) : s.take (.run other) = s := by
  unfold take
  split
  · rcases lone.others other apart with idle | works
    · simp only [runTurn, idle]
    · simp only [runTurn, works]
  · rfl

theorem take_lone {flatten : W → W} {world : W} {thread : Nat} {s : Crash W} (lone : s.Lone flatten world thread)
    (other : Nat) :
    (s.take (.run other)).Lone flatten world thread ∧
    ((s.take (.run other)).alive = true → (s.take (.run other)).turnsLeft thread ≤
      s.turnsLeft thread - if other = thread then 1 else 0) := by
  cases alive : s.alive with
  | false =>
    have dead : s.take (.run other) = s := by
      unfold take
      rw [alive, if_neg Bool.false_ne_true]
    rw [dead]
    refine ⟨lone, fun living => ?_⟩
    rw [alive] at living
    cases living
  | true =>
    by_cases here : other = thread
    · subst here
      obtain ⟨still, nearer⟩ := run_lone lone alive
      refine ⟨still, fun living => ?_⟩
      have := nearer living
      rw [if_pos rfl]
      omega
    · rw [run_other lone here]
      refine ⟨lone, fun _ => ?_⟩
      rw [if_neg here]
      exact le_rfl

theorem turnsLeft_pos {flatten : W → W} {world : W} {thread : Nat} {s : Crash W} (lone : s.Lone flatten world thread) :
    0 < s.turnsLeft thread := by
  unfold turnsLeft
  rcases lone.phase with ⟨_, _, _, _, _, rest, found, _⟩ | ⟨_, _, _, _, _, rest, found, _⟩ |
    ⟨_, _, _, _, _, rest, found, _⟩ | ⟨_, _, _, _, dying⟩
  · simp [found, framesLeft]
  · simp [found, framesLeft]
  · simp [found, framesLeft]
  · cases found : s.calls thread with
    | nil =>
      rw [found] at dying
      exact dying.elim
    | cons frame rest =>
      rw [found] at dying
      cases frame with
      | work | tookFlag | handler => exact dying.elim
      | runPanicHandler | resetSignal _ | raise _ | abort => simp [framesLeft]

/-- Without another failure the handler runs to its end before the process does, and that end comes. -/
theorem lone_ends {flatten : W → W} {world : W} {thread : Nat} {s : Crash W} (lone : s.Lone flatten world thread)
    (turns : List Nat) :
    ((s.after (turns.map .run)).alive = false → (s.after (turns.map .run)).world = flatten world ∧
      (s.after (turns.map .run)).begun = 1 ∧ (s.after (turns.map .run)).ended = 1) ∧
    (s.turnsLeft thread ≤ turns.count thread → (s.after (turns.map .run)).alive = false) := by
  have through : s.after (turns.map .run) = turns.foldl (fun s other => s.take (.run other)) s := List.foldl_map
  rw [through]
  have last : (turns.foldl (fun s other => s.take (.run other)) s).Lone flatten world thread :=
    Run.invariant (Lone flatten world thread) (fun _ other lone => (take_lone lone other).1) lone turns
  constructor
  · intro dead
    rcases last.phase with ⟨_, alive, _⟩ | ⟨_, alive, _⟩ | ⟨_, alive, _⟩ | ⟨_, world', begun, ended, _⟩
    · rw [dead] at alive
      cases alive
    · rw [dead] at alive
      cases alive
    · rw [dead] at alive
      cases alive
    · exact ⟨world', begun, ended⟩
  · intro enough
    -- a dead process has no turns left, so the measure is zero at the end and nowhere else
    let left : Crash W → Nat := fun s => if s.alive then s.turnsLeft thread else 0
    have falls : ∀ (s : Crash W) other, s.Lone flatten world thread →
        left (s.take (.run other)) ≤ left s - if other = thread then 1 else 0 := by
      intro s other lone
      cases living : (s.take (.run other)).alive with
      | false => simp [left, living]
      | true =>
        have before : s.alive = true := by
          by_contra dead
          unfold take at living
          rw [if_neg dead] at living
          exact dead living
        simpa only [left, living, before, ↓reduceIte] using (take_lone lone other).2 living
    have none := @Run.rank_zero _ _ (fun s other => take s (.run other)) (Lone flatten world thread) left
      (fun other => other == thread) (fun s other lone => (take_lone lone other).1)
      (fun s other lone => (falls s other lone).trans (Nat.sub_le _ _))
      (fun s other lone here => by simpa [beq_iff_eq.mp here] using falls s other lone) _ lone turns
      ((by dsimp only [left]; split <;> omega : left s ≤ s.turnsLeft thread).trans enough)
    by_contra living
    rw [Bool.not_eq_false] at living
    have some := turnsLeft_pos last
    simp only [left, living, ↓reduceIte] at none
    omega

/-- The first failure of a working thread, whatever it is. -/
theorem fails_lone (flatten : W → W) (world : W) {threads : Nat → Bool} {failure : CrashTurn}
    (fails : ∀ thread, failure ≠ .run thread) (works : threads failure.thread = true) :
    ((working (some flatten) world threads).take failure).Lone flatten world failure.thread ∧
      ((working (some flatten) world threads).take failure).turnsLeft failure.thread ≤ 7 := by
  have stack : (working (some flatten) world threads).calls failure.thread = [.work] := if_pos works
  have alive : (working (some flatten) world threads).alive = true := rfl
  have others : ∀ other, other ≠ failure.thread →
      ((working (some flatten) world threads).take failure).calls other = [] ∨
      ((working (some flatten) world threads).take failure).calls other = [.work] := by
    intro other apart
    rw [take_other _ apart]
    exact working_calls _ _ _ other
  have pushed : ∀ calls, Dying [] (calls ++ [.work]) → framesLeft (calls ++ [.work]) ≤ 4 →
      (working (some flatten) world threads).take failure =
        (working (some flatten) world threads).setStack failure.thread (.runPanicHandler :: (calls ++ [.work])) →
      ((working (some flatten) world threads).take failure).Lone flatten world failure.thread ∧
        ((working (some flatten) world threads).take failure).turnsLeft failure.thread ≤ 7 := by
    intro calls dying few went
    rw [went] at others ⊢
    have top : ((working (some flatten) world threads).setStack failure.thread
        (.runPanicHandler :: (calls ++ [.work]))).calls failure.thread = .runPanicHandler :: (calls ++ [.work]) :=
      Function.update_self _ _ _
    refine ⟨⟨rfl, others, .inl ⟨rfl, rfl, rfl, rfl, rfl, _, top, dying⟩⟩, ?_⟩
    unfold turnsLeft
    rw [top]
    simpa [framesLeft, setStack, working] using few
  cases failure with
  | run thread => exact (fails thread rfl).elim
  | ensureFails thread | throws thread =>
    refine pushed [.abort] trivial (by simp [framesLeft]) ?_
    have stack : (working (some flatten) world threads).calls thread = [.work] := stack
    simp only [take, failTurn, alive, ↓reduceIte, stack]
    rfl
  | faults thread sig =>
    refine pushed [.resetSignal sig, .raise sig] (List.mem_cons_self ..) (by simp [framesLeft]) ?_
    have stack : (working (some flatten) world threads).calls thread = [.work] := stack
    simp only [take, failTurn, alive, ↓reduceIte, deliver, stack]
    rfl

end Crash

/-- A failed `ensure` while the session handles an event ends as the session's own account of it has it: no other
thread touches the session meanwhile, so that all quotes are cancelled before the process is gone, and it is gone once
the thread has had seven turns. -/
theorem ensure_ends_as_dispatched {F X : Type} [Floating F] (venue : Venue X) (p : Process F X) (event : Event F)
    (alive : p.alive = true) {what : String} (aborted : (handle venue event p.desk).1 = .error (.abort what))
    (threads : Nat → Bool) (thread : Nat) (works : threads thread = true) (turns : List Nat) :
    let failed := (Crash.working (some fun s => (TradingSession.cancelAllQuotes venue s).2)
      (handle venue event p.desk).2 threads).take (.ensureFails thread)
    let last := failed.after (turns.map .run)
    (last.alive = false → last.world = (p.dispatch venue event).desk ∧ last.begun = 1 ∧ last.ended = 1) ∧
    (7 ≤ turns.count thread → last.alive = false) := by
  intro failed last
  obtain ⟨lone, few⟩ := @Crash.fails_lone _ (fun s => (TradingSession.cancelAllQuotes venue s).2)
    (handle venue event p.desk).2 threads (.ensureFails thread) nofun works
  obtain ⟨ends, comes⟩ := Crash.lone_ends lone turns
  have dispatched : (p.dispatch venue event).desk =
      (TradingSession.cancelAllQuotes venue (handle venue event p.desk).2).2 := by
    unfold Process.dispatch
    rw [if_pos alive]
    cases handled : handle venue event p.desk with
    | mk result desk =>
      rw [handled] at aborted
      cases aborted
      rfl
  rw [dispatched]
  exact ⟨ends, fun enough => comes (few.trans enough)⟩

/-- A fill at a price that no contract has, with the feed's thread beside the main one. -/
theorem ensure_ends_as_dispatched_fill :
    let venue : Venue Script := ⟨⟨"exchange"⟩, Script.host⟩
    let p : Process ℚ Script := Process.start { tickers := ["M"] } {} {} {} none none false false
    let worthless : Event ℚ := .fill
      { tradeId := "a", orderId := "order", marketTicker := "M", side := .yes, priceCents := 0, quantity := ⟨100⟩
        feeCents := 0, isTaker := false, timestamp := 0 }
    let failed := (Crash.working (some fun s => (TradingSession.cancelAllQuotes venue s).2)
      (handle venue worthless p.desk).2 (· < 2)).take (.ensureFails 1)
    let last := failed.after ([1, 0, 1, 1, 1, 0, 1, 1, 1].map .run)
    last.alive = false ∧ last.world = (p.dispatch venue worthless).desk := by
  intro venue p worthless failed last
  have aborted : (handle venue worthless p.desk).1 = .error (.abort "fill price outside [1,99]") := by rfl
  obtain ⟨ends, comes⟩ := ensure_ends_as_dispatched venue p worthless rfl aborted (· < 2) 1 rfl
    [1, 0, 1, 1, 1, 0, 1, 1, 1]
  have dead := comes (by decide)
  exact ⟨dead, (ends dead).1⟩

/-- A second failure does not wait for the handler that the first one took the flag for: the process is gone before
it is begun. -/
example :
    let s := (Crash.working (some fun quotes : Nat => quotes - 1) 1 (· < 2)).after
      [.ensureFails 0, .run 0, .ensureFails 1, .run 1, .run 1, .run 1, .run 1, .run 1]
    s.alive = false ∧ s.begun = 0 ∧ s.ended = 0 ∧ s.world = 1 := by decide

end Kalshi
