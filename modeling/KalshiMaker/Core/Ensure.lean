import Mathlib.Data.List.Basic
import Mathlib.Logic.Function.Basic

/-! How the process dies: a failed `ensure`, a fatal signal or an exception nothing catches runs the panic handler, and
then ends it. The threads interleave call by call. -/
namespace Kalshi

/-- The signals of `install_crash_flatten_handlers`. -/
inductive FatalSignal where
  | segv
  | abrt
  | fpe
  | ill
  | bus
  deriving DecidableEq, Repr

/-- A call in progress. `work` is all code of the program outside the crash paths, and `tookFlag` is
`run_panic_handler` behind its exchange on the flag. -/
inductive CrashFrame where
  | work
  | runPanicHandler
  | tookFlag
  | handler
  | resetSignal (sig : FatalSignal)
  | raise (sig : FatalSignal)
  | abort
  deriving DecidableEq, Repr

/-- `calls` has those in progress in each thread, the innermost first, and `defaults` the signals set back
to `SIG_DFL`. The handler acts on the rest of the process, `world`. How often it was begun and ended is
counted, and nothing reads that. -/
structure Crash (W : Type) where
  calls : Nat → List CrashFrame
  world : W
  panicHandler : Option (W → W)
  panicking : Bool := false
  defaults : List FatalSignal := []
  alive : Bool := true
  begun : Nat := 0
  ended : Nat := 0

/-- What happens next: a thread goes on, fails an `ensure`, faults, or throws what nothing catches. -/
inductive CrashTurn where
  | run (thread : Nat)
  | ensureFails (thread : Nat)
  | faults (thread : Nat) (sig : FatalSignal)
  | throws (thread : Nat)
  deriving DecidableEq, Repr

namespace Crash

variable {W : Type}

def setStack (s : Crash W) (thread : Nat) (stack : List CrashFrame) : Crash W :=
  { s with calls := Function.update s.calls thread stack }

/-- A failed `ensure`, and `panic_terminate`. -/
def ensureFrames : List CrashFrame := [.runPanicHandler, .abort]

/-- `handle_fatal_signal` -/
def signalFrames (sig : FatalSignal) : List CrashFrame := [.runPanicHandler, .resetSignal sig, .raise sig]

def die (s : Crash W) : Crash W := { s with alive := false }

/-- A signal that is not handled, or that the thread is handling already, ends the process. -/
def deliver (s : Crash W) (thread : Nat) (sig : FatalSignal) : Crash W :=
  if sig ∈ s.defaults ∨ .resetSignal sig ∈ s.calls thread then s.die
  else s.setStack thread (signalFrames sig ++ s.calls thread)

def runTurn (s : Crash W) (thread : Nat) : Crash W :=
  match s.calls thread with
  | [] | .work :: _ => s
  | .runPanicHandler :: rest =>
    -- the exchange on the flag is atomic: only the first caller finds it down
    if s.panicking then s.setStack thread rest
    else { s.setStack thread (.tookFlag :: rest) with panicking := true }
  | .tookFlag :: rest =>
    if s.panicHandler.isSome then { s.setStack thread (.handler :: rest) with begun := s.begun + 1 }
    else s.setStack thread rest
  | .handler :: rest =>
    { s.setStack thread rest with world := (s.panicHandler.getD id) s.world, ended := s.ended + 1 }
  | .resetSignal sig :: rest => { s.setStack thread rest with defaults := sig :: s.defaults }
  | .raise sig :: _ => s.deliver thread sig
  | .abort :: _ => s.deliver thread .abrt

/-- Only the program's code and the handler fail. What the handler throws is swallowed. -/
def failTurn (s : Crash W) : CrashTurn → Crash W
  | .run _ => s
  | .ensureFails thread =>
    match s.calls thread with
    | .work :: _ | .handler :: _ => s.setStack thread (ensureFrames ++ s.calls thread)
    | _ => s
  | .faults thread sig =>
    match s.calls thread with
    | .work :: _ | .handler :: _ => s.deliver thread sig
    | _ => s
  | .throws thread =>
    match s.calls thread with
    | .work :: _ => s.setStack thread (ensureFrames ++ s.calls thread)
    | .handler :: rest => s.setStack thread rest
    | _ => s

def take (s : Crash W) (turn : CrashTurn) : Crash W :=
  if s.alive then
    match turn with
    | .run thread => s.runTurn thread
    | failure => s.failTurn failure
  else s

/-- Some threads work, and none has failed. -/
def working (panicHandler : Option (W → W)) (world : W) (threads : Nat → Bool) : Crash W where
  calls thread := if threads thread then [.work] else []
  world
  panicHandler

def after (s : Crash W) (turns : List CrashTurn) : Crash W := turns.foldl take s

end Crash

end Kalshi
