import KalshiMaker.Core.Types

/-! The connection loop of the websocket client on its own thread, beside one call of `stop` on another: the
two threads interleave statement by statement. -/
namespace Kalshi

/-- The next statement of `WebSocketClient::run`, and within it of the transport's `run`. -/
inductive RunAt where
  | raiseFlag
  | testFlag
  | connect
  | clearDone
  | start
  | awaitDone
  | retestFlag
  | countReconnect
  | sleep
  | lowerFlag
  | returned
  deriving DecidableEq, Repr

/-- The next statement of `WebSocketClient::stop`, and within it of the transport's `stop`. -/
inductive StopAt where
  | lowerFlag
  | stopSocket
  | raiseDone
  | returned
  deriving DecidableEq, Repr

/-- `running` is the client's flag and `done` the transport's. `up` tells whether the socket holds a connection, and
`opened` counts the connections; the program does not read it. -/
structure ConnectionLoop where
  run : RunAt := .raiseFlag
  stop : StopAt := .lowerFlag
  running : Bool := false
  done : Bool := false
  up : Bool := false
  reconnectAttempts : Int := 0
  opened : Nat := 0
  deriving DecidableEq, Repr

/-- What happens next: a statement of one of the threads, one of `run` that throws, or the loss of the connection. -/
inductive ThreadTurn where
  | run
  | throws
  | stop
  | lost
  deriving DecidableEq, Repr

namespace ConnectionLoop

variable (maxReconnects : Int)

/-- The socket closes what it holds, and a connection that closes is done. -/
def closeSocket (loop : ConnectionLoop) : ConnectionLoop := { loop with up := false, done := loop.done || loop.up }

def exhausted (loop : ConnectionLoop) : Bool :=
  decide (0 ≤ maxReconnects) && decide (maxReconnects ≤ loop.reconnectAttempts)

def runTurn (loop : ConnectionLoop) : ConnectionLoop :=
  match loop.run with
  | .raiseFlag => { loop with running := true, reconnectAttempts := 0, run := .testFlag }
  | .testFlag => { loop with run := if loop.running then .connect else .lowerFlag }
  | .connect => { loop.closeSocket with run := .clearDone }
  | .clearDone => { loop with done := false, run := .start }
  | .start => { loop with up := true, opened := loop.opened + 1, run := .awaitDone }
  | .awaitDone => if loop.done then { loop with run := .retestFlag } else loop
  | .retestFlag => { loop with run := if loop.running then .countReconnect else .lowerFlag }
  | .countReconnect =>
    if loop.exhausted maxReconnects then { loop with run := .lowerFlag }
    else { loop with reconnectAttempts := loop.reconnectAttempts + 1, run := .sleep }
  | .sleep => { loop with run := .testFlag }
  | .lowerFlag => { loop with running := false, run := .returned }
  | .returned => loop

/-- What the transport throws counts as a failed attempt. -/
def throwTurn (loop : ConnectionLoop) : ConnectionLoop :=
  match loop.run with
  | .connect | .start => { loop with run := .retestFlag }
  | _ => loop

def stopTurn (loop : ConnectionLoop) : ConnectionLoop :=
  match loop.stop with
  | .lowerFlag => { loop with running := false, stop := .stopSocket }
  | .stopSocket => { loop.closeSocket with stop := .raiseDone }
  | .raiseDone => { loop with done := true, stop := .returned }
  | .returned => loop

def take (loop : ConnectionLoop) : ThreadTurn → ConnectionLoop
  | .run => loop.runTurn maxReconnects
  | .throws => loop.throwTurn
  | .stop => loop.stopTurn
  | .lost => loop.closeSocket

/-- The two threads from before the first statement of either. -/
def after (turns : List ThreadTurn) : ConnectionLoop := turns.foldl (take maxReconnects) {}

end ConnectionLoop

end Kalshi
