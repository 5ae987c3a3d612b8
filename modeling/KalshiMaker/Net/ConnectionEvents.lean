import KalshiMaker.Net.WebSocketClient

/-! The websocket client between its threads: callers of `subscribe`, and the transport's thread with its connect and
disconnect handlers. What runs under the mutex is one turn. -/
namespace Kalshi

namespace WebSocketClient

/-- The connect handler up to the mutex. -/
def openConnection (client : WebSocketClient) : WebSocketClient :=
  sendSubscribeFills { client with
    lastSeqBySid := fun _ => none
    closeRequested := false
    outbox := []
    checked := [] }

/-- The connect handler under the mutex. -/
def announceAll (client : WebSocketClient) : WebSocketClient :=
  client.subscribedTickers.foldl sendSubscribe { client with connected := true }

def handleDisconnect (client : WebSocketClient) : WebSocketClient := { client with connected := false }

end WebSocketClient

/-- How far the transport's thread is with a connection: there is none, its connect handler is on the way to the mutex,
or has returned. -/
inductive ConnectionStage where
  | down
  | opening
  | up
  deriving DecidableEq, Repr

/-- `live` tells whether the connection still stands; the client does not read it. -/
structure Connection where
  client : WebSocketClient := {}
  stage : ConnectionStage := .down
  live : Bool := false

inductive ConnectionTurn where
  | subscribe (ticker : Ticker)
  | opened
  | announced
  | lost
  | disconnected
  deriving DecidableEq, Repr

namespace Connection

/-- A turn that is not due does nothing: a connection opens only after the disconnect handler of the last one, and a
handler waits for the one before it to return. -/
def take (connection : Connection) : ConnectionTurn → Connection
  | .subscribe ticker => { connection with client := connection.client.subscribe ticker }
  | .opened =>
    if connection.stage = .down then { client := connection.client.openConnection, stage := .opening, live := true }
    else connection
  | .announced =>
    if connection.stage = .opening then { connection with client := connection.client.announceAll, stage := .up }
    else connection
  | .lost => { connection with live := false }
  | .disconnected =>
    if connection.stage = .up ∧ connection.live = false then
      { connection with client := connection.client.handleDisconnect, stage := .down }
    else connection

def after (turns : List ConnectionTurn) : Connection := turns.foldl take {}

end Connection

end Kalshi
