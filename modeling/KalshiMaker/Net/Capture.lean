import KalshiMaker.Lib.Lines
import KalshiMaker.Net.WebSocketClient

/-! Recording a feed, and feeding a recording back. -/
namespace Kalshi

open Effect

variable {F σ : Type} [Floating F]

/-- `CapturingWebSocket`: the file of what came in, beside what the wrapped handler works on. -/
structure Capturing (σ : Type) where
  out : String := ""
  capturedCount : Nat := 0
  inner : σ

/-- The handler that the inner socket is given: the frame goes to the file before it is handled. -/
def Capturing.onMessage (userHandler : String → Eff σ String Unit) (message : String) :
    Eff (Capturing σ) String Unit := do
  Eff.modify fun s => { s with out := s.out ++ message ++ "\n", capturedCount := s.capturedCount + 1 }
  Eff.onPart Capturing.inner (fun s inner => { s with inner }) (userHandler message)

/-- `std::getline` until the file ends. -/
def captureLines (out : String) : List String := (Lines.split '\n' out.toList).map String.ofList

/-- What comes to a recording session: a connection that opens, a call of `subscribe`, a frame, and whatever else
changes the state the callbacks work on. -/
inductive FeedTurn (σ : Type) where
  | connect
  | subscribe (ticker : Ticker)
  | message (text : String)
  | elsewhere (state : σ)

def FeedTurn.text? : FeedTurn σ → Option String
  | .message text => some text
  | _ => none

def FeedTurn.isConnect : FeedTurn σ → Bool
  | .connect => true
  | _ => false

variable (parse : String → Option Json)

namespace Capturing

def take (callbacks : Callbacks F σ) (s : Capturing (WebSocketClient × σ)) :
    FeedTurn σ → Capturing (WebSocketClient × σ)
  | .connect => { s with inner := (s.inner.1.handleConnect, s.inner.2) }
  | .subscribe ticker => { s with inner := (s.inner.1.subscribe ticker, s.inner.2) }
  | .message text => (onMessage (fun text => WebSocketClient.handleMessage callbacks (parse text)) text s).2
  | .elsewhere state => { s with inner := (s.inner.1, state) }

def recorded (callbacks : Callbacks F σ) (s : Capturing (WebSocketClient × σ)) (turns : List (FeedTurn σ)) :
    Capturing (WebSocketClient × σ) := turns.foldl (take parse callbacks) s

end Capturing

/-- The lines that a replay mode feeds to its client: those that are not empty. -/
def replayLines (out : String) : List String := (captureLines out).filter fun line => line ≠ ""

/-- The loop of the replay modes. -/
def replayCapture (callbacks : Callbacks F σ) (out : String) : Eff (WebSocketClient × σ) String Unit :=
  Eff.forEach (replayLines out) fun line => WebSocketClient.handleMessage callbacks (parse line)

namespace WebSocketClient

/-- What a text comes to: the message that is handed on, and the client after it. -/
def takeIn (client : WebSocketClient) : Option Json → Except String (Option (String × Json) × WebSocketClient)
  | none => .ok (none, client)
  | some frame =>
    match messageBody frame with
    | .error what => .error what
    | .ok none => .ok (none, client)
    | .ok (some message) =>
      let intact := client.frameIntact message.1 frame
      .ok (if intact.1 then some message else none, intact.2)

theorem handleMessage_takeIn (callbacks : Callbacks F σ) (text : Option Json) (s : WebSocketClient × σ) :
    handleMessage callbacks text s =
      match s.1.takeIn text with
      | .error what => (.error (.exception what), s)
      | .ok (none, client) => (.ok (), (client, s.2))
      | .ok (some message, client) =>
        ((callbacks.dispatch message.1 message.2 s.2).1,
          (client, (callbacks.dispatch message.1 message.2 s.2).2)) := by
  cases text with
  | none => rfl
  | some frame =>
    unfold handleMessage takeIn
    simp only [Eff.bind_apply]
    cases messageBody frame with
    | error what => rfl
    | ok body =>
      cases body with
      | none => rfl
      | some message =>
        obtain ⟨msgType, msgBody⟩ := message
        simp only [Eff.ofExcept_ok, Eff.andThen_ok, Eff.bind_apply, Eff.get_apply, Eff.modify_apply]
        cases (s.1.frameIntact msgType frame).1 <;> rfl

/-- What the client hands to its callbacks over a session. A text that throws ends it. -/
def handedOn (client : WebSocketClient) : List (FeedTurn σ) → List (String × Json)
  | [] => []
  | .connect :: turns => client.handleConnect.handedOn turns
  | .subscribe ticker :: turns => (client.subscribe ticker).handedOn turns
  | .message text :: turns =>
    match client.takeIn (parse text) with
    | .error _ => []
    | .ok (message, client) => message.toList ++ client.handedOn turns
  | .elsewhere _ :: turns => client.handedOn turns

end WebSocketClient

end Kalshi
