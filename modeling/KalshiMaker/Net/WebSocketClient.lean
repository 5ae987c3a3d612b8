import KalshiMaker.Exchange.FillFeeds

/-! The websocket client: its subscriptions, the sequence check, and what it hands to its callbacks. -/
namespace Kalshi

open Effect

namespace Json

/-- `is_number_integer`, and the number. -/
def int? : Json → Option Int
  | .int value => some value
  | _ => none

/-- What a range-based `for` walks. -/
def elements : Json → List Json
  | .arr items => items
  | .obj fields => fields.map Prod.snd
  | .null => []
  | other => [other]

def index (json : Json) (position : Nat) : Except String Json :=
  match json with
  | .arr items => orThrow "array index out of range" items[position]?
  | _ => .error "cannot use at() with this type"

/-- `value(key, default)` where the default is an empty array. -/
def valueElements (json : Json) (key : String) : Except String (List Json) :=
  match json with
  | .obj _ => .ok ((json.find? key).elim [] elements)
  | _ => .error "cannot use value() with this type"

end Json

section

variable (F : Type) [Floating F]

def parseSnapshotLevel (level : Json) : Except String Level := do
  let priceCents ← parseDollarsToCents F (← (← level.index 0).getStr)
  let quantity ← parseFpCount F (← (← level.index 1).getStr)
  return { priceCents, quantity }

def parseSnapshot (msg : Json) : Except String Orderbook := do
  let ticker ← (← msg.at "market_ticker").getStr
  let yes ← (← msg.valueElements "yes_dollars_fp").mapM (parseSnapshotLevel F)
  let no ← (← msg.valueElements "no_dollars_fp").mapM (parseSnapshotLevel F)
  return { ticker, yes, no }

def parseDelta (msgBody : Json) : Except String (Ticker × Side × Int × Quantity) := do
  let ticker ← (← msgBody.at "market_ticker").getStr
  let side ← parseSide (← (← msgBody.at "side").getStr)
  let price ← parseDollarsToCents F (← (← msgBody.at "price_dollars").getStr)
  let qty ← parseFpCount F (← (← msgBody.at "delta_fp").getStr)
  return (ticker, side, price, qty)

def parseTrade (msgBody : Json) : Except String PublicTrade := do
  let tradeId ← (← msgBody.at "trade_id").getStr
  let marketTicker ← (← msgBody.at "market_ticker").getStr
  let yesPriceCents ← parseDollarsToCents F (← (← msgBody.at "yes_price_dollars").getStr)
  let quantity ← parseFpCount F (← (← msgBody.at "count_fp").getStr)
  let takerSide ← parseSide (← (← msgBody.at "taker_outcome_side").getStr)
  let tsMs ← (← msgBody.at "ts_ms").getInt
  return { tradeId, marketTicker, yesPriceCents, quantity, takerSide, timestamp := tsMs * nanosPerMilli }

end

/-- The callbacks, over the state they work on. One that is not set does nothing. -/
structure Callbacks (F σ : Type) where
  snapshot : Orderbook → Eff σ String Unit
  delta : Ticker × Side × Int × Quantity → Eff σ String Unit
  fill : Fill F → Eff σ String Unit
  trade : PublicTrade → Eff σ String Unit

/-- A malformed body is dropped, and so is what the callback throws. -/
def contained {σ α : Type} (callback : α → Eff σ String Unit) (parsed : Except String α) : Eff σ String Unit :=
  Eff.tryCatch (do callback (← Eff.ofExcept parsed)) fun _ => pure ()

/-- The type switch. All other message types are silently ignored. -/
def Callbacks.dispatch {F σ : Type} [Floating F] (callbacks : Callbacks F σ) (msgType : String) (msgBody : Json) :
    Eff σ String Unit :=
  match msgType with
  | "orderbook_snapshot" => contained callbacks.snapshot (parseSnapshot F msgBody)
  | "orderbook_delta" => contained callbacks.delta (parseDelta F msgBody)
  | "fill" => dispatchFill callbacks.fill msgBody
  | "trade" => contained callbacks.trade (parseTrade F msgBody)
  | _ => pure ()

/-- A subscribe command. -/
structure Subscribe where
  id : Int
  channels : List String
  marketTickers : List Ticker
  deriving DecidableEq, Repr

/-- How a frame that carries a subscription id fared: handed on, or held back for a gap. -/
structure Checked where
  msgType : String
  sid : Int
  seq : Option Int
  passed : Bool
  deriving DecidableEq, Repr

/-- `outbox` is what is under way to the exchange. `checked` is never read: it keeps the frames of the
connection that carried an id, oldest first. -/
structure WebSocketClient where
  subscribedTickers : List Ticker := []
  connected : Bool := false
  nextMsgId : Int := 1
  lastSeqBySid : Int → Option Int := fun _ => none
  closeRequested : Bool := false
  outbox : List Subscribe := []
  checked : List Checked := []

namespace WebSocketClient

def send (client : WebSocketClient) (channels : List String) (marketTickers : List Ticker) : WebSocketClient :=
  { client with
    nextMsgId := client.nextMsgId + 1
    outbox := client.outbox ++ [⟨client.nextMsgId, channels, marketTickers⟩] }

def sendSubscribe (client : WebSocketClient) (ticker : Ticker) : WebSocketClient :=
  client.send ["orderbook_delta", "trade"] [ticker]

def sendSubscribeFills (client : WebSocketClient) : WebSocketClient := client.send ["fill"] []

def subscribe (client : WebSocketClient) (ticker : Ticker) : WebSocketClient :=
  if ticker ∈ client.subscribedTickers then client
  else
    let listed := { client with subscribedTickers := client.subscribedTickers ++ [ticker] }
    if client.connected then listed.sendSubscribe ticker else listed

/-- A new connection, with nothing under way on it and no frame seen. -/
def handleConnect (client : WebSocketClient) : WebSocketClient :=
  let opened := { client with
    lastSeqBySid := fun _ => none
    closeRequested := false
    outbox := []
    checked := [] }
  client.subscribedTickers.foldl sendSubscribe { opened.sendSubscribeFills with connected := true }

/-- Whether a frame follows the last one of its subscription; a gap forgets every subscription's last number and
asks for the connection to be closed. -/
def sequenceIntact (client : WebSocketClient) (sid seq : Int) : Bool × WebSocketClient :=
  let noted := { client with lastSeqBySid := Function.update client.lastSeqBySid sid (some seq) }
  match client.lastSeqBySid sid with
  | none => (true, noted)
  | some last =>
    if seq = last + 1 then (true, noted)
    else (false, { client with lastSeqBySid := fun _ => none, closeRequested := true })

def keep (client : WebSocketClient) (entry : Checked) : WebSocketClient :=
  { client with checked := client.checked ++ [entry] }

/-- A frame without an integer id and an integer number goes through unchecked. -/
def frameIntact (client : WebSocketClient) (msgType : String) (frame : Json) : Bool × WebSocketClient :=
  match (frame.find? "sid").bind Json.int?, (frame.find? "seq").bind Json.int? with
  | some sid, some seq =>
    let intact := client.sequenceIntact sid seq
    (intact.1, intact.2.keep ⟨msgType, sid, some seq, intact.1⟩)
  | some sid, none => (true, client.keep ⟨msgType, sid, none, true⟩)
  | none, _ => (true, client)

/-- The type and the body of a frame that is neither an error nor a confirmation. -/
def messageBody (frame : Json) : Except String (Option (String × Json)) :=
  match frame.find? "type" with
  | none => .ok none
  | some type => do
    let msgType ← type.getStr
    match frame.find? "msg" with
    | none => return none
    | some msgBody => return if msgType = "error" ∨ msgType = "subscribed" then none else some (msgType, msgBody)

variable {F σ : Type} [Floating F]

/-- `none` is a text that does not parse. -/
def handleMessage (callbacks : Callbacks F σ) : Option Json → Eff (WebSocketClient × σ) String Unit
  | none => pure ()
  | some frame => do
    match ← Eff.ofExcept (messageBody frame) with
    | none => pure ()
    | some (msgType, msgBody) => do
      let s ← Eff.get
      let intact := s.1.frameIntact msgType frame
      Eff.modify fun s => (intact.2, s.2)
      if intact.1 then Eff.onPart Prod.snd (fun s rest => (s.1, rest)) (callbacks.dispatch msgType msgBody)
      else pure ()

end WebSocketClient

end Kalshi
