import KalshiMaker.Engine.Orderbook
import KalshiMaker.Net.WebSocketClient

/-! Books as the exchange sends them, priced in texts, and what the two parsers make of them. -/
namespace Kalshi

open Effect

section

variable (F : Type) [Floating F]

def parseOrderbookLevels (levels : Json) : Except String (List Level) :=
  levels.elements.mapM (parseSnapshotLevel F)

/-- The V2 API wraps the orderbook in "orderbook_fp" with string-valued arrays. -/
def parseOrderbook (ticker : Ticker) (resp : HttpResponse) : Except String Orderbook := do
  checkResponse resp
  let orderbook ← (← resp.parse).at "orderbook_fp"
  let yes ← parseOrderbookLevels F (← orderbook.at "yes_dollars")
  let no ← parseOrderbookLevels F (← orderbook.at "no_dollars")
  return { ticker, yes, no }

def RestClient.getOrderbook {X : Type} (rest : RestClient) (host : Host X) (ticker : Ticker) :
    Eff X String Orderbook := do
  let resp ← Host.request (host.get (rest.baseUrl ++ "/markets/" ++ ticker ++ "/orderbook"))
  Eff.ofExcept (parseOrderbook F ticker resp)

/-- A price as the exchange writes it, with the cents it rounds to. -/
structure WirePrice where
  text : String
  cents : Int
  reads : parseDollarsToCents F text = .ok cents

/-- A contract count as the exchange writes it. -/
structure WireCount where
  text : String
  quantity : Quantity
  reads : parseFpCount F text = .ok quantity

structure WireLevel where
  price : WirePrice F
  count : WireCount F

end

section

variable {F : Type} [Floating F]

theorem WirePrice.cents_of_text {price other : WirePrice F} (same : price.text = other.text) :
    price.cents = other.cents := by
  have reads := price.reads
  rw [same, other.reads] at reads
  exact (Except.ok.inj reads).symm

namespace WireLevel

def json (level : WireLevel F) : Json := .arr [.str level.price.text, .str level.count.text]

/-- The level with its price rounded. -/
def rounded (level : WireLevel F) : Level := ⟨level.price.cents, level.count.quantity⟩

theorem parse_json (level : WireLevel F) : parseSnapshotLevel F level.json = .ok level.rounded := by
  simp [parseSnapshotLevel, json, Json.index, orThrow, Json.getStr, level.price.reads, level.count.reads, bind,
    Except.bind, pure, Except.pure, rounded]

theorem parse_jsons (levels : List (WireLevel F)) :
    (levels.map json).mapM (parseSnapshotLevel F) = .ok (levels.map rounded) := by
  induction levels with
  | nil => rfl
  | cons level levels ih =>
    rw [List.map_cons, List.mapM_cons, parse_json, ih]
    rfl

end WireLevel

/-- The two sides of a market in wire levels. -/
abbrev WireSides (F : Type) [Floating F] := Side → List (WireLevel F)

/-- The book with every price rounded. -/
def WireSides.rounded (sides : WireSides F) (ticker : Ticker) : Orderbook where
  ticker
  yes := (sides .yes).map WireLevel.rounded
  no := (sides .no).map WireLevel.rounded

/-- A snapshot message; a side without levels may be left out. -/
structure WireSides.SentAs (sides : WireSides F) (ticker : Ticker) (msg : Json) : Prop where
  isObject : ∃ fields, msg = .obj fields
  market : msg.find? "market_ticker" = some (.str ticker)
  yes : (msg.find? "yes_dollars_fp").elim [] Json.elements = (sides .yes).map WireLevel.json
  no : (msg.find? "no_dollars_fp").elim [] Json.elements = (sides .no).map WireLevel.json

/-- A response to `get_orderbook`. -/
structure WireSides.AnsweredAs (sides : WireSides F) (resp : HttpResponse) : Prop where
  accepted : checkResponse resp = .ok ()
  wrapped : ∃ json orderbook, resp.json = some json ∧ json.find? "orderbook_fp" = some orderbook ∧
    orderbook.find? "yes_dollars" = some (.arr ((sides .yes).map WireLevel.json)) ∧
    orderbook.find? "no_dollars" = some (.arr ((sides .no).map WireLevel.json))

theorem WireSides.SentAs.parse {sides : WireSides F} {ticker : Ticker} {msg : Json} (sent : sides.SentAs ticker msg) :
    parseSnapshot F msg = .ok (sides.rounded ticker) := by
  obtain ⟨fields, rfl⟩ := sent.isObject
  have market : (Json.obj fields).at "market_ticker" = .ok (.str ticker) := by
    unfold Json.at
    rw [sent.market]
  have yes : (Json.obj fields).valueElements "yes_dollars_fp" = .ok ((sides .yes).map WireLevel.json) :=
    congrArg Except.ok sent.yes
  have no : (Json.obj fields).valueElements "no_dollars_fp" = .ok ((sides .no).map WireLevel.json) :=
    congrArg Except.ok sent.no
  unfold parseSnapshot
  rw [market, yes, no]
  change (do
    let yes ← ((sides .yes).map WireLevel.json).mapM (parseSnapshotLevel F)
    let no ← ((sides .no).map WireLevel.json).mapM (parseSnapshotLevel F)
    pure ({ ticker, yes, no } : Orderbook)) = _
  rw [WireLevel.parse_jsons, WireLevel.parse_jsons]
  rfl

theorem WireSides.AnsweredAs.parse {sides : WireSides F} {resp : HttpResponse} (answered : sides.AnsweredAs resp)
    (ticker : Ticker) : parseOrderbook F ticker resp = .ok (sides.rounded ticker) := by
  obtain ⟨accepted, json, orderbook, parsed, wrapped, yes, no⟩ := answered
  have body : resp.parse = .ok json := by
    unfold HttpResponse.parse
    rw [parsed]
  have field : ∀ {json value : Json} {key : String}, json.find? key = some value → json.at key = .ok value := by
    intro json value key found
    unfold Json.at
    rw [found]
  unfold parseOrderbook
  rw [accepted, body]
  change (do
    let orderbook ← json.at "orderbook_fp"
    let yes ← parseOrderbookLevels F (← orderbook.at "yes_dollars")
    let no ← parseOrderbookLevels F (← orderbook.at "no_dollars")
    pure ({ ticker, yes, no } : Orderbook)) = _
  -- each field is there, so the reads succeed in turn
  rw [field wrapped]
  change (do
    let yes ← parseOrderbookLevels F (← orderbook.at "yes_dollars")
    let no ← parseOrderbookLevels F (← orderbook.at "no_dollars")
    pure ({ ticker, yes, no } : Orderbook)) = _
  rw [field yes, field no]
  change (do
    let yes ← ((sides .yes).map WireLevel.json).mapM (parseSnapshotLevel F)
    let no ← ((sides .no).map WireLevel.json).mapM (parseSnapshotLevel F)
    pure ({ ticker, yes, no } : Orderbook)) = _
  rw [WireLevel.parse_jsons, WireLevel.parse_jsons]
  rfl

end

/-! ### Deltas -/

/-- A signed increment of one wire level, and the message that carries it. -/
structure WireDelta (F : Type) [Floating F] where
  ticker : Ticker
  side : Side
  price : WirePrice F
  change : WireCount F
  msg : Json
  market : msg.find? "market_ticker" = some (.str ticker)
  onSide : msg.find? "side" = some (.str (if side = .yes then "yes" else "no"))
  atPrice : msg.find? "price_dollars" = some (.str price.text)
  byCount : msg.find? "delta_fp" = some (.str change.text)

section

variable {F : Type} [Floating F]

theorem WireDelta.parse (delta : WireDelta F) :
    parseDelta F delta.msg = .ok (delta.ticker, delta.side, delta.price.cents, delta.change.quantity) := by
  have side : parseSide (if delta.side = .yes then "yes" else "no") = .ok delta.side := by
    cases delta.side <;> rfl
  simp [parseDelta, Json.at, delta.market, delta.onSide, delta.atPrice, delta.byCount, Json.getStr, bind, Except.bind,
    pure, Except.pure, side, delta.price.reads, delta.change.reads]

variable (F) in
/-- The book after a delta message; one that does not parse is dropped. -/
def LocalOrderbook.receive (book : LocalOrderbook) (msg : Json) : LocalOrderbook :=
  match parseDelta F msg with
  | .ok (_, side, price, qty) => book.applyDelta side price qty
  | .error _ => book

theorem LocalOrderbook.receive_delta (book : LocalOrderbook) (delta : WireDelta F) :
    book.receive F delta.msg = book.applyDelta delta.side delta.price.cents delta.change.quantity := by
  unfold receive
  rw [delta.parse]

end

end Kalshi
