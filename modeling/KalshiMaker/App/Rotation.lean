import KalshiMaker.Engine.BookLevels
import KalshiMaker.Engine.TradingSession
import KalshiMaker.Net.WebSocketClient

/-! Market rotation on one connection: the exchange's books, the feed under way, the session, and the adoption that
`rotate_markets` has in hand. -/
namespace Kalshi

open Effect

variable {F X : Type} [Floating F]

/-- The exchange's book of a market. -/
structure MarketBook (ticker : Ticker) where
  book : LocalOrderbook
  sorted : book.Sorted
  named : book.state.ticker = ticker

namespace MarketBook

variable {ticker : Ticker}

/-- The book after a delta of the exchange. -/
def shift (market : MarketBook ticker) (side : Side) (priceCents : Int) (qty : Quantity) : MarketBook ticker where
  book := market.book.applyDelta side priceCents qty
  sorted := LocalOrderbook.applyDelta_sorted market.sorted side priceCents qty
  named := (LocalOrderbook.ticker_applyDelta market.book side priceCents qty).trans market.named

/-- What a snapshot or `get_orderbook` reads at this instant. -/
def read (market : MarketBook ticker) : Orderbook := market.book.state

/-- Taking over a read gives the book itself. -/
theorem applySnapshot_read (market : MarketBook ticker) : LocalOrderbook.applySnapshot market.read = market.book := by
  apply LocalOrderbook.ext_levels
  · rfl
  · intro side
    cases side with
    | yes => exact List.Pairwise.insertionSort_eq (market.sorted .yes)
    | no => exact List.Pairwise.insertionSort_eq (market.sorted .no)

end MarketBook

inductive BookMessage where
  | snapshot (snapshot : Orderbook)
  | delta (ticker : Ticker) (side : Side) (priceCents : Int) (qty : Quantity)
  deriving DecidableEq, Repr

/-- How far `rotate_markets` is with a market of `to_add`. -/
inductive Adoption where
  | idle
  | fetched (snapshot : Orderbook)
  | added (ticker : Ticker)
  deriving DecidableEq, Repr

/-- `flight` is what is under way on the feed, and `streams` says for which markets the exchange sends deltas. -/
structure Rotation (F X : Type) [Floating F] where
  desk : Desk F X
  client : WebSocketClient
  market : (ticker : Ticker) → MarketBook ticker
  streams : Ticker → Bool := fun _ => false
  flight : List BookMessage := []
  adoption : Adoption := .idle

/-- One step of the exchange, of the feed, of `rotate_markets`, or of the rest of the program. -/
inductive Happening (F X : Type) [Floating F] where
  | moved (ticker : Ticker) (side : Side) (priceCents : Int) (qty : Quantity)
  | accepted
  | delivered
  | removed (ticker : Ticker)
  | fetched (ticker : Ticker)
  | added
  | subscribed
  | elsewhere (desk : Desk F X)

def Subscribe.books (command : Subscribe) : List Ticker :=
  if "orderbook_delta" ∈ command.channels then command.marketTickers else []

namespace Rotation

variable (venue : Venue X)

def deliver (message : BookMessage) : Eff (Desk F X) String Unit :=
  match message with
  | .snapshot snapshot => TradingSession.onSnapshot venue snapshot
  | .delta ticker side priceCents qty => TradingSession.onDelta venue ticker side priceCents qty

/-- The exchange takes up the subscription of a market: a snapshot now, and every later delta. -/
def stream (m : Rotation F X) (ticker : Ticker) : Rotation F X :=
  { m with
    streams := Function.update m.streams ticker true
    flight := m.flight ++ [.snapshot (m.market ticker).read] }

def accept (m : Rotation F X) : Rotation F X :=
  match m.client.outbox with
  | [] => m
  | command :: outbox => command.books.foldl stream { m with client := { m.client with outbox } }

def receive (m : Rotation F X) : Rotation F X :=
  match m.flight with
  | [] => m
  | message :: flight => { m with desk := (deliver venue message m.desk).2, flight }

def finish (m : Rotation F X) : Rotation F X :=
  match m.adoption with
  | .added ticker => { m with client := m.client.subscribe ticker, adoption := .idle }
  | _ => m

/-- A step that is not enabled does nothing. `rotate_markets` removes before it adds, fetches a market that is not
tracked, and adds and subscribes it before it fetches the next. -/
def step (m : Rotation F X) : Happening F X → Rotation F X
  | .moved ticker side priceCents qty =>
    { m with
      market := Function.update m.market ticker ((m.market ticker).shift side priceCents qty)
      flight := m.flight ++ if m.streams ticker then [.delta ticker side priceCents qty] else [] }
  | .accepted => m.accept
  | .delivered => m.receive venue
  | .removed ticker =>
    if m.adoption = .idle then { m with desk := (TradingSession.removeMarketIfIdle ticker m.desk).2 } else m
  | .fetched ticker =>
    if m.adoption = .idle ∧ ticker ∉ m.desk.session.tickers then
      { m with adoption := .fetched (m.market ticker).read }
    else m
  | .added =>
    match m.adoption with
    | .fetched snapshot =>
      { m with desk := (TradingSession.addMarket venue snapshot m.desk).2, adoption := .added snapshot.ticker }
    | _ => m
  | .subscribed => m.finish
  -- whatever else runs keeps the tracked markets and the books
  | .elsewhere desk =>
    { m with desk := { desk with session := { desk.session with
        tickers := m.desk.session.tickers
        obMap := m.desk.session.obMap } } }

/-- The session connected with its markets listed, before anything has come over the feed. -/
def start (desk : Desk F X) (market : (ticker : Ticker) → MarketBook ticker) : Rotation F X where
  desk
  client := WebSocketClient.handleConnect { subscribedTickers := desk.session.tickers }
  market

/-- Everything under way has arrived: the subscribe call in hand, the commands, and then the messages. -/
def settled (m : Rotation F X) : Rotation F X :=
  let asked := m.finish
  let answered := asked.client.outbox.foldl (fun m _ => m.accept) asked
  answered.flight.foldl (fun m _ => m.receive venue) answered

/-- The session's book of every tracked market is the exchange's. -/
def Synced (m : Rotation F X) : Prop :=
  ∀ ticker ∈ m.desk.session.tickers, m.desk.session.book ticker = (m.market ticker).book

end Rotation

end Kalshi
