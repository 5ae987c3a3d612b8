import KalshiMaker.Exchange.Listings
import KalshiMaker.Lib.Search

/-! The requests of the REST client as they reach the wire: what is signed, and what is asked for where. -/
namespace Kalshi

open Search

/-! ### Addresses -/

/-- The path of a URL: what follows the host, if anything does. -/
def extractPathPrefix (url : String) : String :=
  match find "://".toList url.toList 0 with
  | none => ""
  | some schemeEnd =>
    match find ['/'] url.toList (schemeEnd + 3) with
    | none => ""
    | some pathStart => String.ofList (url.toList.drop pathStart)

/-- Scheme and host, and the path with its query. -/
structure SplitUrl where
  base : String
  path : String
  deriving DecidableEq, Repr

def splitUrl (url : String) : Except String SplitUrl :=
  match find "://".toList url.toList 0 with
  | none => .error ("Invalid URL (no scheme): " ++ url)
  | some schemeEnd =>
    match find ['/'] url.toList (schemeEnd + 3) with
    | none => .ok ⟨url, "/"⟩
    | some pathStart => .ok ⟨String.ofList (url.toList.take pathStart), String.ofList (url.toList.drop pathStart)⟩

/-! ### Requests -/

/-- Each function of the client that asks the exchange, with what goes into the address. -/
inductive RestRequest where
  | getMarkets (eventTicker cursor : String)
  | getPositions (cursor : String)
  | getIncentivePrograms (cursor : String)
  | getOrderbook (ticker : Ticker)
  | placeOrder
  | cancelOrder (orderId : OrderId)
  | amendOrder (orderId : OrderId)
  | decreaseOrder (orderId : OrderId)
  | getOpenOrders
  | getRecentTrades (ticker : Ticker) (limit : Int)
  | getCandlesticks (ticker : Ticker) (startTsSeconds endTsSeconds : Int)
  | getFills (minTsSeconds : Int) (cursor : String)
  deriving DecidableEq, Repr

namespace RestRequest

def method : RestRequest → String
  | placeOrder | amendOrder _ | decreaseOrder _ => "POST"
  | cancelOrder _ => "DELETE"
  | _ => "GET"

/-- The series of a market: its ticker up to the first dash. -/
def seriesOf (ticker : Ticker) : String := String.ofList (ticker.toList.takeWhile fun c => c != '-')

def candlesticksEndpoint (ticker : Ticker) : String :=
  "/series/" ++ seriesOf ticker ++ "/markets/" ++ ticker ++ "/candlesticks"

/-- What each function signs. -/
def path (pathPrefix : String) : RestRequest → String
  | getMarkets _ _ => pathPrefix ++ "/markets"
  | getPositions _ => pathPrefix ++ "/portfolio/positions"
  | getIncentivePrograms _ => pathPrefix ++ "/incentive_programs"
  | getOrderbook ticker => pathPrefix ++ "/markets/" ++ ticker ++ "/orderbook"
  | placeOrder => pathPrefix ++ "/portfolio/events/orders"
  | cancelOrder orderId => pathPrefix ++ "/portfolio/events/orders/" ++ orderId
  | amendOrder orderId => pathPrefix ++ "/portfolio/events/orders/" ++ orderId ++ "/amend"
  | decreaseOrder orderId => pathPrefix ++ "/portfolio/events/orders/" ++ orderId ++ "/decrease"
  | getOpenOrders => pathPrefix ++ "/portfolio/orders"
  | getRecentTrades _ _ => pathPrefix ++ "/markets/trades"
  | getCandlesticks ticker _ _ => pathPrefix ++ candlesticksEndpoint ticker
  | getFills _ _ => pathPrefix ++ "/portfolio/fills"

def withCursor (joint cursor : String) : String := if cursor = "" then "" else joint ++ cursor

/-- What each function asks for, written a second time beside the path that it signs. -/
def url (baseUrl : String) : RestRequest → String
  | getMarkets eventTicker cursor =>
    let baseQuery := "limit=1000&status=open" ++ if eventTicker = "" then "" else "&event_ticker=" ++ eventTicker
    baseUrl ++ "/markets?" ++ baseQuery ++ withCursor "&cursor=" cursor
  | getPositions cursor => baseUrl ++ "/portfolio/positions" ++ withCursor "?cursor=" cursor
  | getIncentivePrograms cursor =>
    let baseQuery := "status=active&type=liquidity&limit=1000"
    baseUrl ++ "/incentive_programs?" ++ baseQuery ++ withCursor "&cursor=" cursor
  | getOrderbook ticker => baseUrl ++ "/markets/" ++ ticker ++ "/orderbook"
  | placeOrder => baseUrl ++ "/portfolio/events/orders"
  | cancelOrder orderId => baseUrl ++ "/portfolio/events/orders/" ++ orderId
  | amendOrder orderId => baseUrl ++ "/portfolio/events/orders/" ++ orderId ++ "/amend"
  | decreaseOrder orderId => baseUrl ++ "/portfolio/events/orders/" ++ orderId ++ "/decrease"
  | getOpenOrders => baseUrl ++ "/portfolio/orders?status=resting"
  | getRecentTrades ticker limit => baseUrl ++ "/markets/trades?limit=" ++ toString limit ++ "&ticker=" ++ ticker
  | getCandlesticks ticker startTsSeconds endTsSeconds =>
    baseUrl ++ candlesticksEndpoint ticker ++ "?start_ts=" ++ toString startTsSeconds ++ "&end_ts=" ++
      toString endTsSeconds ++ "&period_interval=1"
  | getFills minTsSeconds cursor =>
    let baseQuery := "limit=100" ++ if 0 < minTsSeconds then "&min_ts=" ++ toString minTsSeconds else ""
    baseUrl ++ "/portfolio/fills?" ++ baseQuery ++ withCursor "&cursor=" cursor

end RestRequest

/-! ### Signing -/

/-- The signature itself, Base64 and all, is made elsewhere, under the private key. -/
structure Auth where
  apiKey : String
  rsaPssSha256Sign : String → Except String String

def Auth.sign (auth : Auth) (method path : String) (timestampMs : Int) : Except String (List (String × String)) := do
  let tsStr := toString timestampMs
  let signature ← auth.rsaPssSha256Sign (tsStr ++ method ++ path)
  return [("Kalshi-Access-Key", auth.apiKey), ("Kalshi-Access-Timestamp", tsStr),
    ("Kalshi-Access-Signature", signature)]

/-- What the HTTP library is told to send. -/
structure WireRequest where
  method : String
  base : String
  target : String
  headers : List (String × String)
  deriving DecidableEq, Repr

theorem Listing.pageUrl_eq {α : Type} (listing : Listing α) (cursor : String) :
    listing.pageUrl cursor = listing.url ++ RestRequest.withCursor listing.joint cursor := by
  unfold Listing.pageUrl RestRequest.withCursor
  split
  next => rw [String.append_empty]
  next => rw [String.append_assoc]

namespace RestClient

def pathPrefix (rest : RestClient) : String := extractPathPrefix rest.baseUrl

/-- A request is signed first, and its address taken apart by the transport. -/
def send (rest : RestClient) (auth : Auth) (timestampMs : Int) (request : RestRequest) :
    Except String WireRequest := do
  let headers ← auth.sign request.method (request.path rest.pathPrefix) timestampMs
  let split ← splitUrl (request.url rest.baseUrl)
  let body := if request.method = "POST" then [("Content-Type", "application/json")] else []
  return { method := request.method, base := split.base, target := split.path, headers := body ++ headers }

/-- The addresses that the rest of the model asks for. -/
theorem urls (rest : RestClient) (F : Type) [Floating F] :
    (∀ eventTicker cursor,
      (rest.markets F eventTicker).pageUrl cursor = RestRequest.url rest.baseUrl (.getMarkets eventTicker cursor)) ∧
    (∀ cursor, (rest.positions F).pageUrl cursor = RestRequest.url rest.baseUrl (.getPositions cursor)) ∧
    (∀ cursor,
      (rest.incentivePrograms F).pageUrl cursor = RestRequest.url rest.baseUrl (.getIncentivePrograms cursor)) ∧
    (∀ minTsSeconds cursor,
      (rest.fills F minTsSeconds).pageUrl cursor = RestRequest.url rest.baseUrl (.getFills minTsSeconds cursor)) ∧
    rest.openOrdersUrl = RestRequest.url rest.baseUrl .getOpenOrders ∧
    rest.ordersUrl = RestRequest.url rest.baseUrl .placeOrder ∧
    (∀ orderId, rest.ordersUrl ++ "/" ++ orderId = RestRequest.url rest.baseUrl (.cancelOrder orderId)) ∧
    ∀ orderId, rest.ordersUrl ++ "/" ++ orderId ++ "/amend" = RestRequest.url rest.baseUrl (.amendOrder orderId) := by
  have markets : "/markets?limit=1000&status=open" = "/markets?" ++ "limit=1000&status=open" := by decide
  have programs : "/incentive_programs?status=active&type=liquidity&limit=1000" =
      "/incentive_programs?" ++ "status=active&type=liquidity&limit=1000" := by decide
  have fills : "/portfolio/fills?limit=100" = "/portfolio/fills?" ++ "limit=100" := by decide
  have orders : "/portfolio/events/orders/" = "/portfolio/events/orders" ++ "/" := by decide
  refine ⟨fun eventTicker cursor => ?_, fun cursor => ?_, fun cursor => ?_, fun minTsSeconds cursor => ?_, rfl, rfl,
    fun orderId => ?_, fun orderId => ?_⟩
  · rw [Listing.pageUrl_eq]
    change rest.baseUrl ++ _ ++ _ ++ _ = rest.baseUrl ++ "/markets?" ++ (_ ++ _) ++ _
    rw [markets]
    simp only [String.append_assoc]
    rfl
  · rw [Listing.pageUrl_eq]
    rfl
  · rw [Listing.pageUrl_eq]
    change rest.baseUrl ++ _ ++ _ = rest.baseUrl ++ "/incentive_programs?" ++ _ ++ _
    rw [programs]
    simp only [String.append_assoc]
    rfl
  · rw [Listing.pageUrl_eq]
    change rest.baseUrl ++ _ ++ _ ++ _ = rest.baseUrl ++ "/portfolio/fills?" ++ (_ ++ _) ++ _
    rw [fills]
    simp only [String.append_assoc]
    rfl
  · change rest.baseUrl ++ _ ++ _ ++ _ = rest.baseUrl ++ _ ++ _
    rw [orders]
    simp only [String.append_assoc]
  · change rest.baseUrl ++ _ ++ _ ++ _ ++ _ = rest.baseUrl ++ _ ++ _ ++ _
    rw [orders]
    simp only [String.append_assoc]

end RestClient

end Kalshi
