import KalshiMaker.Exchange.FillFeeds
import KalshiMaker.Net.WebSocketClient

/-! The lists that the REST client reads: markets, positions, incentive programs, fills and open orders. -/
namespace Kalshi

open Effect

structure Market (F : Type) where
  ticker : Ticker
  title : String
  category : String
  status : String
  feeRateBps : Int := 0
  yesBidCents : Int := 0
  yesAskCents : Int := 0
  volume24h : F
  closeTime : TimePoint
  deriving DecidableEq

/-- What the exchange says of our position in a market, all of it. -/
structure PositionRecord (F : Type) where
  ticker : Ticker
  position : Quantity := {}
  realizedPnlCents : F
  marketExposureCents : F
  restingOrdersCount : Int := 0
  deriving DecidableEq

structure IncentiveProgram where
  marketTicker : Ticker := ""
  periodRewardCenticents : Int := 0
  targetSize : Quantity := {}
  discountFactorBps : Int := 0
  deriving DecidableEq, Repr

def Json.valueInt (json : Json) (key : String) (default : Int) : Except String Int :=
  match json with
  | .obj _ =>
    match json.find? key with
    | some value => value.getInt
    | none => .ok default
  | _ => .error "cannot use value() with this type"

/-! ### Timestamps -/

/-- A number as `strptime` reads one: blanks, then at most `count` digits, and no digit more than keeps it
at most `high`. -/
def readDigits (high : Nat) : Nat → Nat → List Char → Nat × List Char
  | count + 1, value, c :: rest =>
    if c.isDigit ∧ value * 10 ≤ high then readDigits high count (value * 10 + (c.toNat - '0'.toNat)) rest
    else (value, c :: rest)
  | _, value, rest => (value, rest)

def readNumber (low high count : Nat) (text : List Char) : Option (Nat × List Char) :=
  match text.dropWhile (· == ' ') with
  | c :: rest =>
    if c.isDigit then
      let (value, rest) := readDigits high (count - 1) (c.toNat - '0'.toNat) rest
      if low ≤ value ∧ value ≤ high then some (value, rest) else none
    else none
  | [] => none

def readMark (mark : Char) : List Char → Option (List Char)
  | c :: rest => if c = mark then some rest else none
  | [] => none

/-- Days from the first of January 1970 to a day of the Gregorian calendar, as `timegm` counts them. -/
def daysFromCivil (year month day : Int) : Int :=
  let shifted := if month ≤ 2 then year - 1 else year
  let era := shifted.fdiv 400
  let yearOfEra := shifted - era * 400
  let dayOfYear := (153 * (if month ≤ 2 then month + 9 else month - 3) + 2) / 5 + day - 1
  era * 146097 + (yearOfEra * 365 + yearOfEra / 4 - yearOfEra / 100 + dayOfYear) - 719468

/-- What follows the seconds is ignored. -/
def parseIso8601 (time : String) : Except String TimePoint :=
  orThrow ("Failed to parse timestamp: " ++ time) do
    let (year, rest) ← readNumber 0 9999 4 time.toList
    let (month, rest) ← readNumber 1 12 2 (← readMark '-' rest)
    let (day, rest) ← readNumber 1 31 2 (← readMark '-' rest)
    let (hour, rest) ← readNumber 0 23 2 (← readMark 'T' rest)
    let (minute, rest) ← readNumber 0 59 2 (← readMark ':' rest)
    let (second, _) ← readNumber 0 61 2 (← readMark ':' rest)
    return (((daysFromCivil year month day * 24 + hour) * 60 + minute) * 60 + second) * nanosPerSecond

def parseOrderStatus : String → Except String OrderStatus
  | "resting" => .ok .open
  | "executed" => .ok .filled
  | "canceled" | "cancelled" => .ok .cancelled
  | other => .error ("Unknown order status: " ++ other)

def parseOrderType : String → Except String OrderType
  | "limit" => .ok .limit
  | "market" => .ok .market
  | other => .error ("Unknown order type: " ++ other)

section

variable (F : Type) [Floating F]

def stodOrThrow (text : String) : Except String F := orThrow "stod" (Floating.stod text : Option F)

/-- Fractions of a cent are kept. -/
def parseDollarsToCentsD (dollars : String) : Except String F := do
  return (← stodOrThrow F dollars) * ((100 : Int) : F)

def parseMarket (json : Json) : Except String (Market F) := do
  let yesBidCents ← parseDollarsToCents F (← json.valueStr "yes_bid_dollars" "0.0000")
  let yesAskCents ← parseDollarsToCents F (← json.valueStr "yes_ask_dollars" "0.0000")
  let ticker ← (← json.at "ticker").getStr
  let title ← json.valueStr "title" ""
  let category ← json.valueStr "category" ""
  let status ← json.valueStr "status" ""
  let feeRateBps ← json.valueInt "fee_rate_bps" 0
  let volume24h ←
    match json.find? "volume_24h_fp" with
    | some volume => do stodOrThrow F (← volume.getStr)
    | none => pure 0
  let closeTime ← parseIso8601 (← (← json.at "close_time").getStr)
  return { ticker, title, category, status, feeRateBps, yesBidCents, yesAskCents, volume24h, closeTime }

def parsePosition (json : Json) : Except String (PositionRecord F) := do
  let ticker ← (← json.at "ticker").getStr
  let position ← parseFpCount F (← json.valueStr "position_fp" "0.00")
  let realizedPnlCents ← parseDollarsToCentsD F (← json.valueStr "realized_pnl_dollars" "0")
  let marketExposureCents ← parseDollarsToCentsD F (← json.valueStr "market_exposure_dollars" "0")
  let restingOrdersCount ← json.valueInt "resting_orders_count" 0
  return { ticker, position, realizedPnlCents, marketExposureCents, restingOrdersCount }

/-- The three figures are taken where they have their type, and are nothing else. -/
def parseIncentiveProgram (json : Json) : Except String IncentiveProgram := do
  let marketTicker ← json.valueStr "market_ticker" ""
  let number (key : String) : Int :=
    match json.find? key with
    | some value => if value.isNumber then value.getInt.toOption.getD 0 else 0
    | none => 0
  let targetSize ←
    match json.find? "target_size_fp" with
    | some (.str target) => parseFpCount F target
    | _ => pure {}
  return {
    marketTicker
    periodRewardCenticents := number "period_reward"
    targetSize
    discountFactorBps := number "discount_factor_bps" }

def parseOrder (json : Json) : Except String Order := do
  let side ← parseSide (← (← json.at "outcome_side").getStr)
  let priceCents ← parseDollarsToCents F
    (← (← json.at (if side = .yes then "yes_price_dollars" else "no_price_dollars")).getStr)
  let quantity ← parseFpCount F (← (← json.at "initial_count_fp").getStr)
  let filledQuantity ← parseFpCount F (← (← json.at "fill_count_fp").getStr)
  let parsed ← parseOrderStatus (← (← json.at "status").getStr)
  let status : OrderStatus := if parsed = .open ∧ filledQuantity.isPositive then .partiallyFilled else parsed
  let id ← (← json.at "order_id").getStr
  let marketTicker ← (← json.at "ticker").getStr
  let type ← parseOrderType (← (← json.at "type").getStr)
  let createdAt ← parseIso8601 (← (← json.at "created_time").getStr)
  return { id, marketTicker, side, priceCents, quantity, filledQuantity, status, type, createdAt }

end

/-! ### Reading page by page -/

/-- A list of the exchange that is read page by page. -/
structure Listing (α : Type) where
  url : String
  /-- What joins a cursor to the address. -/
  joint : String
  /-- How often a failed request for a page is repeated. -/
  retries : Nat := 0
  readItems : Json → Except String (List α)
  readCursor : Json → Except String String

namespace Listing

variable {α X : Type} (listing : Listing α) (host : Host X)

/-- The first page has no cursor, and an empty one is not sent. -/
def pageUrl (cursor : String) : String :=
  if cursor = "" then listing.url else listing.url ++ listing.joint ++ cursor

def request (url : String) : Eff X String HttpResponse := do
  let resp ← Host.request (host.get url)
  Eff.ofExcept (checkResponse resp)
  pure resp

def requestRetrying (url : String) : Nat → Eff X String HttpResponse
  | 0 => request host url
  | retries + 1 => Eff.tryCatch (request host url) fun _ => requestRetrying url retries

/-- A page's items, and the cursor it leaves behind. -/
def fetchPage (cursor : String) : Eff X String (List α × String) := do
  let resp ← requestRetrying host (listing.pageUrl cursor) listing.retries
  Eff.ofExcept do
    let json ← resp.parse
    let items ← listing.readItems json
    let next ← listing.readCursor json
    return (items, next)

/-- Pages are fetched until the cursor is empty; none where it is not within `fuel` pages. -/
def fetchFrom : Nat → String → List α → Eff X String (Option (List α))
  | 0, _, _ => pure none
  | fuel + 1, cursor, all => do
    let page ← listing.fetchPage host cursor
    if page.2 = "" then pure (some (all ++ page.1))
    else fetchFrom fuel page.2 (all ++ page.1)

def fetchAll (fuel : Nat) : Eff X String (Option (List α)) := listing.fetchFrom host fuel "" []

end Listing

def itemsAt {α : Type} (key : String) (parse : Json → Except String α) (json : Json) : Except String (List α) := do
  (← json.at key).elements.mapM parse

namespace RestClient

variable (rest : RestClient) (F : Type) [Floating F]

def markets (eventTicker : String) : Listing (Market F) where
  url := rest.baseUrl ++ "/markets?limit=1000&status=open" ++
    (if eventTicker = "" then "" else "&event_ticker=" ++ eventTicker)
  joint := "&cursor="
  retries := 2
  readItems := itemsAt "markets" (parseMarket F)
  readCursor json := json.valueStr "cursor" ""

def positions : Listing (PositionRecord F) where
  url := rest.baseUrl ++ "/portfolio/positions"
  joint := "?cursor="
  readItems := itemsAt "market_positions" (parsePosition F)
  readCursor json := json.valueStr "cursor" ""

/-- A missing list counts as an empty one. The cursor under the old name is read first, and stands where the new
name is missing. -/
def incentivePrograms : Listing IncentiveProgram where
  url := rest.baseUrl ++ "/incentive_programs?status=active&type=liquidity&limit=1000"
  joint := "&cursor="
  readItems json := do (← json.valueElements "incentive_programs").mapM (parseIncentiveProgram F)
  readCursor json := do json.valueStr "next_cursor" (← json.valueStr "cursor" "")

def fills (minTsSeconds : Int) : Listing (Fill F) where
  url := rest.baseUrl ++ "/portfolio/fills?limit=100" ++
    (if 0 < minTsSeconds then "&min_ts=" ++ toString minTsSeconds else "")
  joint := "&cursor="
  readItems := itemsAt "fills" (parseFill F)
  readCursor json := json.valueStr "cursor" ""

variable {X : Type} (host : Host X)

def getMarkets (eventTicker : String) (fuel : Nat) : Eff X String (Option (List (Market F))) :=
  (rest.markets F eventTicker).fetchAll host fuel

def getPositions (fuel : Nat) : Eff X String (Option (List (PositionRecord F))) :=
    (rest.positions F).fetchAll host fuel

def getIncentivePrograms (fuel : Nat) : Eff X String (Option (List IncentiveProgram)) :=
  (rest.incentivePrograms F).fetchAll host fuel

def getFills (minTsSeconds : Int) (fuel : Nat) : Eff X String (Option (List (Fill F))) :=
  (rest.fills F minTsSeconds).fetchAll host fuel

def openOrdersUrl : String := rest.baseUrl ++ "/portfolio/orders?status=resting"

/-- One page, whatever its cursor. -/
def getOpenOrders : Eff X String (List Order) := do
  let resp ← Listing.request host rest.openOrdersUrl
  Eff.ofExcept do itemsAt "orders" (parseOrder F) (← resp.parse)

end RestClient

end Kalshi
