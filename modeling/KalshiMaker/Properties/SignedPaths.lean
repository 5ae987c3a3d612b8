import KalshiMaker.Exchange.SignedRequests
import Mathlib.Data.List.TakeWhile

/-! What the exchange checks of a request, and that every request of the client passes. -/
namespace Kalshi

open Search

/-! ### The exchange's rule -/

/-- The path that counts for the signature: no query, and no host. -/
def WireRequest.signedPath (wire : WireRequest) : String :=
  String.ofList (wire.target.toList.takeWhile fun c => c != '?')

/-- Key, time and signature are in the headers, and the signature is one of time, method and path. -/
def WireRequest.authentic (apiKey : String) (verify : String → String → Bool) (wire : WireRequest) : Bool :=
  match wire.headers.lookup "Kalshi-Access-Timestamp", wire.headers.lookup "Kalshi-Access-Signature" with
  | some timestamp, some signature =>
    wire.headers.lookup "Kalshi-Access-Key" == some apiKey &&
      verify (timestamp ++ wire.method ++ wire.signedPath) signature
  | _, _ => false

theorem signedPath_of_parts {path query : String} (plain : '?' ∉ path.toList)
    (marked : query = "" ∨ query.toList.head? = some '?') (wire : WireRequest) (target : wire.target = path ++ query) :
    wire.signedPath = path := by
  have passed : ∀ c ∈ path.toList, (c != '?') = true := by
    intro c mem
    have other : c ≠ '?' := fun same => plain (same ▸ mem)
    simpa using other
  unfold WireRequest.signedPath
  rw [target, String.toList_append, List.takeWhile_append_of_pos passed]
  rcases marked with rfl | first
  · simp
  · obtain ⟨rest, parts⟩ : ∃ rest, query.toList = '?' :: rest := List.head?_eq_some_iff.mp first
    simp [parts]

/-! ### Taking an address apart -/

/-- An address and what is put behind it are split where the path of the address begins. -/
theorem splitUrl_append {base : String} {schemeEnd : Nat} (scheme : find "://".toList base.toList 0 = some schemeEnd) :
    ∃ host, base = host ++ extractPathPrefix base ∧
      ∀ more : String, more.toList.head? = some '/' →
        splitUrl (base ++ more) = .ok ⟨host, extractPathPrefix base ++ more⟩ := by
  have whole : ∀ more : String, find "://".toList (base ++ more).toList 0 = some schemeEnd := by
    intro more
    rw [String.toList_append]
    exact find_append scheme _
  have within : schemeEnd + 3 ≤ base.toList.length := (find_fits scheme).2
  unfold extractPathPrefix splitUrl
  rw [scheme]
  cases path : find ['/'] base.toList (schemeEnd + 3) with
  | some pathStart =>
    have early : pathStart ≤ base.toList.length := by
      have fits := (find_fits path).2
      omega
    refine ⟨String.ofList (base.toList.take pathStart), ?_, fun more _ => ?_⟩
    · simp only [path]
      rw [← String.ofList_append, List.take_append_drop, String.ofList_toList]
    · have found : find ['/'] (base ++ more).toList (schemeEnd + 3) = some pathStart := by
        rw [String.toList_append]
        exact find_append path _
      simp only [whole, path, found]
      rw [String.toList_append, List.take_append_of_le_length early, List.drop_append_of_le_length early,
        String.ofList_append, String.ofList_toList]
  | none =>
    -- nothing of the address is path, so the path begins with what is put behind it
    refine ⟨base, ?_, fun more slash => ?_⟩
    · simp only [path, String.append_empty]
    · obtain ⟨rest, parts⟩ : ∃ rest, more.toList = '/' :: rest := List.head?_eq_some_iff.mp slash
      have found : find ['/'] (base ++ more).toList (schemeEnd + 3) = some base.toList.length := by
        rw [String.toList_append, parts]
        exact find_behind within path rest
      simp only [whole, path, found]
      rw [String.toList_append, List.take_left', List.drop_left', String.ofList_toList, String.ofList_toList,
        String.empty_append] <;> rfl

/-! ### What a request asks for -/

theorem head_append {front : String} {c : Char} (first : front.toList.head? = some c) (back : String) :
    (front ++ back).toList.head? = some c := by
  rw [String.toList_append, List.head?_append, first]
  rfl

theorem plain_append {front back : String} (first : '?' ∉ front.toList) (second : '?' ∉ back.toList) :
    '?' ∉ (front ++ back).toList := by
  rw [String.toList_append, List.mem_append, not_or]
  exact ⟨first, second⟩

/-- Where one part ends and the next begins makes no difference to the whole. -/
theorem regroup {front back front' back' : String} (same : front ++ back = front' ++ back') (rest : String) :
    front ++ (back ++ rest) = front' ++ (back' ++ rest) := by
  rw [← String.append_assoc, same, String.append_assoc]

namespace RestRequest

/-- The part of the exchange's interface that a request is for. -/
def endpoint : RestRequest → String
  | getMarkets _ _ => "/markets"
  | getPositions _ => "/portfolio/positions"
  | getIncentivePrograms _ => "/incentive_programs"
  | getOrderbook ticker => "/markets/" ++ ticker ++ "/orderbook"
  | placeOrder => "/portfolio/events/orders"
  | cancelOrder orderId => "/portfolio/events/orders/" ++ orderId
  | amendOrder orderId => "/portfolio/events/orders/" ++ orderId ++ "/amend"
  | decreaseOrder orderId => "/portfolio/events/orders/" ++ orderId ++ "/decrease"
  | getOpenOrders => "/portfolio/orders"
  | getRecentTrades _ _ => "/markets/trades"
  | getCandlesticks ticker _ _ => candlesticksEndpoint ticker
  | getFills _ _ => "/portfolio/fills"

/-- What it says behind the path. -/
def query : RestRequest → String
  | getMarkets eventTicker cursor =>
    "?limit=1000&status=open" ++ (if eventTicker = "" then "" else "&event_ticker=" ++ eventTicker) ++
      withCursor "&cursor=" cursor
  | getPositions cursor => withCursor "?cursor=" cursor
  | getIncentivePrograms cursor => "?status=active&type=liquidity&limit=1000" ++ withCursor "&cursor=" cursor
  | getOpenOrders => "?status=resting"
  | getRecentTrades ticker limit => "?limit=" ++ toString limit ++ "&ticker=" ++ ticker
  | getCandlesticks _ startTsSeconds endTsSeconds =>
    "?start_ts=" ++ toString startTsSeconds ++ "&end_ts=" ++ toString endTsSeconds ++ "&period_interval=1"
  | getFills minTsSeconds cursor =>
    "?limit=100" ++ (if 0 < minTsSeconds then "&min_ts=" ++ toString minTsSeconds else "") ++
      withCursor "&cursor=" cursor
  | getOrderbook _ | placeOrder | cancelOrder _ | amendOrder _ | decreaseOrder _ => ""

/-- The tickers and ids in the path. -/
def names : RestRequest → List String
  | getOrderbook name | cancelOrder name | amendOrder name | decreaseOrder name | getCandlesticks name _ _ => [name]
  | _ => []

/-- Every function signs the path of the endpoint it asks. -/
theorem path_eq (pathPrefix : String) (request : RestRequest) :
    request.path pathPrefix = pathPrefix ++ request.endpoint := by
  cases request with
  | getOrderbook name | amendOrder name | decreaseOrder name =>
    change pathPrefix ++ _ ++ _ ++ _ = pathPrefix ++ (_ ++ _ ++ _)
    simp only [String.append_assoc]
  | cancelOrder orderId =>
    change pathPrefix ++ _ ++ _ = pathPrefix ++ (_ ++ _)
    rw [String.append_assoc]
  | getMarkets | getPositions | getIncentivePrograms | placeOrder | getOpenOrders | getRecentTrades
  | getCandlesticks | getFills => rfl

theorem url_eq (baseUrl : String) (request : RestRequest) :
    request.url baseUrl = baseUrl ++ request.endpoint ++ request.query := by
  cases request with
  | getMarkets eventTicker cursor =>
    change baseUrl ++ "/markets?" ++ ("limit=1000&status=open" ++ _) ++ _ =
      baseUrl ++ "/markets" ++ ("?limit=1000&status=open" ++ _ ++ _)
    simp only [String.append_assoc]
    rw [regroup (by decide : "/markets?" ++ "limit=1000&status=open" = "/markets" ++ "?limit=1000&status=open")]
  | getPositions cursor => rfl
  | getIncentivePrograms cursor =>
    change baseUrl ++ "/incentive_programs?" ++ "status=active&type=liquidity&limit=1000" ++ _ =
      baseUrl ++ "/incentive_programs" ++ ("?status=active&type=liquidity&limit=1000" ++ _)
    simp only [String.append_assoc]
    rw [regroup (by decide : "/incentive_programs?" ++ "status=active&type=liquidity&limit=1000" =
      "/incentive_programs" ++ "?status=active&type=liquidity&limit=1000")]
  | getOpenOrders =>
    change baseUrl ++ "/portfolio/orders?status=resting" = baseUrl ++ "/portfolio/orders" ++ "?status=resting"
    rw [String.append_assoc]
    rfl
  | getRecentTrades ticker limit =>
    change baseUrl ++ "/markets/trades?limit=" ++ _ ++ _ ++ _ =
      baseUrl ++ "/markets/trades" ++ ("?limit=" ++ _ ++ _ ++ _)
    rw [(by decide : "/markets/trades?limit=" = "/markets/trades" ++ "?limit=")]
    simp only [String.append_assoc]
  | getCandlesticks ticker startTsSeconds endTsSeconds =>
    change baseUrl ++ _ ++ _ ++ _ ++ _ ++ _ ++ _ = baseUrl ++ candlesticksEndpoint ticker ++ (_ ++ _ ++ _ ++ _ ++ _)
    simp only [String.append_assoc]
  | getFills minTsSeconds cursor =>
    change baseUrl ++ "/portfolio/fills?" ++ ("limit=100" ++ _) ++ _ =
      baseUrl ++ "/portfolio/fills" ++ ("?limit=100" ++ _ ++ _)
    simp only [String.append_assoc]
    rw [regroup (by decide : "/portfolio/fills?" ++ "limit=100" = "/portfolio/fills" ++ "?limit=100")]
  | placeOrder => exact String.append_empty.symm
  | getOrderbook name | amendOrder name | decreaseOrder name =>
    change baseUrl ++ _ ++ _ ++ _ = baseUrl ++ (_ ++ _ ++ _) ++ ""
    simp only [String.append_assoc, String.append_empty]
  | cancelOrder orderId =>
    change baseUrl ++ _ ++ _ = baseUrl ++ (_ ++ _) ++ ""
    rw [String.append_assoc, String.append_empty]

theorem seriesOf_plain {ticker : Ticker} (plain : '?' ∉ ticker.toList) : '?' ∉ (seriesOf ticker).toList := by
  unfold seriesOf
  rw [String.toList_ofList]
  exact fun mem => plain ((List.takeWhile_prefix _).subset mem)

theorem endpoint_slash (request : RestRequest) : request.endpoint.toList.head? = some '/' := by
  cases request with
  | getOrderbook ticker => exact head_append (head_append (by decide) ticker) _
  | cancelOrder orderId => exact head_append (by decide) orderId
  | amendOrder orderId => exact head_append (head_append (by decide) orderId) _
  | decreaseOrder orderId => exact head_append (head_append (by decide) orderId) _
  | getCandlesticks ticker startTsSeconds endTsSeconds =>
    exact head_append (head_append (head_append (head_append (by decide) _) _) ticker) _
  | getMarkets => exact (by decide : "/markets".toList.head? = some '/')
  | getPositions => exact (by decide : "/portfolio/positions".toList.head? = some '/')
  | getIncentivePrograms => exact (by decide : "/incentive_programs".toList.head? = some '/')
  | placeOrder => exact (by decide : "/portfolio/events/orders".toList.head? = some '/')
  | getOpenOrders => exact (by decide : "/portfolio/orders".toList.head? = some '/')
  | getRecentTrades => exact (by decide : "/markets/trades".toList.head? = some '/')
  | getFills => exact (by decide : "/portfolio/fills".toList.head? = some '/')

/-- A question mark in a path could only come from a name. -/
theorem endpoint_plain {request : RestRequest} (plain : ∀ name ∈ request.names, '?' ∉ name.toList) :
    '?' ∉ request.endpoint.toList := by
  cases request with
  | getOrderbook ticker =>
    have named : '?' ∉ ticker.toList := plain ticker (List.mem_singleton_self _)
    exact plain_append (plain_append (by decide) named) (by decide)
  | cancelOrder orderId =>
    have named : '?' ∉ orderId.toList := plain orderId (List.mem_singleton_self _)
    exact plain_append (by decide) named
  | amendOrder orderId =>
    have named : '?' ∉ orderId.toList := plain orderId (List.mem_singleton_self _)
    exact plain_append (plain_append (by decide) named) (by decide)
  | decreaseOrder orderId =>
    have named : '?' ∉ orderId.toList := plain orderId (List.mem_singleton_self _)
    exact plain_append (plain_append (by decide) named) (by decide)
  | getCandlesticks ticker startTsSeconds endTsSeconds =>
    have named : '?' ∉ ticker.toList := plain ticker (List.mem_singleton_self _)
    exact plain_append (plain_append (plain_append (plain_append (by decide) (seriesOf_plain named)) (by decide))
      named)
      (by decide)
  | getMarkets => exact (by decide : '?' ∉ "/markets".toList)
  | getPositions => exact (by decide : '?' ∉ "/portfolio/positions".toList)
  | getIncentivePrograms => exact (by decide : '?' ∉ "/incentive_programs".toList)
  | placeOrder => exact (by decide : '?' ∉ "/portfolio/events/orders".toList)
  | getOpenOrders => exact (by decide : '?' ∉ "/portfolio/orders".toList)
  | getRecentTrades => exact (by decide : '?' ∉ "/markets/trades".toList)
  | getFills => exact (by decide : '?' ∉ "/portfolio/fills".toList)

theorem query_marked (request : RestRequest) : request.query = "" ∨ request.query.toList.head? = some '?' := by
  cases request with
  | getMarkets eventTicker cursor => exact .inr (head_append (head_append (by decide) _) _)
  | getPositions cursor =>
    change withCursor _ cursor = "" ∨ (withCursor _ cursor).toList.head? = _
    unfold withCursor
    split
    next => exact .inl rfl
    next => exact .inr (head_append (by decide) cursor)
  | getIncentivePrograms cursor => exact .inr (head_append (by decide) _)
  | getOpenOrders => exact .inr (by decide)
  | getRecentTrades ticker limit => exact .inr (head_append (head_append (head_append (by decide) _) _) _)
  | getCandlesticks ticker startTsSeconds endTsSeconds =>
    exact .inr (head_append (head_append (head_append (head_append (by decide) _) _) _) _)
  | getFills minTsSeconds cursor => exact .inr (head_append (head_append (by decide) _) _)
  | getOrderbook | placeOrder | cancelOrder | amendOrder | decreaseOrder => exact .inl rfl

end RestRequest

/-! ### Verification -/

theorem authentic_of_signed {wire : WireRequest} {auth : Auth} {timestampMs : Int} {path signature : String}
    {verify : String → String → Bool} (body : List (String × String))
    (json : body = [] ∨ body = [("Content-Type", "application/json")])
    (headers : wire.headers = body ++ [("Kalshi-Access-Key", auth.apiKey),
      ("Kalshi-Access-Timestamp", toString timestampMs), ("Kalshi-Access-Signature", signature)])
    (asked : wire.signedPath = path)
    (verified : verify (toString timestampMs ++ wire.method ++ path) signature = true) :
    wire.authentic auth.apiKey verify = true := by
  have key : wire.headers.lookup "Kalshi-Access-Key" = some auth.apiKey := by
    rcases json with rfl | rfl <;> rw [headers] <;> rfl
  have timestamp : wire.headers.lookup "Kalshi-Access-Timestamp" = some (toString timestampMs) := by
    rcases json with rfl | rfl <;> rw [headers] <;> rfl
  have signed : wire.headers.lookup "Kalshi-Access-Signature" = some signature := by
    rcases json with rfl | rfl <;> rw [headers] <;> rfl
  unfold WireRequest.authentic
  rw [timestamp, signed, asked, key]
  simpa only [BEq.rfl, Bool.true_and] using verified

theorem RestClient.send_signed {rest : RestClient} {auth : Auth} {timestampMs : Int} {request : RestRequest}
    {signature : String} {split : SplitUrl}
    (signed : auth.rsaPssSha256Sign (toString timestampMs ++ request.method ++ request.path rest.pathPrefix) =
      .ok signature)
    (parts : splitUrl (request.url rest.baseUrl) = .ok split) :
    rest.send auth timestampMs request = .ok {
      method := request.method
      base := split.base
      target := split.path
      headers := (if request.method = "POST" then [("Content-Type", "application/json")] else []) ++
        [("Kalshi-Access-Key", auth.apiKey), ("Kalshi-Access-Timestamp", toString timestampMs),
          ("Kalshi-Access-Signature", signature)] } := by
  unfold RestClient.send Auth.sign
  simp only [signed, parts]
  rfl

theorem RestClient.send_unsigned {rest : RestClient} {auth : Auth} {timestampMs : Int} {request : RestRequest}
    {what : String}
    (failed : auth.rsaPssSha256Sign (toString timestampMs ++ request.method ++ request.path rest.pathPrefix) =
      .error what) :
    rest.send auth timestampMs request = .error what := by
  unfold RestClient.send Auth.sign
  simp only [failed]
  rfl

/-- Every request goes to one host, for the path under the prefix of the base address, and the exchange accepts its
signature. Where it cannot be signed, none is sent. -/
theorem requests_pass_verification {rest : RestClient} {scheme address : String}
    (located : rest.baseUrl = scheme ++ "://" ++ address) (noQuery : '?' ∉ rest.baseUrl.toList) (auth : Auth)
    {verify : String → String → Bool}
    (verifies : ∀ message signature, auth.rsaPssSha256Sign message = .ok signature → verify message signature = true) :
    ∃ host, rest.baseUrl = host ++ rest.pathPrefix ∧
      ∀ request : RestRequest, (∀ name ∈ request.names, '?' ∉ name.toList) → ∀ timestampMs,
        (∃ message what, auth.rsaPssSha256Sign message = .error what ∧
          rest.send auth timestampMs request = .error what) ∨
        ∃ wire, rest.send auth timestampMs request = .ok wire ∧ wire.base = host ∧
          wire.target = rest.pathPrefix ++ request.endpoint ++ request.query ∧
          wire.authentic auth.apiKey verify = true := by
  obtain ⟨schemeEnd, found⟩ : ∃ schemeEnd, find "://".toList rest.baseUrl.toList 0 = some schemeEnd := by
    rw [located, String.toList_append, String.toList_append, List.append_assoc]
    exact find_stands scheme.toList _ address.toList
  obtain ⟨host, parts, splits⟩ := splitUrl_append found
  have prefixPlain : '?' ∉ rest.pathPrefix.toList := by
    intro mem
    apply noQuery
    rw [parts, String.toList_append]
    exact List.mem_append_right _ mem
  refine ⟨host, parts, fun request plain timestampMs => ?_⟩
  cases signed : auth.rsaPssSha256Sign
    (toString timestampMs ++ request.method ++ request.path rest.pathPrefix) with
  | error what => exact .inl ⟨_, what, signed, RestClient.send_unsigned signed⟩
  | ok signature =>
    have split : splitUrl (request.url rest.baseUrl) =
        .ok ⟨host, rest.pathPrefix ++ (request.endpoint ++ request.query)⟩ := by
      rw [RestRequest.url_eq, String.append_assoc]
      exact splits _ (head_append request.endpoint_slash _)
    have target : rest.pathPrefix ++ (request.endpoint ++ request.query) =
        rest.pathPrefix ++ request.endpoint ++ request.query := String.append_assoc.symm
    refine .inr ⟨_, RestClient.send_signed signed split, rfl, target, ?_⟩
    rw [RestRequest.path_eq] at signed
    refine authentic_of_signed _ ?_ rfl
      (signedPath_of_parts (plain_append prefixPlain (RestRequest.endpoint_plain plain)) request.query_marked _ target)
      (verifies _ signature signed)
    split
    next => exact .inr rfl
    next => exact .inl rfl

theorem requests_pass_verification_demo :
    ∃ wire, (⟨"https://demo/trade-api/v2"⟩ : RestClient).send ⟨"key", fun message => .ok ("signed " ++ message)⟩ 5
        (.amendOrder "o-1") = .ok wire ∧
      wire.authentic "key" (fun message signature => signature == "signed " ++ message) = true := by
  obtain ⟨host, -, passes⟩ := @requests_pass_verification ⟨"https://demo/trade-api/v2"⟩ "https"
    "demo/trade-api/v2" (by decide) (by decide) ⟨"key", fun message => .ok ("signed " ++ message)⟩
    (fun message signature => signature == "signed " ++ message)
    (fun message signature signed => by cases signed; simp)
  rcases passes (.amendOrder "o-1") (by decide) 5 with ⟨message, what, failed, -⟩ | ⟨wire, sent, -, -, authentic⟩
  · cases failed
  · exact ⟨wire, sent, authentic⟩

end Kalshi
