import KalshiMaker.Exchange.Listings
import KalshiMaker.Net.RecordedHost
import KalshiMaker.Net.ScriptedHost

/-! Reads of whole lists against the chains of pages that the exchange serves. -/
namespace Kalshi

open Effect Eff

/-! ### Chains of pages -/

/-- How a page names the next one, or says that there is none. -/
inductive Onward where
  | next (cursor : String)
  | empty
  | absent
  | null
  deriving DecidableEq

structure Page (α : Type) where
  items : List α
  onward : Onward

/-- A key that alone of several has this value. -/
def Json.Under (json : Json) (keys : List String) (value : Json) : Prop :=
  ∃ key ∈ keys, json.find? key = some value ∧ ∀ other ∈ keys, other ≠ key → json.find? other = none

/-- The cursor of a page, as its object has it. -/
def Onward.WrittenIn (json : Json) (keys : List String) : Onward → Prop
  | .next cursor => cursor ≠ "" ∧ json.Under keys (.str cursor)
  | .empty => json.Under keys (.str "")
  | .absent => ∀ key ∈ keys, json.find? key = none
  | .null => json.Under keys .null

/-- An answer that holds a page. -/
structure Page.AnsweredBy {α : Type} (page : Page α) (itemsKey : String) (cursorKeys : List String)
    (parse : Json → Except String α) (resp : HttpResponse) : Prop where
  status : 200 ≤ resp.statusCode ∧ resp.statusCode ≤ 299
  body : ∃ fields objects, resp.json = some (.obj fields) ∧
    (Json.obj fields).find? itemsKey = some (.arr objects) ∧ objects.mapM parse = .ok page.items ∧
    page.onward.WrittenIn (.obj fields) cursorKeys

/-- What the exchange serves from one cursor on, request by request: the chain of pages, the outside after it, and
the requests with their answers. -/
inductive Served {X α : Type} (host : Host X) (pageUrl : String → String) (answers : Page α → HttpResponse → Prop) :
    String → X → List (Page α) → X → List Exchanged → Prop where
  | last {cursor : String} {x y : X} {page : Page α} {resp : HttpResponse}
      (got : host.get (pageUrl cursor) x = (.ok resp, y)) (answered : answers page resp)
      (ends : ∀ next, page.onward ≠ .next next) :
      Served host pageUrl answers cursor x [page] y [⟨.get, pageUrl cursor, .ok resp⟩]
  | more {cursor next : String} {x y z : X} {page : Page α} {resp : HttpResponse} {pages : List (Page α)}
      {later : List Exchanged} (got : host.get (pageUrl cursor) x = (.ok resp, y)) (answered : answers page resp)
      (goesOn : page.onward = .next next) (rest : Served host pageUrl answers next y pages z later) :
      Served host pageUrl answers cursor x (page :: pages) z (⟨.get, pageUrl cursor, .ok resp⟩ :: later)

/-! ### The four loops -/

/-- How a listing takes what a page says of the next one. -/
def Onward.ReadAs : Onward → Except String String → Prop
  | .next cursor, read => cursor ≠ "" ∧ read = .ok cursor
  | .empty, read | .absent, read => read = .ok ""
  | .null, read => ∃ what, read = .error what

namespace Listing

variable {X α : Type} {listing : Listing α} {host : Host X} {answers : Page α → HttpResponse → Prop}

/-- A listing reads its pages: the items in order, and a cursor unless it is null. -/
structure Reads (listing : Listing α) (answers : Page α → HttpResponse → Prop) : Prop where
  status : ∀ {page resp}, answers page resp → 200 ≤ resp.statusCode ∧ resp.statusCode ≤ 299
  body : ∀ {page resp}, answers page resp → ∃ json, resp.json = some json ∧ listing.readItems json = .ok page.items ∧
    page.onward.ReadAs (listing.readCursor json)

/-- A request that is answered at once is made once, whatever the retries. -/
theorem requestRetrying_answered {url : String} {x y : X} {resp : HttpResponse}
    (got : host.get url x = (.ok resp, y)) (status : 200 ≤ resp.statusCode ∧ resp.statusCode ≤ 299) (retries : Nat)
    (log : List Exchanged) :
    requestRetrying host.recorded url retries (x, log) = (.ok resp, y, log ++ [⟨.get, url, .ok resp⟩]) := by
  have asked : request host.recorded url (x, log) = (.ok resp, y, log ++ [⟨.get, url, .ok resp⟩]) := by
    have answer : Host.request (host.recorded.get url) (x, log) = (.ok resp, y, log ++ [⟨.get, url, .ok resp⟩]) := by
      change Eff.ofExcept (host.get url x).1 ((host.get url x).2, log ++ [⟨.get, url, (host.get url x).1⟩]) = _
      rw [got]
      rfl
    have accepted : checkResponse resp = .ok () := if_pos status
    unfold request
    rw [bind_apply, answer, andThen_ok, accepted]
    rfl
  cases retries with
  | zero => exact asked
  | succ retries =>
    unfold requestRetrying Eff.tryCatch
    rw [asked]
    rfl

/-- What fetching an answered page comes to. -/
theorem fetchPage_answered (reads : listing.Reads answers) {page : Page α} {cursor : String} {x y : X}
    {resp : HttpResponse} (got : host.get (listing.pageUrl cursor) x = (.ok resp, y)) (answered : answers page resp)
    (log : List Exchanged) :
    ∃ read, page.onward.ReadAs read ∧ listing.fetchPage host.recorded cursor (x, log) =
      (Eff.ofExcept (read.map fun next => (page.items, next)) : Eff (X × List Exchanged) String _)
        (y, log ++ [⟨.get, listing.pageUrl cursor, .ok resp⟩]) := by
  obtain ⟨json, body, items, onward⟩ := reads.body answered
  refine ⟨listing.readCursor json, onward, ?_⟩
  unfold fetchPage
  rw [bind_apply, requestRetrying_answered got (reads.status answered), andThen_ok]
  have parsed : resp.parse = .ok json := by
    unfold HttpResponse.parse
    rw [body]
  rw [parsed]
  change (Eff.ofExcept (do
    let items ← listing.readItems json
    let next ← listing.readCursor json
    return (items, next)) : Eff (X × List Exchanged) String _) _ = _
  rw [items]
  cases listing.readCursor json <;> rfl

/-- A chain is read to its end, with one request a page, exactly if it does not end in a null. -/
theorem fetchFrom_served (reads : listing.Reads answers) {cursor : String} {x x' : X} {pages : List (Page α)}
    {asked : List Exchanged} (served : Served host listing.pageUrl answers cursor x pages x' asked) {fuel : Nat}
    (enough : pages.length ≤ fuel) (all : List α) (log : List Exchanged) :
    (listing.fetchFrom host.recorded fuel cursor all (x, log) =
      (.ok (some (all ++ pages.flatMap Page.items)), x', log ++ asked)) ↔ ∀ page ∈ pages, page.onward ≠ .null := by
  induction served generalizing fuel all log with
  | @last cursor x y page resp got answered ends =>
    -- the fuel covers the pages that are left, so it is never short
    cases fuel with
    | zero => cases enough
    | succ fuel =>
      obtain ⟨read, onward, fetched⟩ := fetchPage_answered reads got answered log
      rw [fetchFrom, bind_apply, fetched, List.flatMap_singleton, List.forall_mem_singleton]
      cases written : page.onward with
      | next following => exact absurd written (ends following)
      | empty | absent =>
        rw [written] at onward
        cases onward
        exact ⟨fun _ => nofun, fun _ => rfl⟩
      | null =>
        rw [written] at onward
        obtain ⟨what, rfl⟩ := onward
        exact ⟨nofun, fun unended => absurd rfl unended⟩
  | @more cursor next x y z page resp pages later got answered goesOn rest ih =>
    cases fuel with
    | zero => cases enough
    | succ fuel =>
      obtain ⟨read, onward, fetched⟩ := fetchPage_answered reads got answered log
      rw [goesOn] at onward
      obtain ⟨named, rfl⟩ := onward
      have step : listing.fetchFrom host.recorded (fuel + 1) cursor all (x, log) =
          listing.fetchFrom host.recorded fuel next (all ++ page.items)
            (y, log ++ [⟨.get, listing.pageUrl cursor, .ok resp⟩]) := by
        rw [fetchFrom, bind_apply, fetched]
        change (if next = "" then _ else _ : Eff _ _ _) _ = _
        rw [if_neg named]
      -- a page that names the next one does not end the chain
      have moves : page.onward ≠ .null := by
        rw [goesOn]
        nofun
      have tail := ih (Nat.le_of_succ_le_succ enough) (all ++ page.items)
        (log ++ [⟨.get, listing.pageUrl cursor, .ok resp⟩])
      rw [List.append_assoc all, List.append_assoc log] at tail
      rw [step, List.forall_mem_cons, and_iff_right moves, List.flatMap_cons]
      exact tail

end Listing

/-! ### The five lists -/

/-- The reads of the client that return a list. -/
inductive Endpoint where
  | markets (eventTicker : String)
  | positions
  | incentivePrograms
  | fills (minTsSeconds : Int)
  | openOrders

namespace Endpoint

variable (F : Type) [Floating F]

def Item : Endpoint → Type
  | .markets _ => Market F
  | .positions => PositionRecord F
  | .incentivePrograms => IncentiveProgram
  | .fills _ => Fill F
  | .openOrders => Order

def itemsKey : Endpoint → String
  | .markets _ => "markets"
  | .positions => "market_positions"
  | .incentivePrograms => "incentive_programs"
  | .fills _ => "fills"
  | .openOrders => "orders"

def cursorKeys : Endpoint → List String
  | .incentivePrograms => ["next_cursor", "cursor"]
  | _ => ["cursor"]

def parse : (endpoint : Endpoint) → Json → Except String (endpoint.Item F)
  | .markets _ => parseMarket F
  | .positions => parsePosition F
  | .incentivePrograms => parseIncentiveProgram F
  | .fills _ => parseFill F
  | .openOrders => parseOrder F

/-- Where the exchange serves the page of a cursor. -/
def pageUrl (rest : RestClient) : Endpoint → String → String
  | .markets eventTicker => (rest.markets F eventTicker).pageUrl
  | .positions => (rest.positions F).pageUrl
  | .incentivePrograms => (rest.incentivePrograms F).pageUrl
  | .fills minTsSeconds => (rest.fills F minTsSeconds).pageUrl
  | .openOrders => fun cursor => if cursor = "" then rest.openOrdersUrl else rest.openOrdersUrl ++ "&cursor=" ++ cursor

def read {X : Type} (rest : RestClient) (host : Host X) (fuel : Nat) :
    (endpoint : Endpoint) → Eff X String (Option (List (endpoint.Item F)))
  | .markets eventTicker => rest.getMarkets F host eventTicker fuel
  | .positions => rest.getPositions F host fuel
  | .incentivePrograms => rest.getIncentivePrograms F host fuel
  | .fills minTsSeconds => rest.getFills F host minTsSeconds fuel
  | .openOrders => do return some (← rest.getOpenOrders F host)

/-- The answers that hold a page of this list. -/
def Answers (endpoint : Endpoint) (page : Page (endpoint.Item F)) (resp : HttpResponse) : Prop :=
  page.AnsweredBy endpoint.itemsKey endpoint.cursorKeys (endpoint.parse F) resp

/-- The chains that are read to their end. -/
def Follows : (endpoint : Endpoint) → List (Page (endpoint.Item F)) → Prop
  | .openOrders, pages => pages.length = 1
  | _, pages => ∀ page ∈ pages, page.onward ≠ .null

end Endpoint

section

variable {F : Type} [Floating F]

theorem valueStr_obj {fields : List (String × Json)} {key default : String} :
    (Json.obj fields).valueStr key default = ((Json.obj fields).find? key).elim (.ok default) Json.getStr := by
  unfold Json.valueStr
  cases (Json.obj fields).find? key <;> rfl

theorem Onward.readAs_single {onward : Onward} {fields : List (String × Json)} {key : String}
    (written : onward.WrittenIn (.obj fields) [key]) : onward.ReadAs ((Json.obj fields).valueStr key "") := by
  have under : ∀ {value : Json}, (Json.obj fields).Under [key] value → (Json.obj fields).find? key = some value := by
    rintro value ⟨_, member, found, _⟩
    rw [List.mem_singleton.mp member] at found
    exact found
  rw [valueStr_obj]
  cases onward with
  | next cursor =>
    obtain ⟨named, stands⟩ := written
    rw [under stands]
    exact ⟨named, rfl⟩
  | empty =>
    rw [under written]
    rfl
  | absent =>
    rw [written key (List.mem_singleton_self key)]
    rfl
  | null =>
    rw [under written]
    exact ⟨_, rfl⟩

/-- Of two names for the cursor a page uses one. -/
theorem Onward.readAs_either {onward : Onward} {fields : List (String × Json)}
    (written : onward.WrittenIn (.obj fields) ["next_cursor", "cursor"]) :
    onward.ReadAs (do (Json.obj fields).valueStr "next_cursor" (← (Json.obj fields).valueStr "cursor" "")) := by
  have under : ∀ {value : Json}, (Json.obj fields).Under ["next_cursor", "cursor"] value →
      (Json.obj fields).find? "next_cursor" = some value ∧ (Json.obj fields).find? "cursor" = none ∨
      (Json.obj fields).find? "next_cursor" = none ∧ (Json.obj fields).find? "cursor" = some value := by
    rintro value ⟨key, member, found, alone⟩
    rcases List.mem_cons.mp member with rfl | member
    · exact .inl ⟨found, alone "cursor" (by decide) (by decide)⟩
    · rw [List.mem_singleton.mp member] at found alone
      exact .inr ⟨alone "next_cursor" (by decide) (by decide), found⟩
  simp only [valueStr_obj]
  cases onward with
  | next cursor =>
    obtain ⟨named, stands⟩ := written
    rcases under stands with ⟨first, second⟩ | ⟨first, second⟩ <;> rw [first, second] <;> exact ⟨named, rfl⟩
  | empty => rcases under written with ⟨first, second⟩ | ⟨first, second⟩ <;> rw [first, second] <;> rfl
  | absent =>
    rw [written "next_cursor" (by decide), written "cursor" (by decide)]
    rfl
  | null => rcases under written with ⟨first, second⟩ | ⟨first, second⟩ <;> rw [first, second] <;> exact ⟨_, rfl⟩

theorem itemsAt_listed {α : Type} {parse : Json → Except String α} {fields : List (String × Json)} {key : String}
    {objects : List Json} {items : List α} (listed : (Json.obj fields).find? key = some (.arr objects))
    (parsed : objects.mapM parse = .ok items) : itemsAt key parse (.obj fields) = .ok items := by
  unfold itemsAt Json.at
  rw [listed]
  exact parsed

/-- A listing with its items and its cursor under one key each reads its pages. -/
theorem Listing.reads_of_keys {α : Type} {listing : Listing α} {parse : Json → Except String α} {itemsKey : String}
    (items : listing.readItems = itemsAt itemsKey parse)
    (cursor : listing.readCursor = fun json => json.valueStr "cursor" "") :
    listing.Reads fun page resp => page.AnsweredBy itemsKey ["cursor"] parse resp where
  status answered := answered.status
  body := by
    rintro page resp ⟨_, fields, objects, body, listed, parsed, written⟩
    refine ⟨.obj fields, body, ?_, ?_⟩
    · rw [items]
      exact itemsAt_listed listed parsed
    · rw [cursor]
      exact Onward.readAs_single written

theorem RestClient.incentivePrograms_reads (rest : RestClient) :
    (rest.incentivePrograms F).Reads (Endpoint.incentivePrograms.Answers F) where
  status answered := answered.status
  body := by
    rintro page resp ⟨_, fields, objects, body, listed, parsed, written⟩
    refine ⟨.obj fields, body, ?_, Onward.readAs_either written⟩
    have elements : (Json.obj fields).valueElements "incentive_programs" = .ok objects := by
      change Except.ok (((Json.obj fields).find? "incentive_programs").elim [] Json.elements) = _
      rw [show (Json.obj fields).find? "incentive_programs" = some (.arr objects) from listed]
      rfl
    change (do (← (Json.obj fields).valueElements "incentive_programs").mapM (parseIncentiveProgram F)) = _
    rw [elements]
    exact parsed

/-- The open orders are those of the first page. -/
theorem RestClient.getOpenOrders_answered (rest : RestClient) {X : Type} {host : Host X} {x y : X}
    {page : Page (Endpoint.openOrders.Item F)} {resp : HttpResponse}
    (got : host.get rest.openOrdersUrl x = (.ok resp, y)) (answered : Endpoint.openOrders.Answers F page resp)
    (log : List Exchanged) (fuel : Nat) :
    Endpoint.openOrders.read F rest host.recorded fuel (x, log) =
      (.ok (some page.items), y, log ++ [⟨.get, rest.openOrdersUrl, .ok resp⟩]) := by
  obtain ⟨status, fields, objects, body, listed, parsed, _⟩ := answered
  have asked : Listing.request host.recorded rest.openOrdersUrl (x, log) =
    (.ok resp, y, log ++ [⟨.get, rest.openOrdersUrl, .ok resp⟩]) :=
    Listing.requestRetrying_answered got status 0 log
  have json : resp.parse = .ok (.obj fields) := by
    unfold HttpResponse.parse
    rw [body]
  have orders : itemsAt "orders" (parseOrder F) (.obj fields) = .ok page.items := itemsAt_listed listed parsed
  unfold Endpoint.read
  dsimp only
  unfold RestClient.getOpenOrders
  rw [bind_apply, bind_apply, asked, andThen_ok, json]
  change andThen _ ((Eff.ofExcept (itemsAt "orders" (parseOrder F) (.obj fields)) : Eff _ String _) _) = _
  rw [orders]
  rfl

/-- A chain of pages is read whole and in order, with one request a page, exactly where its list follows it. -/
theorem endpoint_complete_iff {X : Type} (rest : RestClient) (host : Host X) (endpoint : Endpoint) {x x' : X}
    {pages : List (Page (endpoint.Item F))} {asked : List Exchanged}
    (served : Served host (endpoint.pageUrl F rest) (endpoint.Answers F) "" x pages x' asked) (log : List Exchanged) :
    (∀ fuel, pages.length ≤ fuel → endpoint.read F rest host.recorded fuel (x, log) =
      (.ok (some (pages.flatMap Page.items)), x', log ++ asked)) ↔ endpoint.Follows F pages := by
  have loop : ∀ {α : Type} {listing : Listing α} {answers : Page α → HttpResponse → Prop} {pages : List (Page α)},
      listing.Reads answers → Served host listing.pageUrl answers "" x pages x' asked →
      ((∀ fuel, pages.length ≤ fuel → listing.fetchAll host.recorded fuel (x, log) =
        (.ok (some (pages.flatMap Page.items)), x', log ++ asked)) ↔ ∀ page ∈ pages, page.onward ≠ .null) := by
    intro α listing answers pages reads served
    constructor
    · intro complete
      exact (Listing.fetchFrom_served reads served le_rfl [] log).mp (complete _ le_rfl)
    · intro ends fuel enough
      exact (Listing.fetchFrom_served reads served enough [] log).mpr ends
  cases endpoint with
  | markets eventTicker => exact loop (Listing.reads_of_keys rfl rfl) served
  | positions => exact loop (Listing.reads_of_keys rfl rfl) served
  | incentivePrograms => exact loop rest.incentivePrograms_reads served
  | fills minTsSeconds => exact loop (Listing.reads_of_keys rfl rfl) served
  | openOrders =>
    cases served with
    | @last _ _ y page resp got answered ends =>
      refine ⟨fun _ => rfl, fun _ fuel _ => ?_⟩
      rw [List.flatMap_singleton]
      exact rest.getOpenOrders_answered got answered log fuel
    | @more _ next _ y _ page resp pages later got answered goesOn tail =>
      -- a chain that goes on has a second page, and the open orders are asked for only once
      have further : pages ≠ [] ∧ later ≠ [] := by
        cases tail <;> exact ⟨List.cons_ne_nil _ _, List.cons_ne_nil _ _⟩
      constructor
      · intro complete
        have read := (rest.getOpenOrders_answered got answered log _).symm.trans (complete _ le_rfl)
        have requests : log ++ [_] = log ++ (_ :: later) := congrArg (fun result => result.2.2) read
        exact absurd (List.cons.inj (List.append_cancel_left requests)).2.symm further.2
      · intro single
        exact absurd (List.length_eq_zero_iff.mp (Nat.succ.inj single)) further.1

end

theorem endpoint_complete_iff_positions :
    let rest : RestClient := ⟨"exchange"⟩
    let body (cursor : List (String × Json)) (ticker : String) : HttpResponse :=
      { statusCode := 200
        json := some (.obj ([("market_positions", .arr [.obj [("ticker", .str ticker)]])] ++ cursor)) }
    let host : Host Script := { Script.host with
      get := fun url x =>
        (.ok (if url = "exchange/portfolio/positions" then body [("cursor", .str "c2")] "A" else body [] "B"), x) }
    let held (ticker : Ticker) : PositionRecord ℚ :=
      { ticker, realizedPnlCents := 0, marketExposureCents := 0 }
    let pages : List (Page (PositionRecord ℚ)) := [⟨[held "A"], .next "c2"⟩, ⟨[held "B"], .absent⟩]
    let asked : List Exchanged :=
      [⟨.get, "exchange/portfolio/positions", .ok (body [("cursor", .str "c2")] "A")⟩,
        ⟨.get, "exchange/portfolio/positions?cursor=c2", .ok (body [] "B")⟩]
    (∀ fuel, pages.length ≤ fuel → Endpoint.positions.read ℚ rest host.recorded fuel ({}, []) =
      (.ok (some (pages.flatMap Page.items)), {}, [] ++ asked)) ↔ Endpoint.positions.Follows ℚ pages := by
  intro rest body host held pages asked
  have one : [Json.obj [("ticker", .str "A")]].mapM (parsePosition ℚ) = .ok [held "A"] := by decide +kernel
  have other : [Json.obj [("ticker", .str "B")]].mapM (parsePosition ℚ) = .ok [held "B"] := by decide +kernel
  have second : Served host (Endpoint.positions.pageUrl ℚ rest) (Endpoint.positions.Answers ℚ) "c2" {}
      [⟨[held "B"], .absent⟩] {} [⟨.get, "exchange/portfolio/positions?cursor=c2", .ok (body [] "B")⟩] := by
    refine .last rfl ⟨by decide, _, _, rfl, rfl, other, fun key member => ?_⟩ (fun _ => nofun)
    rw [List.mem_singleton.mp member]
    rfl
  have first : Served host (Endpoint.positions.pageUrl ℚ rest) (Endpoint.positions.Answers ℚ) ""
    {} pages {} asked := by
    refine .more rfl ⟨by decide, _, _, rfl, rfl, one, by decide, "cursor", List.mem_singleton_self _, rfl, ?_⟩ rfl
      second
    intro key member apart
    exact absurd (List.mem_singleton.mp member) apart
  exact endpoint_complete_iff rest host .positions first []

/-- Of two pages of resting orders the second is not asked for, and a null cursor is taken for an error. -/
theorem pages_left_behind :
    let rest : RestClient := ⟨"exchange"⟩
    let resting : Json := .obj [("order_id", .str "order-1"), ("ticker", .str "M"), ("outcome_side", .str "yes"),
      ("yes_price_dollars", .str "0.4000"), ("initial_count_fp", .str "10.00"), ("fill_count_fp", .str "0.00"),
      ("status", .str "resting"), ("type", .str "limit"), ("created_time", .str "1970-01-01T00:00:00Z")]
    let first : HttpResponse := { statusCode := 200, json := some (.obj [("orders", .arr []), ("cursor", .str "c2")]) }
    let second : HttpResponse := { statusCode := 200, json := some (.obj [("orders", .arr [resting])]) }
    let sole : HttpResponse :=
      { statusCode := 200, json := some (.obj [("market_positions", .arr []), ("cursor", .null)]) }
    let host : Host Script := { Script.host with
      get := fun url x =>
        (.ok (if url = "exchange/portfolio/positions" then sole
          else if url = "exchange/portfolio/orders?status=resting" then first else second), x) }
    let order : Order := { id := "order-1", marketTicker := "M", side := .yes, priceCents := 40, quantity := ⟨1000⟩ }
    (∃ asked, Served host (Endpoint.openOrders.pageUrl ℚ rest) (Endpoint.openOrders.Answers ℚ) "" {}
        [⟨[], .next "c2"⟩, ⟨[order], .absent⟩] {} asked) ∧
      rest.getOpenOrders ℚ host {} = (.ok [], {}) ∧
      (∃ asked, Served host (Endpoint.positions.pageUrl ℚ rest) (Endpoint.positions.Answers ℚ) "" {}
        [⟨[], .null⟩] {} asked) ∧
      rest.getPositions ℚ host 1 {} = (.error (.exception "type must be string"), {}) := by
  intro rest resting first second sole host order
  have parsed : parseOrder ℚ resting = .ok order := by decide +kernel
  have orders : [resting].mapM (parseOrder ℚ) = .ok [order] := by
    rw [List.mapM_cons, parsed]
    rfl
  have tail : Served host (Endpoint.openOrders.pageUrl ℚ rest) (Endpoint.openOrders.Answers ℚ) "c2" {}
      [⟨[order], .absent⟩] {} [⟨.get, "exchange/portfolio/orders?status=resting&cursor=c2", .ok second⟩] := by
    refine .last rfl ⟨by decide, _, _, rfl, rfl, orders, fun key member => ?_⟩ (fun _ => nofun)
    rw [List.mem_singleton.mp member]
    rfl
  have alone : ∀ other ∈ ["cursor"], other ≠ "cursor" → ∀ json : Json, json.find? other = none := by
    intro other member apart
    exact absurd (List.mem_singleton.mp member) apart
  refine ⟨⟨_, .more rfl ⟨by decide, _, _, rfl, rfl, rfl, by decide, "cursor", List.mem_singleton_self _, rfl, ?_⟩ rfl
    tail⟩,
    rfl, ⟨_, .last rfl ⟨by decide, _, _, rfl, rfl, rfl, "cursor", List.mem_singleton_self _, rfl, ?_⟩
      (fun _ => nofun)⟩, rfl⟩
  · exact fun other member apart => alone other member apart _
  · exact fun other member apart => alone other member apart _

end Kalshi
