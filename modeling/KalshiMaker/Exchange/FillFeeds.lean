import KalshiMaker.Exchange.OrderManager
import KalshiMaker.Exchange.RestClient

/-! Fills as the two channels announce them: the frames of the websocket and the objects of the REST
history. -/
namespace Kalshi

open Effect

def parseSide : String → Except String Side
  | "yes" => .ok .yes
  | "no" => .ok .no
  | other => .error ("Unknown side: " ++ other)

variable (F : Type) [Floating F]

/-- What `dispatch_fill` and `parse_fill` read alike. The timestamp alone is read in two ways. -/
def readFill (readTimestamp : Json → Except String TimePoint) (json : Json) : Except String (Fill F) := do
  let tradeId ← json.valueStr "trade_id" ""
  let orderId ← (← json.at "order_id").getStr
  let marketTicker ← (← json.at "market_ticker").getStr
  let side ← parseSide (← (← json.at "outcome_side").getStr)
  let yesPriceCents ← parseDollarsToCents F (← (← json.at "yes_price_dollars").getStr)
  let quantity ← parseFpCount F (← (← json.at "count_fp").getStr)
  let feeDollars ← orThrow "stod" (Floating.stod (← json.valueStr "fee_cost" "0") : Option F)
  let isTaker ← (← json.at "is_taker").getBool
  let timestamp ← readTimestamp json
  return {
    tradeId
    orderId
    marketTicker
    side
    priceCents := if side = .yes then yesPriceCents else complementPrice yesPriceCents
    quantity
    feeCents := feeDollars * ((100 : Int) : F)
    isTaker
    timestamp }

/-- The fill in the body of a websocket frame, with its time in milliseconds. -/
def messageFill : Json → Except String (Fill F) :=
  readFill F fun json => do return (← (← json.at "ts_ms").getInt) * nanosPerMilli

/-- The fill in a REST object, with its time in whole seconds. -/
def parseFill : Json → Except String (Fill F) :=
  readFill F fun json => do return (← (← json.at "ts").getInt) * nanosPerSecond

variable {F}

/-- A malformed body is dropped, and so is what the callback throws. -/
def dispatchFill {σ : Type} (callback : Fill F → Eff σ String Unit) (msgBody : Json) : Eff σ String Unit :=
  Eff.tryCatch (do callback (← Eff.ofExcept (messageFill F msgBody))) fun _ => pure ()

/-! ### The terms of a fill -/

theorem exceptBind_eq_ok {α β : Type} {m : Except String α} {k : α → Except String β} {b : β} :
    (m >>= k) = .ok b ↔ ∃ a, m = .ok a ∧ k a = .ok b := by
  cases m with
  | error what =>
    constructor
    · intro failed
      cases failed
    · rintro ⟨_, failed, _⟩
      cases failed
  | ok a =>
    refine ⟨fun done => ⟨a, rfl, done⟩, ?_⟩
    rintro ⟨_, ⟨⟩, done⟩
    exact done

theorem exceptPure_eq_ok {α : Type} {a b : α} : (pure a : Except String α) = .ok b ↔ a = b := by
  constructor
  · rintro ⟨⟩
    rfl
  · rintro rfl
    rfl

/-- Ticker, order id, side, price, quantity and fee. -/
def Fill.terms (fill : Fill F) : Ticker × OrderId × Side × Int × Quantity × F :=
  (fill.marketTicker, fill.orderId, fill.side, fill.priceCents, fill.quantity, fill.feeCents)

/-- The keys that the terms are read from. -/
def termKeys : List String :=
  ["order_id", "market_ticker", "outcome_side", "yes_price_dollars", "count_fp", "fee_cost"]

def readTerms (F : Type) [Floating F] (json : Json) :
    Except String (Ticker × OrderId × Side × Int × Quantity × F) := do
  let orderId ← (← json.at "order_id").getStr
  let marketTicker ← (← json.at "market_ticker").getStr
  let side ← parseSide (← (← json.at "outcome_side").getStr)
  let yesPriceCents ← parseDollarsToCents F (← (← json.at "yes_price_dollars").getStr)
  let quantity ← parseFpCount F (← (← json.at "count_fp").getStr)
  let feeDollars ← orThrow "stod" (Floating.stod (← json.valueStr "fee_cost" "0") : Option F)
  return (marketTicker, orderId, side, if side = .yes then yesPriceCents else complementPrice yesPriceCents, quantity,
    feeDollars * ((100 : Int) : F))

theorem readTerms_of_readFill {readTimestamp : Json → Except String TimePoint} {json : Json} {fill : Fill F}
    (read : readFill F readTimestamp json = .ok fill) : readTerms F json = .ok fill.terms := by
  simp only [readFill, exceptBind_eq_ok, exceptPure_eq_ok] at read
  obtain ⟨_, _, v₁, h₁, orderId, h₁', v₂, h₂, ticker, h₂', v₃, h₃, sideText, h₃', side, sided, v₄, h₄, price, h₄',
    cents, priced, v₅, h₅, count, h₅', quantity, counted, feeText, h₆, fee, charged, _, _, _, _, _, _, rfl⟩ := read
  simp only [readTerms, exceptBind_eq_ok, exceptPure_eq_ok]
  exact ⟨v₁, h₁, orderId, h₁', v₂, h₂, ticker, h₂', v₃, h₃, sideText, h₃', side, sided, v₄, h₄, price, h₄',
    cents, priced, v₅, h₅, count, h₅', quantity, counted, feeText, h₆, fee, charged, rfl⟩

theorem Json.at_congr {json other : Json} {key : String} (same : json.find? key = other.find? key) :
    json.at key = other.at key := by
  unfold Json.at
  rw [same]

theorem Json.valueStr_congr {fields others : List (String × Json)} {key : String} (default : String)
    (same : (Json.obj fields).find? key = (Json.obj others).find? key) :
    (Json.obj fields).valueStr key default = (Json.obj others).valueStr key default := by
  unfold Json.valueStr
  dsimp only
  rw [same]

/-- Only an object is read as a fill. -/
theorem obj_of_readFill {readTimestamp : Json → Except String TimePoint} {json : Json} {fill : Fill F}
    (read : readFill F readTimestamp json = .ok fill) : ∃ fields, json = .obj fields := by
  simp only [readFill, exceptBind_eq_ok] at read
  obtain ⟨tradeId, named, _⟩ := read
  cases json with
  | obj fields => exact ⟨fields, rfl⟩
  | null | bool _ | int _ | float _ | str _ | arr _ => cases named

/-- Two announcements with the same texts have the same terms, whichever channel they came by. -/
theorem terms_agree {readTimestamp readTimestamp' : Json → Except String TimePoint} {json json' : Json}
    {fill fill' : Fill F} (same : ∀ key ∈ termKeys, json.find? key = json'.find? key)
    (read : readFill F readTimestamp json = .ok fill) (read' : readFill F readTimestamp' json' = .ok fill') :
    fill.terms = fill'.terms := by
  obtain ⟨fields, rfl⟩ := obj_of_readFill read
  obtain ⟨fields', rfl⟩ := obj_of_readFill read'
  have member : ∀ key ∈ termKeys, (Json.obj fields).at key = (Json.obj fields').at key :=
    fun key among => Json.at_congr (same key among)
  have terms : readTerms F (.obj fields) = readTerms F (.obj fields') := by
    unfold readTerms
    rw [member "order_id" (by simp [termKeys]), member "market_ticker" (by simp [termKeys]),
      member "outcome_side" (by simp [termKeys]), member "yes_price_dollars" (by simp [termKeys]),
      member "count_fp" (by simp [termKeys]), Json.valueStr_congr "0" (same "fee_cost" (by simp [termKeys]))]
  exact Except.ok.inj ((readTerms_of_readFill read).symm.trans (terms.trans (readTerms_of_readFill read')))

end Kalshi
