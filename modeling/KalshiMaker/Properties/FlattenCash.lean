import KalshiMaker.App.Shutdown
import KalshiMaker.Engine.Steps
import KalshiMaker.Exchange.WireFormat
import KalshiMaker.Net.ScriptedHost
import KalshiMaker.Properties.Accounting

/-! Which flattens are booked at the cash the exchange reports. -/
namespace Kalshi

open Effect Eff Desk TradingSession Fifo OrderManager

/-- One flatten that executed, as the exchange answers it. The average price of the YES leg and the average fee per
contract are in ten-thousandths of a dollar. -/
structure Flattening where
  position : Quantity
  orderId : OrderId
  filled : Quantity
  averageFillPrice : Nat
  averageFeePaid : Nat
  tsMs : Int
  held : position.centi ≠ 0
  executed : 0 < filled.centi
  aboveZero : 0 < averageFillPrice
  belowDollar : averageFillPrice < 10000

namespace Flattening

variable (f : Flattening)

def side : Side := RestClient.closeSide f.position

def response : HttpResponse where
  statusCode := 201
  json := some <| .obj
    [("order_id", .str f.orderId), ("fill_count", .str f.filled.toFpString),
     ("remaining_count", .str (f.position.abs - f.filled).toFpString),
     ("average_fill_price", .str (fourDecimals f.averageFillPrice)),
     ("average_fee_paid", .str (fourDecimals f.averageFeePaid)), ("ts_ms", .int f.tsMs)]

/-- The average price in cents, on the side of the order. -/
def ownCents : ℚ := if f.side = .yes then f.averageFillPrice / 100 else 100 - f.averageFillPrice / 100

/-- The fee in cents. -/
def fee : ℚ := f.averageFeePaid / 100 * (f.filled.centi / 100)

/-- A price within half a cent of the dollar. -/
def RoundsToDollar : Prop := if f.side = .yes then 9950 ≤ f.averageFillPrice else f.averageFillPrice < 50

instance : Decidable f.RoundsToDollar :=
  inferInstanceAs (Decidable (if f.side = .yes then 9950 ≤ f.averageFillPrice else f.averageFillPrice < 50))

/-- How far the price on the order's side lies above the one booked, in hundredths of a cent: the distance to the
nearest cent; but a price nearest to no cent at all is booked at the limit of 99. -/
def missed : Int :=
  if f.side = .yes then
    if f.averageFillPrice < 50 then f.averageFillPrice - 9900 else ((f.averageFillPrice + 50) % 100 : Nat) - 50
  else
    if 9950 ≤ f.averageFillPrice then 100 - f.averageFillPrice else 50 - ((f.averageFillPrice + 50) % 100 : Nat)

/-- What the books miss of the cash, in ten-thousandths of a cent: the rounding and the fee. -/
def lost : Int := (f.missed + (f.averageFeePaid : Int)) * f.filled.centi

/-- The order that the client makes of the answer. -/
def order (ticker : Ticker) : Order where
  id := f.orderId
  marketTicker := ticker
  side := f.side
  priceCents := kMaxPriceCents
  quantity := f.position.abs
  filledQuantity := f.filled
  status := if f.position.abs ≤ f.filled then .filled else .cancelled
  type := .market
  createdAt := f.tsMs * nanosPerMilli
  averageFillPriceCents :=
    if f.side = .yes then ((f.averageFillPrice + 50) / 100 : Nat)
    else complementPrice ((f.averageFillPrice + 50) / 100 : Nat)

variable [Elementary ℚ]

theorem placedOrder_response (ticker : Ticker) :
    placedOrder ℚ f.response ticker f.side kMaxPriceCents f.position.abs .market = .ok (f.order ticker) := by
  have count : parseFpCount ℚ f.filled.toFpString = .ok f.filled := by
    unfold parseFpCount
    rw [fromFpString_toFpString]
    rfl
  simp [placedOrder, response, checkResponse, HttpResponse.parse, Json.at, Json.find?, Json.getStr, Json.getInt,
    Json.valueStr, count, parseDollars_fourDecimals, fourDecimals_ne_empty, bind, Except.bind, pure,
      Except.pure, order]

/-- The fill that `record_flatten` makes of it. -/
def fill (ticker : Ticker) : Fill ℚ := flattenFill (f.order ticker)

theorem checkFill_iff (ticker : Ticker) : checkFill (f.fill ticker) = .ok () ↔ ¬ f.RoundsToDollar := by
  have below := f.belowDollar
  have positive : (f.fill ticker).quantity.isPositive = true := (Quantity.isPositive_iff _).mpr f.executed
  rw [checkFill_eq_ok_iff, and_iff_left positive, isValidPrice_iff]
  unfold RoundsToDollar
  simp only [fill, flattenFill, order, complementPrice, kPriceBasis, kMaxPriceCents]
  by_cases bid : f.side = .yes
  · simp only [bid, ↓reduceIte]
    split <;> omega
  · simp only [bid, ↓reduceIte]
    split <;> omega

/-- The price on the order's side, the price booked, and the distance between them. -/
theorem missed_eq (ticker : Ticker) :
    f.ownCents - ((f.fill ticker).priceCents : ℚ) = (f.missed : ℚ) / 100 := by
  have below := f.belowDollar
  have hundredths : (if f.side = .yes then (f.averageFillPrice : Int) else 10000 - f.averageFillPrice) -
      100 * (f.fill ticker).priceCents = f.missed := by
    unfold missed
    simp only [fill, flattenFill, order, complementPrice, kPriceBasis, kMaxPriceCents]
    by_cases bid : f.side = .yes
    · simp only [bid, ↓reduceIte]
      split <;> split <;> omega
    · simp only [bid, ↓reduceIte]
      split <;> split <;> omega
  rw [← hundredths]
  unfold ownCents
  by_cases bid : f.side = .yes
  · simp only [bid, ↓reduceIte]
    push_cast
    ring
  · simp only [bid, ↓reduceIte]
    push_cast
    ring

theorem flatten_answered {X : Type} {venue : Venue X} {ticker : Ticker} {x : X}
    (answered : (venue.host.post venue.rest.ordersUrl (RestClient.flattenBody ticker f.position) x).1 =
      .ok f.response) :
    venue.rest.flatten venue.host ℚ ticker f.position x =
      (.ok (f.order ticker),
        (venue.host.post venue.rest.ordersUrl (RestClient.flattenBody ticker f.position) x).2) := by
  have opened : ¬ f.position.isZero = true := fun zero => f.held ((Quantity.isZero_iff _).mp zero)
  unfold RestClient.flatten
  rw [if_neg opened]
  unfold RestClient.placeOrder
  simp only [↓reduceIte, List.append_nil]
  rw [bind_apply]
  unfold Host.request
  change andThen _ (ofExcept (venue.host.post venue.rest.ordersUrl (RestClient.flattenBody ticker f.position) x).1
    _) = _
  rw [answered, ofExcept_ok, andThen_ok]
  change ofExcept (placedOrder ℚ f.response ticker f.side kMaxPriceCents f.position.abs .market) _ = _
  rw [placedOrder_response]
  rfl

end Flattening

section

variable [Elementary ℚ] {X : Type} (venue : Venue X) (ticker : Ticker)

/-- Flattens of one market, one after another. -/
def closeOut (positions : List Quantity) : Eff (Desk ℚ X) String Unit :=
  Eff.forEach positions (flattenPosition venue ticker)

omit [Elementary ℚ] in
/-- The exchange answers the flattens in turn. -/
def Answered : List Flattening → X → Prop
  | [], _ => True
  | f :: flattens, x =>
    (venue.host.post venue.rest.ordersUrl (RestClient.flattenBody ticker f.position) x).1 = .ok f.response ∧
      Answered flattens (venue.host.post venue.rest.ordersUrl (RestClient.flattenBody ticker f.position) x).2

variable {venue} {ticker}

/-- Recording a flatten: booked where its fill passes the checks, and the end of the process where it does not. -/
theorem flattenPosition_run {f : Flattening} {s : Desk ℚ X}
    (answered : (venue.host.post venue.rest.ordersUrl (RestClient.flattenBody ticker f.position) s.outside).1 =
      .ok f.response) :
    (checkFill (f.fill ticker) ≠ .ok () ∧
      ∃ what, (flattenPosition venue ticker f.position s).1 = .error (.abort what)) ∨
    checkFill (f.fill ticker) = .ok () ∧ ∃ s', flattenPosition venue ticker f.position s = (.ok (), s') ∧
      s'.orderMgr = (s.orderMgr.recorded (f.fill ticker)).2 ∧
      s'.outside = (venue.host.post venue.rest.ordersUrl (RestClient.flattenBody ticker f.position) s.outside).2 := by
  have positive : (f.order ticker).filledQuantity.isPositive = true := (Quantity.isPositive_iff _).mpr f.executed
  unfold flattenPosition
  rw [bind_apply, onPart_apply, f.flatten_answered answered]
  dsimp only
  rw [andThen_ok]
  rcases recordFlatten_run positive ({ s with outside := _ } : Desk ℚ X) with
    ⟨invalid, what, aborted⟩ | ⟨valid, calls, emitted, recorded⟩
  · rw [aborted]
    exact .inl ⟨invalid, what, rfl⟩
  · rw [recorded]
    exact .inr ⟨valid, _, rfl, rfl, rfl⟩

theorem closeOut_run {flattens : List Flattening} {s : Desk ℚ X}
    (answered : Answered venue ticker flattens s.outside) :
    ((∃ f ∈ flattens, f.RoundsToDollar) ∧
      ∃ what, (closeOut venue ticker (flattens.map Flattening.position) s).1 = .error (.abort what)) ∨
    (∀ f ∈ flattens, ¬ f.RoundsToDollar) ∧ (closeOut venue ticker (flattens.map Flattening.position) s).1 = .ok () ∧
      (closeOut venue ticker (flattens.map Flattening.position) s).2.orderMgr =
        s.orderMgr.recordAll (flattens.map fun f => f.fill ticker) := by
  induction flattens generalizing s with
  | nil => exact .inr ⟨by simp, rfl, rfl⟩
  | cons f flattens ih =>
    unfold closeOut at ih ⊢
    rw [List.map_cons, forEach_cons]
    -- a price that rounds to the dollar fails the fill's check and ends the walk
    rcases flattenPosition_run answered.1 with ⟨invalid, what, aborted⟩ | ⟨valid, s', ran, orders, outside⟩
    · left
      rw [ne_eq, f.checkFill_iff, not_not] at invalid
      refine ⟨⟨f, List.mem_cons_self .., invalid⟩, what, ?_⟩
      cases ran : flattenPosition venue ticker f.position s with
      | mk result after =>
        rw [ran] at aborted
        cases aborted
        rfl
    · rw [f.checkFill_iff] at valid
      rw [ran, andThen_ok]
      rcases ih (outside ▸ answered.2) with ⟨⟨g, member, dollar⟩, stopped⟩ | ⟨kept, ended, booked⟩
      · exact .inl ⟨⟨g, List.mem_cons_of_mem _ member, dollar⟩, stopped⟩
      · refine .inr ⟨?_, ended, ?_⟩
        · intro g member
          rcases List.mem_cons.mp member with rfl | later
          · exact valid
          · exact kept g later
        · rw [booked, orders]
          rfl

/-! ### Cash -/

/-- What a contract brings in once the position is closed: one of YES costs its price, and one of NO sells YES for the
rest of the dollar. -/
def yesCash (side : Side) (ownCents : ℚ) : ℚ := if side = .yes then -ownCents else 100 - ownCents

/-- What the executions of a market come to at the prices and fees of the exchange. -/
def trueCash (fills : List (Fill ℚ)) (flattens : List Flattening) (ticker : Ticker) : ℚ :=
  ((fillsOn fills ticker).map fun fill =>
      fill.quantity.contracts * yesCash fill.side fill.priceCents - fill.feeCents).sum +
    (flattens.map fun f => f.filled.contracts * yesCash f.side f.ownCents - f.fee).sum

omit [Elementary ℚ] in
/-- The position that executions lead to. -/
def signedUnits (fills : List (Fill ℚ)) (flattens : List Flattening) (ticker : Ticker) : Int :=
  ((fillsOn fills ticker).map fun fill => fill.side.toward fill.quantity.centi).sum +
    (flattens.map fun f => f.side.toward f.filled.centi).sum

/-- In a flat market what was realized is the cash of its fills. -/
theorem OrderManager.Netted.realized_flat {om : OrderManager ℚ} {fills : List (Fill ℚ)} (netted : om.Netted fills)
    (positive : ∀ fill ∈ fills, 0 < fill.quantity.centi) {ticker : Ticker}
    (flat : ((fillsOn fills ticker).map fun fill => fill.side.toward fill.quantity.centi).sum = 0) :
    om.realizedPnl ticker = ((fillsOn fills ticker).map fun fill =>
      fill.quantity.contracts * yesCash fill.side fill.priceCents - fill.feeCents).sum := by
  have even : (total (arrivals fills .yes ticker) : Int) = total (arrivals fills .no ticker) := by
    rw [← total_arrivals_sub] at flat
    omega
  have closed := netted.closedForm positive ticker
  have unrealized : om.unrealizedPnl ticker 0 = 0 := by
    unfold unrealizedPnl
    rw [(closed.yesOnly even.ge).1, (closed.noOnly even.le).1]
    rfl
  have marked := netted.marked positive ticker 0
  rw [unrealized, add_zero] at marked
  rw [marked, markedPnl, totalFees, sub_eq_iff_eq_add, ← List.sum_map_add]
  congr 1
  apply List.map_congr_left
  intro fill _
  unfold yesCash nativeMark
  cases fill.side <;> simp [kContractMaxCents]

/-- What one flatten is booked at, beside its cash. -/
theorem booked_cash (f : Flattening) (ticker : Ticker) :
    (f.fill ticker).quantity.contracts * yesCash (f.fill ticker).side (f.fill ticker).priceCents -
        (f.fill ticker).feeCents =
      f.filled.contracts * yesCash f.side f.ownCents - f.fee +
        (f.lost : ℚ) / 10000 := by
  have missed := f.missed_eq ticker
  have price : ((f.fill ticker).priceCents : ℚ) = f.ownCents - (f.missed : ℚ) / 100 := by linarith
  have quantity : (f.fill ticker).quantity = f.filled := rfl
  have side : (f.fill ticker).side = f.side := rfl
  have unpaid : (f.fill ticker).feeCents = 0 := Int.cast_zero
  rw [price, quantity, side, unpaid, contracts_eq]
  unfold Flattening.fee Flattening.lost yesCash
  push_cast
  split <;> ring

theorem booked_sum (flattens : List Flattening) (ticker : Ticker) :
    ((flattens.map fun f => f.fill ticker).map fun fill =>
        fill.quantity.contracts * yesCash fill.side fill.priceCents - fill.feeCents).sum =
      (flattens.map fun f => f.filled.contracts * yesCash f.side f.ownCents - f.fee).sum +
        ((flattens.map Flattening.lost).sum : ℚ) / 10000 := by
  induction flattens with
  | nil => simp
  | cons f flattens ih =>
    simp only [List.map_cons, List.sum_cons, ih, booked_cash]
    push_cast
    ring

theorem fillsOn_flattens (fills : List (Fill ℚ)) (flattens : List Flattening) (ticker : Ticker) :
    fillsOn (fills ++ flattens.map fun f => f.fill ticker) ticker =
      fillsOn fills ticker ++ flattens.map fun f => f.fill ticker := by
  unfold fillsOn
  rw [List.filter_append]
  congr 1
  apply List.filter_eq_self.mpr
  intro fill member
  obtain ⟨f, _, rfl⟩ := List.mem_map.mp member
  exact decide_eq_true rfl

/-- The flattens are recorded, and the market comes to the cash of its executions. -/
structure AtTrueCash (fills : List (Fill ℚ)) (flattens : List Flattening) (ticker : Ticker)
    (after : Except (Stop String) Unit × Desk ℚ X) : Prop where
  recorded : after.1 = .ok ()
  realized : after.2.orderMgr.realizedPnl ticker = trueCash fills flattens ticker

/-- After any fills, flattens that leave their market flat are booked at their cash exactly if none has a price within
half a cent of the dollar, and what the booked prices miss comes to nothing together with the fees. -/
theorem flatten_cash_iff (venue : Venue X) (ticker : Ticker) {fills : List (Fill ℚ)}
    (valid : ∀ fill ∈ fills, checkFill fill = .ok ()) {flattens : List Flattening}
    (distinct : ((fills ++ flattens.map fun f => f.fill ticker).map fillKey).Nodup)
    (flat : signedUnits fills flattens ticker = 0) {s : Desk ℚ X} (session : s.orderMgr = empty.recordAll fills)
    (answered : Answered venue ticker flattens s.outside) :
    AtTrueCash fills flattens ticker (closeOut venue ticker (flattens.map Flattening.position) s) ↔
      (∀ f ∈ flattens, ¬ f.RoundsToDollar) ∧
        (flattens.map Flattening.lost).sum = 0 := by
  rcases closeOut_run answered with ⟨⟨f, member, dollar⟩, what, aborted⟩ | ⟨kept, ended, booked⟩
  · constructor
    · intro settled
      cases settled.recorded.symm.trans aborted
    · exact fun holds => absurd dollar (holds.1 f member)
  · have all : ∀ fill ∈ fills ++ flattens.map (fun f => f.fill ticker), checkFill fill = .ok () := by
      intro fill member
      rcases List.mem_append.mp member with earlier | flattened
      · exact valid fill earlier
      · obtain ⟨f, among, rfl⟩ := List.mem_map.mp flattened
        exact (f.checkFill_iff ticker).mpr (kept f among)
    have orders : (closeOut venue ticker (flattens.map Flattening.position) s).2.orderMgr =
        empty.recordAll (fills ++ flattens.map fun f => f.fill ticker) := by
      rw [booked, session]
      exact (List.foldl_append ..).symm
    have even : ((fillsOn (fills ++ flattens.map fun f => f.fill ticker) ticker).map fun fill =>
        fill.side.toward fill.quantity.centi).sum = 0 := by
      rw [fillsOn_flattens, List.map_append, List.sum_append, List.map_map]
      exact flat
    -- a flat book has realized all it ever will, fees included
    have realized := (recordAll_netted all distinct).realized_flat
      (fun fill member => positive_of_checkFill (all fill member)) even
    rw [← orders, fillsOn_flattens, List.map_append, List.sum_append, booked_sum, ← add_assoc] at realized
    change _ = trueCash fills flattens ticker + _ at realized
    constructor
    · intro settled
      rw [settled.realized, left_eq_add, div_eq_zero_iff, or_iff_left (by norm_num), Int.cast_eq_zero] at realized
      exact ⟨kept, realized⟩
    · rintro ⟨_, even⟩
      rw [even, Int.cast_zero, zero_div, add_zero] at realized
      exact ⟨ended, realized⟩

end

/-- A host that gives a list of answers to its posts, one by one. -/
def answeringHost : Host (List HttpResponse) where
  get _ x := (.error "not asked", x)
  post _ _ x := (x.head?.elim (.error "no answer") .ok, x.tail)
  delete _ x := (.error "not asked", x)
  steadyNow x := (0, x)
  systemNow x := (0, x)
  arrange _ keys := keys
  arrange_perm _ keys := .refl keys

/-- One contract bought on a side, and flattened. -/
def oneContract (side : Side) (priceCents : Int) : Fill ℚ :=
  { tradeId := "trade", orderId := "order-1", marketTicker := "M", side, priceCents, quantity := ⟨100⟩, feeCents := 0,
    isTaker := false, timestamp := 0 }

def flatteningDesk (fill : Fill ℚ) (answers : List HttpResponse) : Desk ℚ (List HttpResponse) :=
  { (Process.start { tickers := ["M"] } {} {} answers none none false false : Process ℚ (List HttpResponse)).desk with
    orderMgr := empty.recordAll [fill] }

def oneFlatten (position : Int) (averageFillPrice averageFeePaid : Nat) (held : position ≠ 0)
    (aboveZero : 0 < averageFillPrice) (belowDollar : averageFillPrice < 10000) : Flattening where
  position := ⟨position⟩
  orderId := "order-2"
  filled := ⟨100⟩
  averageFillPrice
  averageFeePaid
  tsMs := 0
  held
  executed := by decide
  aboveZero
  belowDollar

/-- A contract bought at 40 cents and sold at 55 without a fee. -/
theorem flatten_cash_iff_whole_cents :
    let venue : Venue (List HttpResponse) := ⟨⟨"exchange"⟩, answeringHost⟩
    let f := oneFlatten 100 5500 0 (by decide) (by decide) (by decide)
    AtTrueCash [oneContract .yes 40] [f] "M"
      (closeOut venue "M" [f.position] (flatteningDesk (oneContract .yes 40) [f.response])) := by
  intro venue f
  have valid : ∀ fill ∈ [oneContract .yes 40], checkFill fill = .ok () := by
    intro fill member
    rw [List.mem_singleton.mp member]
    rfl
  have answered : Answered venue "M" [f] (flatteningDesk (oneContract .yes 40) [f.response]).outside := ⟨rfl, trivial⟩
  refine (@flatten_cash_iff _ _ venue "M" _ valid [f] (by decide +kernel) (by decide +kernel) _ rfl answered).mpr
    ⟨fun g member => ?_, by decide +kernel⟩
  rw [List.mem_singleton.mp member]
  decide +kernel

/-- A short position closed at 0.4 cents is booked at 99, a long one sold at 0.4 cents ends the process, and a fee is
not booked at all. -/
theorem flatten_cash_lost :
    let venue : Venue (List HttpResponse) := ⟨⟨"exchange"⟩, answeringHost⟩
    let closed (side : Side) (f : Flattening) :=
      closeOut venue "M" [f.position] (flatteningDesk (oneContract side 60) [f.response])
    let cheap := oneFlatten (-100) 40 0 (by decide) (by decide) (by decide)
    let worthless := oneFlatten 100 40 0 (by decide) (by decide) (by decide)
    let charged := oneFlatten 100 5500 175 (by decide) (by decide) (by decide)
    (closed .no cheap).2.orderMgr.realizedPnl "M" = -59 ∧
      trueCash [oneContract .no 60] [cheap] "M" = 396 / 10 ∧
      (closed .yes worthless).1 = .error (.abort "fill price outside [1,99]") ∧
      (closed .yes charged).2.orderMgr.realizedPnl "M" = -5 ∧
      trueCash [oneContract .yes 60] [charged] "M" = -675 / 100 ∧
      ¬ AtTrueCash [oneContract .no 60] [cheap] "M" (closed .no cheap) := by
  intro venue closed cheap worthless charged
  have booked : (closed .no cheap).2.orderMgr.realizedPnl "M" = -59 := by decide +kernel
  have cash : trueCash [oneContract .no 60] [cheap] "M" = 396 / 10 := by decide +kernel
  refine ⟨booked, cash, by decide +kernel, by decide +kernel, by decide +kernel, fun settled => ?_⟩
  have same := settled.realized
  rw [booked, cash] at same
  norm_num at same

end Kalshi
