import KalshiMaker.Properties.PassiveQuotes
import KalshiMaker.Properties.RoundTrip
import KalshiMaker.Strategy.Twins
import KalshiMaker.Strategy.UpdateRun

/-! How far from the reservation value the orders go out, rounding, shading and clamping included. -/
namespace Kalshi

open Effect Eff Desk Relation Quoter

variable {F X : Type} [Floating F]

namespace Outlook

/-- The value an update quotes around. -/
def reservation (outlook : Outlook F) (quoter : Quoter F) : F :=
  lmsrSkewedFairValue (outlook.leanedVal quoter) outlook.inventory quoter.inventoryBContracts

def halfSpread (outlook : Outlook F) (quoter : Quoter F) : Int :=
  quoter.config.halfSpread outlook.imbalanced (outlook.fairVal quoter)

/-- The side that opens risk keeps the half-spread, the one that takes it off the unwind edge. -/
def KeepsEdge (outlook : Outlook ℝ) (quoter : Quoter ℝ) (price : Int) : Side → Prop
  | .yes =>
    (0 ≤ outlook.inventory → (price : ℝ) ≤ outlook.reservation quoter - outlook.halfSpread quoter) ∧
      (outlook.inventory < 0 → (price : ℝ) ≤ outlook.reservation quoter - quoter.config.unwindEdgeCents)
  | .no =>
    (outlook.inventory ≤ 0 → outlook.reservation quoter + outlook.halfSpread quoter ≤ (price : ℝ)) ∧
      (0 < outlook.inventory → outlook.reservation quoter + quoter.config.unwindEdgeCents ≤ (price : ℝ))

/-- Off the ends of the price range, a desired price keeps its edge. -/
theorem desired_keepsEdge (outlook : Outlook ℝ) {quoter : Quoter ℝ} (edge : 0 ≤ quoter.config.longshotEdgeCents)
    {marketBid marketAsk price : Int} {side : Side}
    (wanted : outlook.desired quoter marketBid marketAsk side = some price)
    (gated : 2 ≤ (legOf side).orderPrice price) : outlook.KeepsEdge quoter price side := by
  obtain ⟨bid, ask, around, raw⟩ :=
    QuoterConfig.rawQuotes_around edge (outlook.reservation quoter) (outlook.halfSpread quoter)
  have quotes := raw outlook.inventory
  cases side with
  | yes =>
    have atMost : price ≤ (quoter.config.rawQuotes (outlook.reservation quoter) (outlook.halfSpread quoter)
        outlook.inventory).1 := passiveBid_le wanted
    change 2 ≤ price at gated
    rw [quotes] at atMost
    constructor
    · intro long
      have bidding : price ≤ bid := by
        rw [if_neg (not_lt.mpr long)] at atMost
        split at atMost <;> exact atMost
      rcases around.below with lowest | below
      · omega
      · exact (Int.cast_le.mpr bidding).trans below
    · intro short
      rw [if_neg (not_lt.mpr short.le), if_pos short] at atMost
      have floored : price ≤ ⌊outlook.reservation quoter - quoter.config.unwindEdgeCents⌋ :=
        atMost.trans (min_le_right _ _)
      exact (Int.cast_le.mpr floored).trans (Int.floor_le _)
  | no =>
    have atLeast : (quoter.config.rawQuotes (outlook.reservation quoter) (outlook.halfSpread quoter)
        outlook.inventory).2 ≤ price := le_passiveAsk wanted
    have capped : price ≤ 98 := by
      change 2 ≤ 100 - price at gated
      omega
    rw [quotes] at atLeast
    constructor
    · intro short
      have asking : ask ≤ price := by
        rw [if_neg (not_lt.mpr short)] at atLeast
        split at atLeast <;> exact atLeast
      rcases around.above with highest | above
      · omega
      · exact above.trans (Int.cast_le.mpr asking)
    · intro long
      rw [if_pos long] at atLeast
      have raised : ⌈outlook.reservation quoter + quoter.config.unwindEdgeCents⌉ ≤ price :=
        (le_max_right _ _).trans atLeast
      exact (Int.le_ceil _).trans (Int.cast_le.mpr raised)

end Outlook

/-! ### What an update sends -/

theorem Posture.apart_of_wouldCross {s : Desk F X} {ticker : Ticker} {side : Side} {desired : Int}
    (apart : wouldCross s ticker side desired = false) : s.posture.Apart ticker side desired := by
  unfold wouldCross at apart
  rcases Bool.and_eq_false_iff.mp apart with empty | clear
  · exact .inl (bne_eq_false_iff_eq.mp empty)
  · exact .inr clear

namespace Quoter

/-- An update goes by an outlook where it brings the quotes to the prices of that outlook. -/
structure GoesBy (venue : Venue X) (s : Desk F X) (ticker : Ticker) (book : LocalOrderbook) (bestBid bestAsk : Level)
    (outlook : Outlook F) : Prop where
  pricesOff : PricesOff venue s ticker (s.bookWithoutOwnQuotes ticker book) bestBid bestAsk outlook
  runs : ∃ x, update venue ticker book s =
    applyQuotes venue ticker outlook.inventory
      (outlook.desired s.quoter bestBid.priceCents bestAsk.priceCents .yes)
      (outlook.desired s.quoter bestBid.priceCents bestAsk.priceCents .no)
      ((notePriced ticker book s).2.decided outlook bestBid bestAsk x)

theorem desired_of_aimOf {barred : Side → Bool} {desired : Aim} {side : Side} {price : Int}
    (aimed : aimOf barred (desired .yes) (desired .no) side = some price) : desired side = some price := by
  cases side with
  | yes | no =>
    simp only [aimOf] at aimed
    split at aimed
    · cases aimed
    · exact aimed

/-- What is sent on a market, and passed the pre-trade checks. -/
def Sends (risk : RiskManager F) (aim : Aim) (ticker : Ticker) (call : Call F) : Prop :=
  ∀ market side price, call.quoted = some (market, side, price) →
    market = ticker ∧ aim side = some price ∧
      ∃ quantity, risk.checkOrder ticker side ((legOf side).orderPrice price) quantity = true

end Quoter

theorem Request.sends {venue : Venue X} {aim : Aim} {ticker : Ticker} {side : Side} {u v : Posture F}
    (request : Request venue aim ticker side u v) :
    v.ledger.riskMgr = u.ledger.riskMgr ∧
      ∃ call, v.ledger.calls = u.ledger.calls ++ [⟨call, u.ledger.tickers⟩] ∧
        Sends u.ledger.riskMgr aim ticker call := by
  have order : ∀ {call : Call F} {desired quantity : Int}, aim side = some desired →
      u.ledger.riskMgr.checkOrder ticker side ((legOf side).orderPrice desired) quantity = true →
      call.quoted = some (ticker, side, (legOf side).orderPrice ((legOf side).orderPrice desired)) →
      Sends u.ledger.riskMgr aim ticker call := by
    intro call desired quantity wanted passed quoted market leg price sent
    rw [quoted, orderPrice_orderPrice] at sent
    cases sent
    exact ⟨rfl, wanted, quantity, passed⟩
  cases request with
  | placed wanted _ _ passed _ _ _ _ _ _ => exact ⟨rfl, _, rfl, order wanted passed rfl⟩
  | placeFailed wanted _ _ passed => exact ⟨rfl, _, rfl, order wanted passed rfl⟩
  | amended wanted _ _ passed => exact ⟨rfl, _, rfl, order wanted passed rfl⟩
  | amendFailed wanted _ _ passed => exact ⟨rfl, _, rfl, order wanted passed rfl⟩
  | released | forgotten _ | kept => exact ⟨rfl, _, rfl, nofun⟩

theorem requests_send {venue : Venue X} {aim : Aim} {ticker : Ticker} {u v : Posture F}
    (chain : ReflTransGen (fun u v => ∃ side, Request venue aim ticker side u v) u v) :
    v.ledger.riskMgr = u.ledger.riskMgr ∧
      ∃ later, v.ledger.calls = u.ledger.calls ++ later ∧
        ∀ entry ∈ later, Sends u.ledger.riskMgr aim ticker entry.call := by
  induction chain with
  | refl => exact ⟨rfl, [], (List.append_nil _).symm, fun _ member => by cases member⟩
  | tail _ step ih =>
    obtain ⟨side, request⟩ := step
    obtain ⟨risk, later, calls, sends⟩ := ih
    obtain ⟨sameRisk, call, added, sent⟩ := request.sends
    refine ⟨sameRisk.trans risk, later ++ [⟨call, _⟩], by rw [added, calls, List.append_assoc], fun entry member => ?_⟩
    rcases List.mem_append.mp member with before | last
    · exact sends entry before
    · rw [List.mem_singleton.mp last, ← risk]
      exact sent

/-- An update that goes by an outlook is requests for what is desired there. -/
theorem Quoter.GoesBy.requests {venue : Venue X} {ticker : Ticker} {book : LocalOrderbook} {s : Desk F X}
    {bestBid bestAsk : Level} {outlook : Outlook F} (goesBy : GoesBy venue s ticker book bestBid bestAsk outlook) :
    ∃ aim : Aim, (∀ side price, aim side = some price →
        outlook.desired s.quoter bestBid.priceCents bestAsk.priceCents side = some price) ∧
      ReflTransGen (fun u v => ∃ side, Request venue aim ticker side u v) s.posture
        (update venue ticker book s).2.posture := by
  obtain ⟨y, ran⟩ := goesBy.runs
  let t := (notePriced ticker book s).2.decided outlook bestBid bestAsk y
  let aim := aimOf (t.quoter.suppressed outlook.inventory)
    (outlook.desired s.quoter bestBid.priceCents bestAsk.priceCents .yes)
    (outlook.desired s.quoter bestBid.priceCents bestAsk.priceCents .no)
  have leads : Leads Desk.posture (fun u v => ∃ side, Request venue aim ticker side u v)
      (applyQuotes venue ticker outlook.inventory _ _) t :=
    applyQuotes_leads (posture_guided venue ticker aim) _ _ _ t fun side desired s' aimed apart =>
      ⟨aimed, Posture.apart_of_wouldCross apart⟩
  refine ⟨aim, fun side price aimed => desired_of_aimOf aimed, ?_⟩
  rw [ran]
  exact leads

/-- Where an update goes by an outlook, it sends what it desires there and what passes the checks. -/
theorem Quoter.GoesBy.sends {venue : Venue X} {ticker : Ticker} {book : LocalOrderbook} {s : Desk F X}
    {bestBid bestAsk : Level} {outlook : Outlook F} (goesBy : GoesBy venue s ticker book bestBid bestAsk outlook) :
    ∀ entry ∈ s.callsSince (update venue ticker book s).2,
      Sends s.riskMgr (outlook.desired s.quoter bestBid.priceCents bestAsk.priceCents) ticker entry.call := by
  obtain ⟨aim, aimed, chain⟩ := goesBy.requests
  obtain ⟨_, later, calls, sends⟩ := requests_send chain
  rw [s.callsSince_of_append calls]
  intro entry member market side price quoted
  obtain ⟨here, wanted, passed⟩ := sends entry member market side price quoted
  exact ⟨here, aimed side price wanted, passed⟩

/-- An update sends nothing, or it goes by an outlook. -/
theorem update_goesBy (venue : Venue X) (ticker : Ticker) (book : LocalOrderbook) (s : Desk F X) :
    s.callsSince (update venue ticker book s).2 = [] ∨
      ∃ bestBid bestAsk outlook, GoesBy venue s ticker book bestBid bestAsk outlook := by
  by_cases degenerate : (s.bookWithoutOwnQuotes ticker book).Degenerate
  · left
    rw [update_degenerate venue degenerate]
    exact s.callsSince_of_append (List.append_nil _).symm
  · unfold LocalOrderbook.Degenerate at degenerate
    push Not at degenerate
    obtain ⟨bestBid, bestAsk, bid, ask, apart⟩ := degenerate
    obtain ⟨outlook, x, y, pricesOff, ran⟩ := update_priced venue bid ask apart
    split at ran
    next finite => exact .inr ⟨bestBid, bestAsk, outlook, pricesOff, y, ran⟩
    next infinite =>
      left
      rw [ran]
      exact s.callsSince_of_append (List.append_nil _).symm

/-- In real arithmetic, with the price gate at two cents or above and no longshot edge below nothing, an update sends
nothing or goes by an outlook, and what it sends keeps the edge of every outlook it goes by. -/
theorem sent_orders_keep_edge (venue : Venue X) (s : Desk ℝ X) (gate : 2 ≤ s.riskMgr.limits.minQuotePriceCents)
    (edge : 0 ≤ s.quoter.config.longshotEdgeCents) (ticker : Ticker) (book : LocalOrderbook) :
    (s.callsSince (update venue ticker book s).2 = [] ∨
      ∃ bestBid bestAsk outlook, GoesBy venue s ticker book bestBid bestAsk outlook) ∧
    ∀ bestBid bestAsk outlook, GoesBy venue s ticker book bestBid bestAsk outlook →
      ∀ entry ∈ s.callsSince (update venue ticker book s).2, ∀ market side price,
        entry.call.quoted = some (market, side, price) →
          market = ticker ∧ outlook.KeepsEdge s.quoter price side := by
  refine ⟨update_goesBy venue ticker book s, ?_⟩
  intro bestBid bestAsk outlook goesBy entry member market side price quoted
  obtain ⟨here, wanted, quantity, passed⟩ := goesBy.sends entry member market side price quoted
  have banded := (RiskManager.checkOrder_price passed).1
  exact ⟨here, outlook.desired_keepsEdge edge wanted (gate.trans banded)⟩

theorem sent_orders_keep_edge_longshot :
    let venue : Venue Script := ⟨⟨"exchange"⟩, Script.host⟩
    let s : Desk ℝ Script := (Process.start { tickers := ["M"] } { useClearingPricing := true }
      { minQuotePriceCents := 2 }
      {} none none false false).desk
    let book : LocalOrderbook := ⟨⟨"M", [⟨28, ⟨1000⟩⟩], [⟨60, ⟨1000⟩⟩]⟩⟩
    (s.callsSince (update venue "M" book s).2 = [] ∨
      ∃ bestBid bestAsk outlook, GoesBy venue s "M" book bestBid bestAsk outlook) ∧
    ∀ bestBid bestAsk outlook, GoesBy venue s "M" book bestBid bestAsk outlook →
      ∀ entry ∈ s.callsSince (update venue "M" book s).2, ∀ market side price,
        entry.call.quoted = some (market, side, price) → market = "M" ∧ outlook.KeepsEdge s.quoter price side := by
  intro venue s book
  have gate : (2 : Int) ≤ 2 := le_rfl
  have edge : (0 : Int) ≤ 1 := by decide
  exact sent_orders_keep_edge venue s gate edge "M" book

/-! ### Where the longshot side is moved the other way -/

theorem OrderManager.place_asks (venue : Venue X) (ticker : Ticker) (side : Side) {price quantity : Int}
    (valid : isValidPrice price = true) (positive : 0 < quantity) (s : Desk F X) :
    ∃ reply, (OrderManager.place venue ticker side price quantity s).2.calls =
      s.calls ++ [⟨.place ticker side price quantity reply, s.session.tickers⟩] := by
  rcases OrderManager.place_cases venue ticker side price quantity s with ⟨what, refused⟩ | ⟨order, x, ran, _⟩ |
    ⟨what, x, ran⟩
  · exfalso
    unfold OrderManager.place ensure at refused
    rw [valid, decide_eq_true positive] at refused
    obtain ⟨x, ⟨order, placed, _⟩ | ⟨why, failed⟩⟩ :=
      venue.rest.placeOrder_cases venue.host (F := F) ticker side price
        (Quantity.fromContracts quantity) .limit s.outside
    · simp [issue, placed, mapOrders] at refused
    · simp [issue, failed] at refused
  · exact ⟨some order.id, by rw [ran]; rfl⟩
  · exact ⟨none, by rw [ran]; rfl⟩

namespace Quoter

/-- An empty slot whose price passes the checks sends its order. -/
theorem enter_asks (venue : Venue X) {ticker : Ticker} (side : Side) {desired : Int} (now : TimePoint) {s : Desk F X}
    (passed : s.riskMgr.checkOrder ticker side ((legOf side).orderPrice desired) s.quoter.config.quoteSize = true)
    (valid : isValidPrice ((legOf side).orderPrice desired) = true) (positive : 0 < s.quoter.config.quoteSize) :
    ∃ reply, (enter venue (legOf side) ticker desired now s).2.calls = s.calls ++
      [⟨.place ticker side ((legOf side).orderPrice desired) s.quoter.config.quoteSize reply, s.session.tickers⟩] := by
  obtain ⟨reply, asked⟩ := OrderManager.place_asks venue ticker side valid positive s
  refine ⟨reply, Eq.trans ?_ asked⟩
  unfold enter
  rw [bind_apply, get_apply, andThen_ok, legOf_side, if_pos passed, bind_apply]
  cases placed : OrderManager.place venue ticker side
    ((legOf side).orderPrice desired) s.quoter.config.quoteSize s with
  | mk result t =>
    cases result <;> rfl

end Quoter

namespace Quoter

/-- An update that wants a bid it may send, and has none, sends it. -/
theorem applyQuotes_bids (venue : Venue X) {ticker : Ticker} {inventory : F} {desired : Int} (desiredAsk : Option Int)
    {s : Desk F X} (trades : ∀ side, s.quoter.suppressed inventory side = false)
    (vacant : (s.quoter.ownQuotes ticker .yes).orderId = "") (apart : wouldCross s ticker .yes desired = false)
    (passed : s.riskMgr.checkOrder ticker .yes desired s.quoter.config.quoteSize = true)
    (valid : isValidPrice desired = true) (positive : 0 < s.quoter.config.quoteSize) :
    ∃ entry ∈ s.callsSince (applyQuotes venue ticker inventory (some desired) desiredAsk s).2,
      entry.call.quoted = some (ticker, .yes, desired) := by
  let now := (venue.host.steadyNow s.outside).1
  let t : Desk F X := { s with outside := (venue.host.steadyNow s.outside).2 }
  obtain ⟨reply, asked⟩ := enter_asks venue .yes now (s := t) passed valid positive
  have chosen : refreshUnless venue false (legOf .yes) ticker (some desired) now t =
      enter venue (legOf .yes) ticker desired now t := by
    change refresh venue (legOf .yes) ticker desired now t = _
    rw [refresh_choice, show choice t.quoter.config (legOf .yes) (t.quoter.ownQuotes ticker .yes) desired now = .enter
      from if_pos vacant]
    unfold carryOut
    rw [show wouldCross t ticker .yes desired = false from apart]
    rfl
  have ran : applyQuotes venue ticker inventory (some desired) desiredAsk s =
      (do enter venue (legOf .yes) ticker desired now
          refreshUnless venue false (legOf .no) ticker desiredAsk now) t := by
    rw [applyQuotes_at, trades .yes, trades .no]
    exact congrArg (andThen _) chosen
  -- the ask's refresh only adds to what was sent
  have grown : ∃ later, (applyQuotes venue ticker inventory (some desired) desiredAsk s).2.calls =
      (enter venue (legOf .yes) ticker desired now t).2.calls ++ later := by
    rw [ran, bind_apply]
    cases entered : enter venue (legOf .yes) ticker desired now t with
    | mk result u =>
      cases result with
      | error stop => exact ⟨[], (List.append_nil _).symm⟩
      | ok done =>
        let aim := aimOf (fun _ => false) none desiredAsk
        have leads := refreshUnless_leads (posture_guided venue ticker aim) false .no desiredAsk now u
          fun price _ target clear => ⟨target, Posture.apart_of_wouldCross clear⟩
        obtain ⟨_, later, calls, _⟩ := requests_send (leads.mono fun _ _ request => ⟨.no, request⟩)
        exact ⟨later, calls⟩
  obtain ⟨later, calls⟩ := grown
  rw [asked, List.append_assoc] at calls
  rw [s.callsSince_of_append calls]
  exact ⟨_, List.mem_append_left _ (List.mem_singleton_self _), rfl⟩

end Quoter

theorem LocalOrderbook.microPriceCents_even {visible : LocalOrderbook} {bid ask : Level}
    (bids : visible.bestBid = some bid) (asks : visible.bestAsk = some ask) (even : bid.quantity = ask.quantity)
    (offered : 0 < ask.quantity.centi) :
    (visible.microPriceCents : ℝ) = ((bid.priceCents : ℝ) + ask.priceCents) / 2 := by
  have present : (0 : ℝ) < ask.quantity.contracts := by
    change (0 : ℝ) < (ask.quantity.centi : ℝ) / ((Quantity.kCentiPerContract : Int) : ℝ)
    have counted : (0 : ℝ) < (ask.quantity.centi : ℝ) := Int.cast_pos.mpr offered
    have unit : (0 : ℝ) < ((Quantity.kCentiPerContract : Int) : ℝ) := Int.cast_pos.mpr (by decide)
    positivity
  unfold microPriceCents
  rw [bids, asks]
  dsimp only
  rw [even, if_neg (by linarith)]
  field_simp
  ring

/-- Off a first look and without a tape, clearing pricing takes the micro-price as it is. -/
theorem Outlook.fairVal_clearing {outlook : Outlook ℝ} {quoter : Quoter ℝ} {tapeWeight : ℝ}
    (model : quoter.model = .clearingPrice tapeWeight) (first : outlook.ema = none) (untraded : outlook.vwap = none)
    {value : ℝ} (micro : (outlook.visible.microPriceCents : ℝ) = value) (least : 1 ≤ value) (most : value ≤ 99) :
    outlook.fairVal quoter = value := by
  unfold Outlook.fairVal Outlook.smoothedMicro
  rw [model, first, untraded]
  change Floating.clamp (outlook.visible.microPriceCents : ℝ) ((1 : Int) : ℝ) ((99 : Int) : ℝ) = value
  unfold Floating.clamp
  rw [micro, if_neg (by push_cast; linarith), if_neg (by push_cast; linarith)]

/-- At the end of the range the shading is only cut off, and a negative one moves a longshot inwards. -/
theorem inward_shading_crosses_reservation :
    let venue : Venue Script := ⟨⟨"exchange"⟩, Script.host⟩
    let s : Desk ℝ Script := (Process.start { tickers := ["M"] }
      { longshotEdgeCents := -5, useClearingPricing := true }
      { minQuotePriceCents := 2 } {} none none false false).desk
    let book : LocalOrderbook := ⟨⟨"M", [⟨28, ⟨1000⟩⟩], [⟨60, ⟨1000⟩⟩]⟩⟩
    ∃ bestBid bestAsk outlook, GoesBy venue s "M" book bestBid bestAsk outlook ∧
      ∃ entry ∈ s.callsSince (update venue "M" book s).2, entry.call.quoted = some ("M", .yes, 37) ∧
        ¬ outlook.KeepsEdge s.quoter 37 .yes := by
  intro venue s book
  have bid : (s.bookWithoutOwnQuotes "M" book).bestBid = some ⟨28, ⟨1000⟩⟩ := rfl
  have ask : (s.bookWithoutOwnQuotes "M" book).bestAsk = some ⟨40, ⟨1000⟩⟩ := rfl
  obtain ⟨outlook, x, y, pricesOff, ran⟩ := update_priced venue bid ask (by decide)
  obtain ⟨_, _, _, _, _, _, ⟨rfl, _⟩, ⟨rfl, _⟩, ⟨rfl, _⟩, read⟩ := pricesOff.asked
  have micro : (outlook.visible.microPriceCents : ℝ) = 34 := by
    rw [read]
    exact (LocalOrderbook.microPriceCents_even bid ask rfl (by decide)).trans (by norm_num)
  -- nothing is held, so neither the skew nor the brake plays a part
  have flat : outlook.inventory = 0 := by
    rw [read]
    change ((⟨0⟩ : Quantity).contracts : ℝ) = 0
    norm_num [Quantity.contracts]
  have fair : outlook.fairVal s.quoter = 34 := by
    refine Outlook.fairVal_clearing rfl ?_ ?_ micro (by norm_num) (by norm_num)
    · rw [read]
      rfl
    · rw [read]
      rfl
  have leaned : outlook.leanedVal s.quoter = 34 := by
    rw [← fair, read]
    rfl
  have reservation : outlook.reservation s.quoter = 34 := by
    unfold Outlook.reservation
    rw [leaned, flat]
    exact if_pos (.inr (decide_eq_true rfl))
  have halfSpread : outlook.halfSpread s.quoter = 2 := by
    rw [read]
    change 2 + (if (0 : ℝ) < 0 then _ else 0) = (2 : Int)
    rw [if_neg (lt_irrefl _), add_zero]
  -- the negative edge takes the bid from 32 up to 37, past the reservation value
  have wanted : outlook.desired s.quoter 28 40 .yes = some 37 := by
    change passiveBid (s.quoter.config.rawQuotes (outlook.reservation s.quoter) (outlook.halfSpread s.quoter)
      outlook.inventory).1 40 = _
    rw [QuoterConfig.rawQuotes_shaded, reservation, halfSpread, flat, if_neg (lt_irrefl _), if_neg (lt_irrefl _)]
    have below : (computeQuotes (34 : ℝ) 2).1 = 32 := by
      change clampInt ⌊(34 : ℝ) - ((2 : Int) : ℝ)⌋ kBidMinCents kBidMaxCents = 32
      norm_num
      decide
    rw [below]
    rfl
  have finite : Floating.isFinite (outlook.fairVal s.quoter) = true := by
    rw [fair]
    change decide (|(34 : ℝ)| < 2 ^ 1024) = true
    rw [decide_eq_true_eq, abs_of_pos (by norm_num)]
    have grows : (2 : ℝ) ^ 6 < 2 ^ 1024 := pow_lt_pow_right₀ one_lt_two (by decide)
    exact lt_trans (by norm_num) grows
  rw [if_pos finite] at ran
  refine ⟨_, _, outlook, ⟨pricesOff, y, ran⟩, ?_⟩
  have trades : ∀ side, ((notePriced "M" book s).2.decided outlook ⟨28, ⟨1000⟩⟩ ⟨40, ⟨1000⟩⟩ y).quoter.suppressed 0
    side =
      false := by
    have capped : (0 : ℝ) < ((2 : Int) : ℝ) * ((10 : Int) : ℝ) := by norm_num
    rintro (_ | _)
    · exact decide_eq_false (not_le.mpr capped)
    · exact decide_eq_false (not_le.mpr (neg_lt_zero.mpr capped))
  have sized : (0 : Int) < 10 := by decide
  obtain ⟨entry, sent, quoted⟩ := @applyQuotes_bids _ _ _ venue "M" _ 37 (outlook.desired s.quoter 28 40 .no) _ trades
    rfl rfl rfl rfl sized
  refine ⟨entry, ?_, quoted, ?_⟩
  · rw [ran, flat, wanted]
    exact sent
  · intro keeps
    have inside := (keeps.1 flat.ge).trans_eq (by rw [reservation, halfSpread])
    norm_num at inside

end Kalshi
