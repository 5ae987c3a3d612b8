import KalshiMaker.Engine.Settings
import KalshiMaker.Net.ScriptedHost
import KalshiMaker.Strategy.PricingTwins

/-! What a market's earlier stay leaves behind for its first quote after it is adopted again. -/
namespace Kalshi

open Effect Eff Desk Quoter TradingSession

variable {F X : Type} [Floating F]

/-- The desk with a quoter that remembers nothing of any market. -/
def Desk.forgetful (s : Desk F X) : Desk F X :=
  { s with quoter := { s.quoter with fvEma := fun _ => none, ownQuotes := fun _ _ => {} } }

variable (venue : Venue X)

/-- The desk as `add_market` hands it to the first update. -/
def Desk.adopted (s : Desk F X) (snapshot : Orderbook) : Desk F X :=
  { s with
    session := ((s.session.adopt snapshot.ticker).setBook snapshot.ticker
      (LocalOrderbook.applySnapshot snapshot)).seeded snapshot.ticker (venue.host.steadyNow s.outside).1
    outside := (venue.host.steadyNow s.outside).2 }

theorem addMarket_adopted (snapshot : Orderbook) (s : Desk F X) :
    addMarket venue snapshot s =
      Eff.tryCatch (update venue snapshot.ticker (LocalOrderbook.applySnapshot snapshot)) (fun _ => pure ())
        (s.adopted venue snapshot) := rfl

/-- The bid and the ask an update works towards, where it prices the book at all. -/
def Desk.wants (s : Desk F X) (ticker : Ticker) (book : LocalOrderbook) : Option (Option Int × Option Int) :=
  let visible := s.bookWithoutOwnQuotes ticker book
  match visible.bestBid, visible.bestAsk with
  | some bestBid, some bestAsk =>
    if bestAsk.priceCents ≤ bestBid.priceCents then none
    else (desiredQuotes venue ticker visible bestBid.priceCents bestAsk.priceCents s).1.toOption.map Prod.snd
  | _, _ => none

/-- The desired prices of the first update after an adoption, and the calls on the order manager. -/
def Desk.firstQuote (s : Desk F X) (snapshot : Orderbook) : Option (Option Int × Option Int) × List (Entry F) :=
  ((s.adopted venue snapshot).wants venue snapshot.ticker (LocalOrderbook.applySnapshot snapshot),
    s.callsSince (addMarket venue snapshot s).2)

def LocalOrderbook.Quotable (book : LocalOrderbook) : Prop :=
  ∃ bestBid bestAsk, book.bestBid = some bestBid ∧ book.bestAsk = some bestAsk ∧
    bestBid.priceCents < bestAsk.priceCents

/-- Nothing is left of an earlier stay that bears on the first quote: no slot holds an order, and the price that was
kept leaves the micro-price as it is. -/
structure Desk.Cleared (s : Desk F X) (ticker : Ticker) (book : LocalOrderbook) : Prop where
  vacant : ∀ side, (s.quoter.ownQuotes ticker side).orderId = ""
  unsmoothed : book.Quotable → ∀ ema, s.quoter.fvEma ticker = some ema →
    s.quoter.config.fvEmaAlpha * book.microPriceCents + (((1 : Int) : F) - s.quoter.config.fvEmaAlpha) * ema =
      book.microPriceCents

/-! ### Pricing -/

/-- The desk with a quoter that remembers these prices and slots. -/
def Desk.recalling (s : Desk F X) (fvEma : Ticker → Option F) (ownQuotes : Ticker → OwnQuote) : Desk F X :=
  { s with quoter := { s.quoter with fvEma, ownQuotes } }

/-- Two desks that differ in nothing but what their quoters remember, neither with an order in a slot of `ticker`. -/
structure Desk.Unlike (ticker : Ticker) (s s' : Desk F X) : Prop where
  same : ∃ fvEma ownQuotes, s' = s.recalling fvEma ownQuotes
  vacant : ∀ side, (s.quoter.ownQuotes ticker side).orderId = ""
  vacant' : ∀ side, (s'.quoter.ownQuotes ticker side).orderId = ""

namespace Desk.Unlike

variable {ticker : Ticker} {s s' : Desk F X}

theorem smoothedMicro_alike (unlike : Unlike ticker s s') {micro : F}
    (smoothed : ∀ ema, s.quoter.fvEma ticker = some ema →
      s.quoter.config.fvEmaAlpha * micro + (((1 : Int) : F) - s.quoter.config.fvEmaAlpha) * ema = micro)
    (unsmoothed : s'.quoter.fvEma ticker = none) :
    Alike (Unlike ticker) (smoothedMicro ticker micro) (smoothedMicro ticker micro) s s' := by
  obtain ⟨⟨fvEma, ownQuotes, rfl⟩, vacant, vacant'⟩ := unlike
  have fresh : smoothedMicro ticker micro (s.recalling fvEma ownQuotes) =
      (.ok micro, s.recalling (Function.update fvEma ticker (some micro)) ownQuotes) := by
    change fvEma ticker = none at unsmoothed
    simp [smoothedMicro, mapQuoter, Desk.recalling, unsmoothed]
  have stale : smoothedMicro ticker micro s =
      (.ok micro, s.recalling (Function.update s.quoter.fvEma ticker (some micro)) s.quoter.ownQuotes) := by
    cases kept : s.quoter.fvEma ticker with
    | none => simp [smoothedMicro, mapQuoter, Desk.recalling, kept]
    | some ema => simp [smoothedMicro, mapQuoter, Desk.recalling, kept, smoothed ema kept]
  unfold Eff.Alike
  rw [stale, fresh]
  exact ⟨rfl, ⟨_, _, rfl⟩, vacant, vacant'⟩

theorem pricesAlike : @PricesAlike F X _ venue ticker (Unlike ticker) where
  gauges := by
    rintro s _ ⟨⟨_, _, rfl⟩, _, _⟩
    exact ⟨rfl, rfl, rfl, rfl, rfl, rfl, rfl⟩
  system := by
    rintro s _ ⟨⟨_, _, rfl⟩, vacant, vacant'⟩
    exact ⟨rfl, ⟨_, _, rfl⟩, vacant, vacant'⟩
  emit := by
    rintro s _ emission ⟨⟨_, _, rfl⟩, vacant, vacant'⟩
    exact ⟨⟨_, _, rfl⟩, vacant, vacant'⟩

theorem desiredQuotes_alike (unlike : Unlike ticker s s') {visible : LocalOrderbook} (marketBid marketAsk : Int)
    (smoothed : ∀ ema, s.quoter.fvEma ticker = some ema →
      s.quoter.config.fvEmaAlpha * visible.microPriceCents + (((1 : Int) : F) - s.quoter.config.fvEmaAlpha) * ema =
        visible.microPriceCents)
    (unsmoothed : s'.quoter.fvEma ticker = none) :
    Alike (Unlike ticker) (desiredQuotes venue ticker visible marketBid marketAsk)
      (desiredQuotes venue ticker visible marketBid marketAsk) s s' :=
  (pricesAlike venue).desiredQuotes marketBid marketAsk (unlike.smoothedMicro_alike smoothed unsmoothed)

end Desk.Unlike

/-! ### The first update -/

/-- The same outside, and vacant slots or equal orders on one market; what was smoothed is not compared. -/
def readopting (ticker : Ticker) : Likeness F X X where
  scope := (· = ticker)
  outside := (· = ·)
  readings _ _ _ _ := True
  flags := False
  smoothing _ _ := True

omit [Floating F] in
theorem readopting_venues (ticker : Ticker) : (readopting (F := F) (X := X) ticker).Venues venue venue where
  rest := rfl
  post url body x x' same := by
    cases same
    exact ⟨rfl, rfl, fun _ _ _ => trivial⟩
  delete url x x' same := by
    cases same
    exact ⟨rfl, rfl, fun _ _ _ => trivial⟩
  steady x x' same := by
    cases same
    exact ⟨⟨rfl, fun _ _ _ => trivial⟩, trivial⟩

section

variable {venue} {ticker : Ticker} {s s' : Desk F X}

theorem Desk.Unlike.twins (unlike : Unlike ticker s s') : (readopting ticker).Twins s s' := by
  obtain ⟨⟨fvEma, ownQuotes, rfl⟩, vacant, vacant'⟩ := unlike
  refine ⟨rfl, rfl, rfl, rfl, rfl, rfl, rfl, rfl, rfl, trivial, ?_⟩
  rintro _ side rfl
  have held : ∀ {P : Prop}, (s.quoter.ownQuotes _ side).orderId ≠ "" → P := fun held => absurd (vacant side) held
  exact ⟨(vacant side).trans (vacant' side).symm, held, held, False.elim⟩

/-- A slot that holds no order is entered, whatever it held before. -/
theorem choice_vacant {config : QuoterConfig F} {leg : QuoteLeg} {slot : QuoteSlot} {desired : Int} {now : TimePoint}
    (vacant : slot.orderId = "") : choice config leg slot desired now = .enter := by
  unfold choice
  rw [if_pos vacant]

theorem Desk.bookWithoutOwnQuotes_vacant (vacant : ∀ side, (s.quoter.ownQuotes ticker side).orderId = "")
    (book : LocalOrderbook) : s.bookWithoutOwnQuotes ticker book = book := by
  unfold Desk.bookWithoutOwnQuotes Desk.withoutOwn Desk.ownOrder
  simp only [vacant, ↓reduceIte]

theorem Desk.restingOwn_vacant (vacant : ∀ side, (s.quoter.ownQuotes ticker side).orderId = "") :
    s.restingOwn ticker = [] := by
  unfold Desk.restingOwn Desk.ownOrder
  simp [vacant]

theorem Desk.Unlike.noted (unlike : Unlike ticker s s') (book : LocalOrderbook) :
    Unlike ticker (notePriced ticker book s).2 (notePriced ticker book s').2 := by
  refine ⟨?_, unlike.vacant, unlike.vacant'⟩
  have resting : s'.restingOwn ticker = s.restingOwn ticker := by
    rw [Desk.restingOwn_vacant unlike.vacant, Desk.restingOwn_vacant unlike.vacant']
  have visible : s'.bookWithoutOwnQuotes ticker book = s.bookWithoutOwnQuotes ticker book := by
    rw [Desk.bookWithoutOwnQuotes_vacant unlike.vacant, Desk.bookWithoutOwnQuotes_vacant unlike.vacant']
  obtain ⟨fvEma, ownQuotes, rfl⟩ := unlike.same
  refine ⟨fvEma, ownQuotes, ?_⟩
  unfold notePriced
  rw [modify_apply, modify_apply, resting, visible]
  rfl

theorem Desk.Cleared.update_alike {book : LocalOrderbook} (cleared : s.Cleared ticker book) :
    Alike (readopting ticker).Twins (update venue ticker book) (update venue ticker book) s s.forgetful := by
  have unlike : Unlike ticker s s.forgetful := ⟨⟨_, _, rfl⟩, cleared.vacant, fun _ => rfl⟩
  have priced : ∀ bid ask, book.bestBid = some bid → book.bestAsk = some ask → bid.priceCents < ask.priceCents →
      Alike (Unlike ticker) (desiredQuotes venue ticker book bid.priceCents ask.priceCents)
        (desiredQuotes venue ticker book bid.priceCents ask.priceCents)
        (notePriced ticker book s).2 (notePriced ticker book s.forgetful).2 := by
    intro bid ask bids asks apart
    exact (unlike.noted book).desiredQuotes_alike venue _ _ (cleared.unsmoothed ⟨bid, ask, bids, asks, apart⟩) rfl
  have seen := Desk.bookWithoutOwnQuotes_vacant cleared.vacant book
  refine Quoter.update_alike rfl (readopting_venues venue ticker) unlike.twins seen ?_ ?_
  · intro bid ask bids asks apart
    exact (priced bid ask bids asks apart).mono fun _ _ unlike => unlike.twins
  · -- both slots are still vacant once the prices are known
    intro bid ask bids asks apart wanted t t' ran ran' side desired _
    have between := (priced bid ask bids asks apart).2
    rw [ran, ran'] at between
    rw [choice_vacant (between.vacant side), choice_vacant (between.vacant' side)]

theorem Desk.Cleared.wants_alike {book : LocalOrderbook} (cleared : s.Cleared ticker book) :
    s.wants venue ticker book = s.forgetful.wants venue ticker book := by
  have unlike : Unlike ticker s s.forgetful := ⟨⟨_, _, rfl⟩, cleared.vacant, fun _ => rfl⟩
  unfold Desk.wants
  rw [Desk.bookWithoutOwnQuotes_vacant unlike.vacant, Desk.bookWithoutOwnQuotes_vacant unlike.vacant']
  dsimp only
  cases bids : book.bestBid with
  | none => rfl
  | some bid =>
    cases asks : book.bestAsk with
    | none => rfl
    | some ask =>
      dsimp only
      split
      · rfl
      · next apart =>
        have quotable : book.Quotable := ⟨bid, ask, bids, asks, not_le.mp apart⟩
        rw [(unlike.desiredQuotes_alike venue _ _ (cleared.unsmoothed quotable) rfl).1]

/-- What remains of the sent orders after an adoption is what the update sent. -/
theorem Desk.firstQuote_calls (s : Desk F X) (snapshot : Orderbook) :
    (addMarket venue snapshot s).2.calls =
      (update venue snapshot.ticker (LocalOrderbook.applySnapshot snapshot) (s.adopted venue snapshot)).2.calls := by
  rw [addMarket_adopted, tryCatch_apply]
  cases update venue snapshot.ticker (LocalOrderbook.applySnapshot snapshot) (s.adopted venue snapshot) with
  | mk r t => rcases r with (_ | _) | _ <;> rfl

theorem Desk.Cleared.firstQuote {snapshot : Orderbook}
    (cleared : s.Cleared snapshot.ticker (LocalOrderbook.applySnapshot snapshot)) :
    s.firstQuote venue snapshot = s.forgetful.firstQuote venue snapshot := by
  have adopted : (s.adopted venue snapshot).Cleared snapshot.ticker (LocalOrderbook.applySnapshot snapshot) :=
    ⟨cleared.vacant, cleared.unsmoothed⟩
  have wants : (s.adopted venue snapshot).wants venue snapshot.ticker (LocalOrderbook.applySnapshot snapshot) =
      (s.adopted venue snapshot).forgetful.wants venue snapshot.ticker (LocalOrderbook.applySnapshot snapshot) :=
    adopted.wants_alike
  have calls : (update venue snapshot.ticker (LocalOrderbook.applySnapshot snapshot)
    (s.adopted venue snapshot)).2.calls =
      (update venue snapshot.ticker (LocalOrderbook.applySnapshot snapshot)
        (s.adopted venue snapshot).forgetful).2.calls := adopted.update_alike.2.calls
  unfold Desk.firstQuote Desk.callsSince
  rw [Desk.firstQuote_calls, Desk.firstQuote_calls, wants, calls]
  rfl

end

/-- The quoter of a run is as it was built, but for what it remembers and the mode it is in. -/
theorem forgetful_run (session : TradingSession F) (config : QuoterConfig F) (limits : RiskLimits F) (outside : X)
    (flowGuard : Option (FlowImbalanceGuard F)) (tradeTape : Option (TradeTape F)) (analytics pnlListener : Bool)
    (events : List (Event F)) :
    let s := ((Process.start session config limits outside flowGuard tradeTape analytics pnlListener).run
      venue events).desk
    s.forgetful =
      { s with quoter := { Quoter.make config config.pricingModel limits with reduceOnly := s.quoter.reduceOnly }
        } := by
  intro s
  have built := run_settings venue
    (Process.start session config limits outside flowGuard tradeTape analytics pnlListener) events
  obtain ⟨sameConfig, sameModel, sameDepth⟩ := Prod.ext_iff.mp built |>.imp_right Prod.ext_iff.mp
  change s.quoter.config = config at sameConfig
  change s.quoter.model = config.pricingModel at sameModel
  change s.quoter.inventoryBContracts =
    (Quoter.make config config.pricingModel limits).inventoryBContracts at sameDepth
  change ({ s with
    quoter := {
      config := s.quoter.config
      model := s.quoter.model
      inventoryBContracts := s.quoter.inventoryBContracts
      reduceOnly := s.quoter.reduceOnly } } : Desk F X) = _
  rw [sameConfig, sameModel, sameDepth]
  rfl

/-- After any run, the first quote on a market that is adopted is the one of a newly built quoter, where no slot and no
smoothed price of an earlier stay is left. -/
theorem first_quote_forgets (session : TradingSession F) (config : QuoterConfig F)
    (limits : RiskLimits F) (outside : X)
    (flowGuard : Option (FlowImbalanceGuard F)) (tradeTape : Option (TradeTape F)) (analytics pnlListener : Bool)
    (events : List (Event F)) (snapshot : Orderbook) :
    let s := ((Process.start session config limits outside flowGuard tradeTape analytics pnlListener).run
      venue events).desk
    let fresh := { Quoter.make config config.pricingModel limits with reduceOnly := s.quoter.reduceOnly }
    s.Cleared snapshot.ticker (LocalOrderbook.applySnapshot snapshot) →
      s.firstQuote venue snapshot = ({ s with quoter := fresh } : Desk F X).firstQuote venue snapshot := by
  intro s fresh cleared
  rw [cleared.firstQuote]
  exact congrArg (fun desk : Desk F X => desk.firstQuote venue snapshot)
    (forgetful_run venue session config limits outside flowGuard tradeTape analytics pnlListener events)

/-! ### A market that comes back -/

def stayAt (yes no : Int) : Orderbook := { ticker := "M", yes := [⟨yes, ⟨1000⟩⟩], no := [⟨no, ⟨1000⟩⟩] }

def stayFill (tradeId : String) (orderId : OrderId) (side : Side) : Fill ℚ where
  tradeId
  orderId
  marketTicker := "M"
  side
  priceCents := 48
  quantity := ⟨1000⟩
  feeCents := 0
  isTaker := false
  timestamp := 0

/-- Both quotes on a market around 50 fill, and the flat market is dropped. -/
def finishedStay : List (Event ℚ) :=
  [.addMarket (stayAt 40 40), .fill (stayFill "trade-1" "order-1" .yes), .fill (stayFill "trade-2" "order-2" .no),
    .removeMarketIfIdle "M"]

def stayConfig : QuoterConfig ℚ := { useClearingPricing := true }

def afterStay : Desk ℚ Script :=
  ((Process.start { tickers := [] } stayConfig {} {} none none false false).run
    ⟨⟨"exchange"⟩, Script.host⟩ finishedStay).desk

/-- The market comes back at the prices it left with. -/
theorem first_quote_forgets_same_level :
    let fresh := { Quoter.make stayConfig stayConfig.pricingModel {} with reduceOnly := afterStay.quoter.reduceOnly }
    afterStay.quoter.fvEma "M" = some 50 ∧
      afterStay.firstQuote ⟨⟨"exchange"⟩, Script.host⟩ (stayAt 40 40) =
        ({ afterStay with quoter := fresh } : Desk ℚ Script).firstQuote ⟨⟨"exchange"⟩, Script.host⟩
          (stayAt 40 40) := by
  have kept : afterStay.quoter.fvEma "M" = some 50 := by decide +kernel
  refine ⟨kept, first_quote_forgets ⟨⟨"exchange"⟩, Script.host⟩ { tickers := [] } stayConfig {}
    {} none none false false
    finishedStay (stayAt 40 40) ⟨?_, ?_⟩⟩
  · intro side
    cases side <;> decide +kernel
  · intro _ ema smoothed
    cases kept.symm.trans smoothed
    decide +kernel

/-- A market that comes back thirty cents higher is first quoted around the prices of its earlier stay. -/
theorem readoption_drags_first_quote :
    let venue : Venue Script := ⟨⟨"exchange"⟩, Script.host⟩
    let fresh := { Quoter.make stayConfig stayConfig.pricingModel {} with reduceOnly := afterStay.quoter.reduceOnly }
    let book := LocalOrderbook.applySnapshot (stayAt 80 15)
    afterStay.session.isTracked "M" = false ∧
      (afterStay.adopted venue (stayAt 80 15)).wants venue "M" book = some (some 54, some 81) ∧
      (({ afterStay with quoter := fresh } : Desk ℚ Script).adopted venue (stayAt 80 15)).wants venue "M" book =
        some (some 80, some 86) ∧
      afterStay.firstQuote venue (stayAt 80 15) ≠
        ({ afterStay with quoter := fresh } : Desk ℚ Script).firstQuote venue (stayAt 80 15) := by
  intro venue fresh book
  have stale : (afterStay.adopted venue (stayAt 80 15)).wants venue "M" book = some (some 54, some 81) := by
    decide +kernel
  have renewed : (({ afterStay with quoter := fresh } : Desk ℚ Script).adopted venue (stayAt 80 15)).wants
    venue "M" book =
      some (some 80, some 86) := by decide +kernel
  refine ⟨by decide +kernel, stale, renewed, fun same => ?_⟩
  have wants := congrArg Prod.fst same
  change (afterStay.adopted venue (stayAt 80 15)).wants venue "M" book = _ at wants
  rw [stale] at wants
  exact absurd (wants.trans renewed) (by decide)

end Kalshi
