import KalshiMaker.Engine.Looks
import KalshiMaker.Properties.OneQuote

/-! Room on the position for every live order: what a session on a fixed set of markets keeps, step by step. -/
namespace Kalshi

open Effect Eff Desk Relation TradingSession

/-! ### Room for a live order -/

/-- The limits of a net position, in centi-contracts. -/
structure Caps where
  position : Int
  inventory : Int

namespace Caps

def ofSettings [Elementary ℚ] (limits : RiskLimits ℚ) (config : QuoterConfig ℚ) : Caps where
  position := limits.maxPositionPerMarket * 100
  inventory := (config.inventoryCapLots + 1) * config.quoteSize * 100

/-- Flat, or within both limits. -/
def Contains (caps : Caps) (net : Int) : Prop := net = 0 ∨ |net| ≤ caps.position ∧ |net| < caps.inventory

/-- The position has room on a side for fills of `remaining`. -/
def Fits (caps : Caps) (net : Int) (side : Side) (remaining : Int) : Prop :=
  side.toward net + remaining ≤ caps.position ∧ side.toward net + remaining < caps.inventory

variable {caps : Caps} {net remaining filled : Int} {side : Side}

theorem contains_fill (contains : caps.Contains net) (fits : caps.Fits net side remaining) (positive : 0 < filled)
    (within : filled ≤ remaining) : caps.Contains (net + side.toward filled) := by
  right
  obtain ⟨position, inventory⟩ := fits
  rw [abs_le, abs_lt]
  rcases contains with flat | ⟨low, high⟩
  · cases side <;> simp only [Side.toward] at * <;> omega
  · rw [abs_le] at low
    rw [abs_lt] at high
    cases side <;> simp only [Side.toward] at * <;> omega

/-- What a fill takes from the order it gives to the position. -/
theorem fits_fill (fits : caps.Fits net side remaining) :
    caps.Fits (net + side.toward filled) side (remaining - filled) := by
  obtain ⟨position, inventory⟩ := fits
  constructor <;> cases side <;> simp only [Side.toward] at * <;> omega

theorem fits_fill_opposite (fits : caps.Fits net side.opposite remaining) (positive : 0 < filled) :
    caps.Fits (net + side.toward filled) side.opposite remaining := by
  obtain ⟨position, inventory⟩ := fits
  constructor <;> cases side <;> simp only [Side.opposite, Side.toward] at * <;> omega

/-- What the risk check and the inventory brake ask of a new order. -/
theorem fits_checked [Elementary ℚ] {limits : RiskLimits ℚ} {config : QuoterConfig ℚ}
    (within : |net + side.toward (config.quoteSize * 100)| ≤ limits.maxPositionPerMarket * 100)
    (room : side.toward net < config.inventoryCapLots * config.quoteSize * 100) :
    (ofSettings limits config).Fits net side (config.quoteSize * 100) := by
  have both := abs_le.mp within
  constructor
  · cases side <;> simp only [Side.toward, ofSettings] at * <;> omega
  · have onward : (config.inventoryCapLots + 1) * config.quoteSize * 100 =
        config.inventoryCapLots * config.quoteSize * 100 + config.quoteSize * 100 := by ring
    rw [ofSettings, onward]
    exact add_lt_add_left room _

end Caps

/-! ### The steps of a session on a fixed set of markets -/

section

variable [Elementary ℚ] {X : Type} (venue : Venue X)

/-- A request made with room for an order on the inventory, a sweep, or a change of the risk manager that
leaves the positions it goes by up to date. -/
inductive Moved (u : Posture ℚ) : Posture ℚ → Prop where
  | quoted {ticker : Ticker} {aim : Quoter.Aim} {side : Side} {v : Posture ℚ}
      (tracked : ticker ∈ u.ledger.tickers)
      (room : ∀ side desired, aim side = some desired →
        side.toward (u.ledger.orderMgr.netPosition ticker).centi <
          u.config.inventoryCapLots * u.config.quoteSize * 100)
      (request : Request venue aim ticker side u v) : Moved u v
  | swept {cancels : List (OrderId × Bool)} {slots : Ticker → Side → OrderId × Int} :
      Moved u ⟨{ u.ledger.afterCancels cancels with slots }, u.config⟩
  | judged {riskMgr : RiskManager ℚ} (limits : riskMgr.limits = u.ledger.riskMgr.limits)
      (cached : ∀ ticker ∈ u.ledger.tickers,
        riskMgr.cachedPosition ticker = u.ledger.riskMgr.cachedPosition ticker ∨
        riskMgr.cachedPosition ticker = u.ledger.orderMgr.netPosition ticker) :
      Moved u ⟨{ u.ledger with riskMgr }, u.config⟩

/-- A side that is not suppressed has not reached the inventory cap. -/
theorem toward_lt_of_trades {quoter : Quoter ℚ} {net : Quantity} {side : Side}
    (trades : quoter.suppressed net.contracts side = false) :
    side.toward net.centi < quoter.config.inventoryCapLots * quoter.config.quoteSize * 100 := by
  have contracts : (net.contracts : ℚ) = (net.centi : ℚ) / 100 := rfl
  have cap : quoter.inventoryCap = ((quoter.config.inventoryCapLots * quoter.config.quoteSize : Int) : ℚ) := by
    push_cast
    rfl
  have reached : side.toward net.centi < quoter.config.inventoryCapLots * quoter.config.quoteSize * 100 ↔
      ((side.toward net.centi : Int) : ℚ) / 100 < quoter.inventoryCap := by
    rw [cap, div_lt_iff₀ (by norm_num)]
    norm_cast
  rw [reached]
  cases side with
  | yes =>
    simp only [Quoter.suppressed, Bool.or_eq_false_iff, decide_eq_false_iff_not] at trades
    rw [contracts] at trades
    exact lt_of_not_ge trades.2
  | no =>
    simp only [Quoter.suppressed, Bool.or_eq_false_iff, decide_eq_false_iff_not] at trades
    rw [contracts] at trades
    have above := lt_of_not_ge trades.2
    simp only [Side.toward, Int.cast_neg, neg_div]
    exact neg_lt.mp above
theorem request_netPosition {aim : Quoter.Aim} {ticker : Ticker} {side : Side} {u v : Posture ℚ}
    (request : Request venue aim ticker side u v) :
    v.ledger.orderMgr.netPosition = u.ledger.orderMgr.netPosition := by
  cases request with
  | amended _ _ _ _ => exact OrderManager.amended_netPosition _ _ _ _
  | _ => rfl

/-- The quoter's part of a step, on one market. -/
def Quotes (ticker : Ticker) (u v : Posture ℚ) : Prop :=
  ∃ aim side, (∀ side desired, aim side = some desired →
      side.toward (u.ledger.orderMgr.netPosition ticker).centi <
        u.config.inventoryCapLots * u.config.quoteSize * 100) ∧
    Request venue aim ticker side u v

theorem update_quotes (ticker : Ticker) (book : LocalOrderbook) (s : Desk ℚ X) :
    Leads posture (Quotes venue ticker) (Quoter.update venue ticker book) s := by
  obtain ⟨aim, aimed, chain⟩ := Quoter.update_requests venue ticker book s
  let Room : Posture ℚ → Prop := fun u => ∀ side desired, aim side = some desired →
    side.toward (u.ledger.orderMgr.netPosition ticker).centi <
      u.config.inventoryCapLots * u.config.quoteSize * 100
  have room : Room s.posture := fun side desired target =>
    toward_lt_of_trades (aimed.trades side desired target)
  refine ReflTransGen.mono ?_ _ _ (chain_along Room ?_ chain room)
  · rintro u v ⟨room, side, request⟩
    exact ⟨aim, side, room, request⟩
  · rintro u v ⟨side, request⟩ room
    rw [show Room v ↔ Room u by simp only [Room, request_netPosition venue request, request.config]]
    exact room

theorem posture_reacts : Reacts venue (posture (F := ℚ) (X := X)) (Quotes venue) where
  session s session same _ := by
    simp only [posture, ledger, same]
  steady _ := rfl
  update := update_quotes venue

/-- What a session on a fixed set of markets is handed: messages for its own markets, and no fill but
those of the exchange. -/
def InScope (s : Desk ℚ X) : Event ℚ → Prop
  | .snapshot seed | .seedOrderbook seed => seed.ticker ∈ s.session.tickers
  | .delta ticker _ _ _ => ticker ∈ s.session.tickers
  | .riskUpdate tickers => tickers = s.session.tickers
  | .fill _ | .addMarket _ | .removeMarketIfIdle _ | .recordFlatten _ => False
  | .resetQuotes | .forgetTicker _ | .forgetOrder _ _ => False
  | _ => True

/-- Books are kept for tracked markets only. -/
def Desk.KeepsTracked (s : Desk ℚ X) : Prop := ∀ ticker ∈ s.session.obMap, ticker ∈ s.session.tickers

theorem Desk.KeepsTracked.requotes {s : Desk ℚ X} (keeps : s.KeepsTracked) :
    RequotesOnly venue (· ∈ s.session.tickers) s := by
  refine .inr (AtEach.of_forall fun ticker among _ _ => keeps ticker ?_)
  exact AList.mem_keys.mpr ((venue.host.arrange_perm _ _).mem_iff.mp among)

/-- Quoting does not change which markets are tracked. -/
theorem quotes_moved {s : Desk ℚ X} {m : Eff (Desk ℚ X) String Unit}
    (leads : Leads posture (fun u v => ∃ ticker, ticker ∈ s.session.tickers ∧ Quotes venue ticker u v) m s) :
    Leads posture (Moved venue) m s := by
  let Tracks : Posture ℚ → Prop := fun u => u.ledger.tickers = s.session.tickers
  refine ReflTransGen.mono ?_ _ _ (chain_along Tracks ?_ leads rfl)
  · rintro u v ⟨tracks, ticker, tracked, aim, side, room, request⟩
    exact .quoted (tracks ▸ tracked) room request
  · rintro u v ⟨ticker, _, aim, side, _, request⟩ tracks
    exact (Ledger.quoteStep_tickers request.quoteStep).trans tracks

theorem feedPortfolio_moved (snapshot : PortfolioSnapshot ℚ) (s : Desk ℚ X) :
    Leads posture (Moved venue) (feedPortfolio snapshot) s := by
  unfold feedPortfolio
  refine Leads.bind (Leads.quiet rfl) ?_
  rintro s₀ _ ⟨⟩
  obtain ⟨limits, cached⟩ := s.riskMgr.updatePortfolio_keeps snapshot
  refine Leads.bind (Leads.single (.judged limits fun ticker _ => .inl (congrFun cached ticker))) (fun _ s₁ _ => ?_)
  cases (s.riskMgr.updatePortfolio snapshot).1 <;> exact Leads.quiet rfl

theorem checkFeed_moved (ticker : Ticker) (s : Desk ℚ X) :
    Leads posture (Moved venue) (checkFeed venue ticker) s := by
  unfold checkFeed
  refine Leads.bind (feedConfirmed_leads (posture_reacts venue) ticker s) (fun confirmed s₁ _ => ?_)
  refine Leads.bind (Leads.quiet rfl) ?_
  rintro s₀ _ ⟨⟩
  refine Leads.ite (fun _ => Leads.quiet rfl) (fun _ => Leads.bind (Leads.quiet rfl) (fun _ s₂ _ => ?_))
  unfold Leads
  obtain ⟨cancels, x, ran, _⟩ := cancelAllGuarded_run venue ticker s₂
  rw [bind_apply, ran, andThen_ok]
  exact .single .swept

theorem cancelAllQuotes_moved (s : Desk ℚ X) : Leads posture (Moved venue) (cancelAllQuotes venue) s := by
  unfold Leads
  obtain ⟨cancels, x, ran, _⟩ := cancelAllQuotes_run venue s
  rw [ran]
  exact .single .swept

theorem handle_moved {event : Event ℚ} {s : Desk ℚ X} (scope : InScope s event) (keeps : s.KeepsTracked) :
    Leads posture (Moved venue) (handle venue event) s := by
  have reacts := posture_reacts venue
  cases event with
  | snapshot snapshot => exact markTicked_leads reacts _ _ s
  | trade _ | setReduceOnly _ => exact Leads.quiet rfl
  | delta ticker side priceCents qty =>
    refine quotes_moved venue ((onDelta_leads reacts ticker side priceCents qty s).mono ?_)
    exact fun _ _ ⟨tracked, step⟩ => ⟨ticker, tracked, step⟩
  | seedOrderbook snapshot =>
    refine quotes_moved venue ((seedOrderbook_leads reacts snapshot s).mono ?_)
    exact fun _ _ step => ⟨snapshot.ticker, scope, step⟩
  | requoteIdleMarkets => exact quotes_moved venue (requoteIdleMarkets_leads reacts (keeps.requotes venue))
  | disconnect | cancelAllQuotes => exact cancelAllQuotes_moved venue s
  | enforceQuoteSafety =>
    refine Leads.bind (Leads.quiet rfl) ?_
    rintro s₀ _ ⟨⟩
    refine Leads.ite (fun _ => cancelAllQuotes_moved venue s) (fun _ => ?_)
    exact Leads.forEach (P := fun _ _ => True) (fun ticker _ s' _ => checkFeed_moved venue ticker s')
      (AtEach.of_forall fun _ _ _ => trivial)
  | cancelPreexistingOrders orders =>
    refine Leads.forEach (P := fun _ _ => True) (fun id _ s' _ => ?_) (AtEach.of_forall fun _ _ _ => trivial)
    obtain ⟨success, x, ran⟩ := OrderManager.cancelBestEffort_run venue id s'
    unfold Leads
    rw [ran]
    exact .single .swept
  | runPortfolioRisk => exact Leads.bind (Leads.quiet rfl) fun _ s' _ => feedPortfolio_moved venue _ s'
  | updatePortfolio snapshot => exact feedPortfolio_moved venue snapshot s
  | riskUpdate tickers =>
    -- the caller refreshes exactly the tracked tickers, so the cache agrees with the position
    subst scope
    refine Leads.single (.judged (RiskManager.update_limits _ _ _) fun ticker tracked => .inr ?_)
    exact RiskManager.update_cachedPosition _ _ tracked
  | setConstraint _ | clearConstraint _ | halt | resume =>
    exact Leads.single (.judged rfl fun _ _ => .inl rfl)
  | fill _ | addMarket _ | removeMarketIfIdle _ | recordFlatten _ | resetQuotes | forgetTicker _ | forgetOrder _ _ =>
    exact scope.elim

theorem cancelAllQuotes_books (s : Desk ℚ X) : (cancelAllQuotes venue s).2.books = s.books := by
  obtain ⟨cancels, x, ran, _⟩ := cancelAllQuotes_run venue s
  rw [ran]
  rfl

theorem handle_books {event : Event ℚ} {s : Desk ℚ X} (scope : InScope s event) :
    Leads Desk.books (Shelves s.session.tickers) (handle venue event) s := by
  cases event with
  | snapshot snapshot => exact Leads.single ⟨snapshot.ticker, scope, _, rfl⟩
  | delta ticker side priceCents qty =>
    exact Leads.single ⟨ticker, scope, _, (onDelta_shown venue ticker side priceCents qty s).1⟩
  | seedOrderbook snapshot =>
    exact Leads.single ⟨snapshot.ticker, scope, _, congrArg Prod.fst (seedOrderbook_shown venue snapshot s)⟩
  | requoteIdleMarkets =>
    refine Leads.bind (Leads.quiet rfl) ?_
    rintro s₀ _ ⟨⟩
    refine Leads.ite (fun _ => Leads.quiet rfl) (fun _ => ?_)
    exact Leads.forEach (P := fun _ _ => True) (fun ticker _ s' _ => Leads.quiet (requoteMarket_books venue ticker s'))
      (AtEach.of_forall fun _ _ _ => trivial)
  | disconnect | cancelAllQuotes => exact Leads.quiet (cancelAllQuotes_books venue s)
  | enforceQuoteSafety =>
    refine Leads.bind (Leads.quiet rfl) ?_
    rintro s₀ _ ⟨⟩
    refine Leads.ite (fun _ => Leads.quiet (cancelAllQuotes_books venue s)) (fun _ => ?_)
    exact Leads.forEach (P := fun _ _ => True) (fun ticker _ s' _ => Leads.quiet (checkFeed_books venue ticker s'))
      (AtEach.of_forall fun _ _ _ => trivial)
  | cancelPreexistingOrders orders =>
    refine Leads.forEach (P := fun _ _ => True) (fun id _ s' _ => ?_) (AtEach.of_forall fun _ _ _ => trivial)
    obtain ⟨success, x, ran⟩ := OrderManager.cancelBestEffort_run venue id s'
    exact Leads.quiet (by rw [ran]; rfl)
  | runPortfolioRisk =>
    exact Leads.bind (Leads.quiet rfl) fun _ s' _ => Leads.quiet (feedPortfolio_books _ s')
  | updatePortfolio snapshot => exact Leads.quiet (feedPortfolio_books snapshot s)
  | trade _ | setReduceOnly _ | riskUpdate _ | setConstraint _ | clearConstraint _ | halt | resume =>
    exact Leads.quiet rfl
  | fill _ | addMarket _ | removeMarketIfIdle _ | recordFlatten _ | resetQuotes | forgetTicker _ | forgetOrder _ _ =>
    exact scope.elim

/-- A step changes neither the tracked markets nor, by itself, any net position. -/
theorem moved_tickers {u v : Posture ℚ} (moved : Moved venue u v) : v.ledger.tickers = u.ledger.tickers := by
  cases moved with
  | quoted _ _ request => exact Ledger.quoteStep_tickers request.quoteStep
  | swept | judged _ _ => rfl

theorem handle_tickers {event : Event ℚ} {s : Desk ℚ X} (scope : InScope s event) (keeps : s.KeepsTracked) :
    (handle venue event s).2.session.tickers = s.session.tickers :=
  chain_invariant (fun u : Posture ℚ => u.ledger.tickers = s.session.tickers)
    (fun _ _ moved same => (moved_tickers venue moved).trans same) (handle_moved venue scope keeps) rfl

theorem handle_keeps {event : Event ℚ} {s : Desk ℚ X} (scope : InScope s event) (keeps : s.KeepsTracked) :
    (handle venue event s).2.KeepsTracked := by
  unfold Desk.KeepsTracked
  rw [handle_tickers venue scope keeps]
  refine chain_invariant (fun books : OrderbookMap => ∀ ticker ∈ books, ticker ∈ s.session.tickers) ?_
    (handle_books venue scope) keeps
  rintro before after ⟨ticker, tracked, book, rfl⟩ kept other among
  rcases (AList.mem_insert before).mp among with rfl | earlier
  · exact tracked
  · exact kept other earlier

/-! ### Every live order fits -/

/-- The position counts with what remains of each live order, whether or not it fills. -/
structure Posture.Bounded (limits : RiskLimits ℚ) (config : QuoterConfig ℚ) (u : Posture ℚ) : Prop where
  configured : u.config = config
  limited : u.ledger.riskMgr.limits = limits
  cached : ∀ ticker ∈ u.ledger.tickers,
    u.ledger.riskMgr.cachedPosition ticker = u.ledger.orderMgr.netPosition ticker
  sized : ∀ id order, u.ledger.order? id = some order →
    order.quantity = Quantity.fromContracts config.quoteSize
  fits : ∀ id order, u.ledger.order? id = some order →
    (Caps.ofSettings limits config).Fits (u.ledger.orderMgr.netPosition order.marketTicker).centi order.side
      order.remainingQuantity.centi
  contained : ∀ ticker,
    (Caps.ofSettings limits config).Contains (u.ledger.orderMgr.netPosition ticker).centi

variable {limits : RiskLimits ℚ} {config : QuoterConfig ℚ} {u v : Posture ℚ}

/-- Orders that are the old ones, under whatever id and price, or that fit themselves. -/
theorem Posture.Bounded.of_orders (bounded : u.Bounded limits config) (sameConfig : v.config = u.config)
    (risk : v.ledger.riskMgr = u.ledger.riskMgr) (tickers : v.ledger.tickers = u.ledger.tickers)
    (net : v.ledger.orderMgr.netPosition = u.ledger.orderMgr.netPosition)
    (orders : ∀ id order, v.ledger.order? id = some order →
      (∃ old before, u.ledger.order? old = some before ∧ order.marketTicker = before.marketTicker ∧
        order.side = before.side ∧ order.quantity = before.quantity ∧
        order.filledQuantity = before.filledQuantity) ∨
      order.quantity = Quantity.fromContracts config.quoteSize ∧
        (Caps.ofSettings limits config).Fits (u.ledger.orderMgr.netPosition order.marketTicker).centi
          order.side order.remainingQuantity.centi) : v.Bounded limits config := by
  constructor
  · exact sameConfig.trans bounded.configured
  · rw [risk]
    exact bounded.limited
  · rw [risk, tickers, net]
    exact bounded.cached
  · intro id order found
    -- an order that only changed its id or price keeps the room it had
    rcases orders id order found with ⟨old, before, was, _, _, sized, _⟩ | ⟨sized, _⟩
    · exact sized.trans (bounded.sized old before was)
    · exact sized
  · intro id order found
    rw [net]
    rcases orders id order found with ⟨old, before, was, on, sided, sized, filled⟩ | ⟨_, fits⟩
    · have fits := bounded.fits old before was
      rw [on, sided, Order.remainingQuantity, sized, filled]
      exact fits
    · exact fits
  · rw [net]
    exact bounded.contained

theorem request_bounded (postOnly : venue.PostOnly ℚ) {aim : Quoter.Aim} {ticker : Ticker} {side : Side}
    (tracked : ticker ∈ u.ledger.tickers)
    (room : ∀ side desired, aim side = some desired →
      side.toward (u.ledger.orderMgr.netPosition ticker).centi <
        u.config.inventoryCapLots * u.config.quoteSize * 100)
    (request : Request venue aim ticker side u v) (bounded : u.Bounded limits config) :
    v.Bounded limits config := by
  refine bounded.of_orders request.config ?_ (Ledger.quoteStep_tickers request.quoteStep)
    (request_netPosition venue request) ?_
  · cases request <;> rfl
  · intro id order found
    cases request with
    | @placed desired placed wanted _ _ passed on sided _ counted _ unfilled =>
      rw [Ledger.order?_setSlot, Ledger.order?_withOrders, OrderManager.placed_lookup] at found
      split at found
      next =>
        cases found
        have within := RiskManager.checkOrder_position passed
        -- the lots cap was checked by the aim, the contracts cap by the order's own check
        have below := room side desired wanted
        rw [bounded.cached ticker tracked, bounded.limited] at within
        rw [bounded.configured] at within below counted
        refine .inr ⟨counted, ?_⟩
        have remaining : order.remainingQuantity.centi = config.quoteSize * 100 := by
          simp [Order.remainingQuantity, counted, unfilled postOnly]
        rw [on, sided, remaining]
        exact Caps.fits_checked within below
      next => exact .inl ⟨id, order, found, rfl, rfl, rfl, rfl⟩
    | @amended desired newId _ _ _ _ =>
      rw [Ledger.order?_setSlot, Ledger.order?_withOrders] at found
      cases was : u.ledger.order? (u.ledger.slots ticker side).1 with
      | none =>
        rw [OrderManager.amended_untracked was] at found
        exact .inl ⟨id, order, found, rfl, rfl, rfl, rfl⟩
      | some before =>
        rw [OrderManager.amended_lookup was] at found
        split at found
        · cases found
          exact .inl ⟨_, before, was, rfl, rfl, rfl, rfl⟩
        · split at found
          · cases found
          · exact .inl ⟨id, order, found, rfl, rfl, rfl, rfl⟩
    | released =>
      rw [Ledger.order?_setSlot, Ledger.order?_withOrders, OrderManager.cancelled_lookup] at found
      split at found
      · cases found
      · exact .inl ⟨id, order, found, rfl, rfl, rfl, rfl⟩
    | placeFailed _ _ _ _ | amendFailed _ _ _ _ | forgotten _ | kept =>
        exact .inl ⟨id, order, found, rfl, rfl, rfl, rfl⟩

theorem moved_bounded (postOnly : venue.PostOnly ℚ) (moved : Moved venue u v) (bounded : u.Bounded limits config) :
    v.Bounded limits config := by
  cases moved with
  | quoted tracked room request => exact request_bounded venue postOnly tracked room request bounded
  | @swept cancels slots =>
    refine bounded.of_orders rfl rfl rfl (OrderManager.afterCancels_netPosition _ _) fun id order found => ?_
    exact .inl ⟨id, order, (Ledger.order_of_cancels found).1, rfl, rfl, rfl, rfl⟩
  | judged sameLimits fresh =>
    refine ⟨bounded.configured, sameLimits.trans bounded.limited, fun ticker tracked => ?_, bounded.sized,
      bounded.fits, bounded.contained⟩
    rcases fresh ticker tracked with same | current
    · exact same.trans (bounded.cached ticker tracked)
    · exact current

/-- A fill of no more than remains of the order it names. -/
structure Ledger.CoversFill (L : Ledger ℚ) (fill : Fill ℚ) (own : Order) : Prop where
  found : L.order? fill.orderId = some own
  market : fill.marketTicker = own.marketTicker
  sided : fill.side = own.side
  positive : 0 < fill.quantity.centi
  within : fill.quantity.centi ≤ own.remainingQuantity.centi

/-- After a fill an open order is the filled one, less the fill, or one that was there before. -/
theorem order_recordedfill {L : Ledger ℚ} {fill : Fill ℚ} {own order : Order} {id : OrderId}
    (covers : L.CoversFill fill own) (found : (L.recorded fill).order? id = some order) :
    (id = fill.orderId ∧ order.marketTicker = own.marketTicker ∧ order.side = own.side ∧
      order.quantity = own.quantity ∧
      order.remainingQuantity.centi = own.remainingQuantity.centi - fill.quantity.centi) ∨
    id ≠ fill.orderId ∧ L.order? id = some order := by
  by_cases same : id = fill.orderId
  · subst same
    left
    change (OrderManager.fillOrder L.orderMgr.openOrders fill).lookup fill.orderId = some order at found
    rw [OrderManager.fillOrder_lookup_self covers.found] at found
    split at found
    · cases found
    · cases found
      refine ⟨rfl, rfl, rfl, rfl, ?_⟩
      simp only [Order.remainingQuantity, Quantity.sub_centi, Quantity.add_centi]
      omega
  · exact .inr ⟨same, (L.order?_recorded_ne fill same).symm.trans found⟩

theorem fill_bounded {fill : Fill ℚ} {own : Order} (covers : u.ledger.CoversFill fill own)
    (held : u.ledger.Held) (bounded : u.Bounded limits config) :
    (⟨{ (u.ledger.recorded fill).forgetFilled fill.marketTicker fill.orderId with
        riskMgr := u.ledger.riskMgr.update (u.ledger.orderMgr.bookFill fill) u.ledger.tickers },
      u.config⟩ : Posture ℚ).Bounded limits config := by
  have net : ∀ ticker, _ = _ + _ := OrderManager.bookFill_netPosition u.ledger.orderMgr fill
  have fits := bounded.fits _ own covers.found
  have orders : ∀ {id order},
      ((u.ledger.recorded fill).forgetFilled fill.marketTicker fill.orderId).order? id = some order →
      (u.ledger.recorded fill).order? id = some order := fun found => by
    rwa [Ledger.order?_forgetFilled] at found
  constructor
  · exact bounded.configured
  · exact (RiskManager.update_limits _ _ _).trans bounded.limited
  · intro ticker tracked
    dsimp only at tracked ⊢
    rw [Ledger.forgetFilled_tickers] at tracked
    rw [Ledger.forgetFilled_orderMgr]
    exact RiskManager.update_cachedPosition _ _ tracked
  · intro id order found
    rcases order_recordedfill covers (orders found) with ⟨_, _, _, sized, _⟩ | ⟨_, was⟩
    · exact sized.trans (bounded.sized _ own covers.found)
    · exact bounded.sized id order was
  · intro id order found
    dsimp only
    rw [Ledger.forgetFilled_orderMgr]
    change (Caps.ofSettings limits config).Fits ((u.ledger.orderMgr.bookFill fill).netPosition _).centi _ _
    rw [net]
    rcases order_recordedfill covers (orders found) with ⟨_, on, sided, _, remaining⟩ | ⟨other, was⟩
    · rw [if_pos (on.trans covers.market.symm), on, sided, remaining, covers.sided]
      exact Caps.fits_fill fits
    · have others := bounded.fits id order was
      split
      next here =>
        -- a second order on the filled market is on the other side: each side has one slot
        have opposite : order.side = fill.side.opposite := by
          refine Side.eq_opposite_of_ne fun same => other ?_
          rw [← held.inSlot id order was, ← held.inSlot _ own covers.found, here, same, covers.market, covers.sided]
        rw [opposite] at others ⊢
        exact Caps.fits_fill_opposite others covers.positive
      next => simpa using others
  · intro ticker
    dsimp only
    rw [Ledger.forgetFilled_orderMgr]
    change (Caps.ofSettings limits config).Contains ((u.ledger.orderMgr.bookFill fill).netPosition ticker).centi
    rw [net]
    split
    next here =>
      subst here
      rw [covers.market, covers.sided]
      exact Caps.contains_fill (bounded.contained _) fits covers.positive covers.within
    next => simpa using bounded.contained ticker

end

end Kalshi
