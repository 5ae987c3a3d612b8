import KalshiMaker.App.Wiring
import KalshiMaker.Core.Double
import KalshiMaker.Engine.Process
import KalshiMaker.Engine.Steps
import KalshiMaker.Net.ScriptedHost
import KalshiMaker.Strategy.UpdateRun

/-! Which frames the process survives, and what a rejected frame leaves behind. -/
namespace Kalshi

open Effect Eff Desk

variable {F X : Type} [Floating F]

/-- A configuration with which no order request fails its own checks. -/
structure Desk.Sane (s : Desk F X) : Prop where
  quoteSize : 0 < s.quoter.config.quoteSize
  minPrice : kMinPriceCents ≤ s.riskMgr.limits.minQuotePriceCents
  maxPrice : s.riskMgr.limits.maxQuotePriceCents ≤ kMaxPriceCents

/-! ### Requests and clocks -/

/-- A computation that does not abort and keeps the configuration. -/
abbrev Safe {α : Type} (m : Eff (Desk F X) String α) : Prop := Within Desk.Sane m

theorem issue_safe {α : Type} {request : Eff X String α} (call : Option α → Call F)
    (answers : ∀ x what, (request x).1 ≠ .error (.abort what)) : Safe (issue request call) := by
  intro s sane
  exact ⟨answers s.outside, sane.quoteSize, sane.minPrice, sane.maxPrice⟩

theorem mapOrders_safe (f : OrderManager F → OrderManager F) : Safe (mapOrders f : Eff (Desk F X) String Unit) :=
  Within.modify fun _ sane => ⟨sane.quoteSize, sane.minPrice, sane.maxPrice⟩

theorem mapSession_safe (f : TradingSession F → TradingSession F) :
    Safe (mapSession f : Eff (Desk F X) String Unit) :=
  Within.modify fun _ sane => ⟨sane.quoteSize, sane.minPrice, sane.maxPrice⟩

theorem mapQuoter_safe {f : Quoter F → Quoter F} (keeps : ∀ quoter, (f quoter).config = quoter.config) :
    Safe (mapQuoter f : Eff (Desk F X) String Unit) :=
  Within.modify fun s sane => ⟨(keeps s.quoter).symm ▸ sane.quoteSize, sane.minPrice, sane.maxPrice⟩

theorem ensure_safe {condition : Bool} (holds : condition = true) (what : String) :
    Safe (ensure condition what : Eff (Desk F X) String Unit) := by
  rw [holds]
  exact Within.pure ()

variable (venue : Venue X)

theorem steadyNow_safe : Safe (steadyNow venue : Eff (Desk F X) String TimePoint) := by
  intro s sane
  exact ⟨fun _ stopped => (by cases stopped), sane.quoteSize, sane.minPrice, sane.maxPrice⟩

namespace OrderManager

theorem place_safe (ticker : Ticker) (side : Side) {price quantity : Int} (priced : isValidPrice price = true)
    (sized : 0 < quantity) : Safe (place venue ticker side price quantity : Eff (Desk F X) String Order) := by
  unfold place
  refine Within.bind (ensure_safe priced _) fun _ => ?_
  refine Within.bind (ensure_safe (decide_eq_true sized) _) fun _ => ?_
  refine Within.bind (issue_safe _ fun x what aborted => ?_) fun order => ?_
  · obtain ⟨_, ⟨_, placed, _⟩ | ⟨_, failed⟩⟩ := venue.rest.placeOrder_cases venue.host (F := F) ticker side price
      (Quantity.fromContracts quantity) .limit x
    · rw [placed] at aborted
      cases aborted
    · rw [failed] at aborted
      cases aborted
  · exact Within.bind (mapOrders_safe _) fun _ => Within.pure order

theorem cancel_safe (orderId : OrderId) : Safe (cancel venue orderId : Eff (Desk F X) String Bool) := by
  unfold cancel
  refine Within.bind (issue_safe _ fun x what aborted => ?_) fun success => ?_
  · obtain ⟨_, ⟨_, answered⟩ | ⟨_, failed⟩⟩ := venue.rest.cancelOrder_cases venue.host orderId x
    · rw [answered] at aborted
      cases aborted
    · rw [failed] at aborted
      cases aborted
  · cases success with
    | true => exact Within.bind (mapOrders_safe _) fun _ => Within.pure true
    | false => exact Within.pure false

theorem amend_safe (orderId : OrderId) (ticker : Ticker) (side : Side) (price : Int) (count : Quantity) :
    Safe (amend venue orderId ticker side price count : Eff (Desk F X) String (Option OrderId)) := by
  unfold amend
  refine Within.bind (issue_safe _ fun x what aborted => ?_) fun newId => ?_
  · obtain ⟨_, ⟨_, answered⟩ | ⟨_, failed⟩⟩ := venue.rest.amendOrder_cases venue.host orderId ticker side price count x
    · rw [answered] at aborted
      cases aborted
    · rw [failed] at aborted
      cases aborted
  · cases newId with
    | some newId => exact Within.bind (mapOrders_safe _) fun _ => Within.pure (some newId)
    | none => exact Within.pure none

end OrderManager

/-! ### The quoter -/

namespace Quoter

theorem updateSlot_safe (ticker : Ticker) (side : Side) (f : QuoteSlot → QuoteSlot) :
    Safe (updateSlot ticker side f : Eff (Desk F X) String Unit) := mapQuoter_safe fun _ => rfl

theorem releaseOrder_safe (orderId : OrderId) : Safe (releaseOrder venue orderId : Eff (Desk F X) String Bool) := by
  unfold releaseOrder
  refine Within.bind (OrderManager.cancel_safe venue orderId) fun gone => ?_
  apply Within.ite
  · exact fun _ => Within.pure true
  · exact fun _ => Within.get_bind fun s _ => Within.pure _

theorem releaseSlot_safe (ticker : Ticker) (side : Side) :
    Safe (releaseSlot venue ticker side : Eff (Desk F X) String Bool) := by
  unfold releaseSlot
  refine Within.get_bind fun s _ => Within.bind (releaseOrder_safe venue _) fun gone => ?_
  apply Within.ite
  · exact fun _ => Within.bind (updateSlot_safe ticker side _) fun _ => Within.pure true
  · exact fun _ => Within.pure false

/-- The checks of the risk manager cover those of the order manager. -/
theorem enter_safe (leg : QuoteLeg) (ticker : Ticker) (desired : Int) (now : TimePoint) :
    Safe (enter venue leg ticker desired now : Eff (Desk F X) String Unit) := by
  unfold enter
  refine Within.get_bind fun s sane => ?_
  apply Within.ite
  · intro passed
    obtain ⟨above, below⟩ := RiskManager.checkOrder_price passed
    have priced : isValidPrice (leg.orderPrice desired) = true :=
      (isValidPrice_iff _).mpr ⟨sane.minPrice.trans above, below.trans sane.maxPrice⟩
    exact Within.bind (OrderManager.place_safe venue ticker leg.side priced sane.quoteSize) fun order =>
      updateSlot_safe ticker leg.side _
  · exact fun _ => Within.pure ()

theorem amendInPlace_safe (leg : QuoteLeg) (ticker : Ticker) (desired : Int) (now : TimePoint) (wouldCross : Bool) :
    Safe (amendInPlace venue leg ticker desired now wouldCross : Eff (Desk F X) String Bool) := by
  unfold amendInPlace
  refine Within.get_bind fun s _ => ?_
  apply Within.ite
  · intro _
    refine Within.bind (OrderManager.amend_safe venue _ ticker leg.side _ _) fun amended => ?_
    cases amended with
    | some amendedId => exact Within.bind (updateSlot_safe ticker leg.side _) fun _ => Within.pure true
    | none => exact Within.pure false
  · exact fun _ => Within.pure false

theorem reprice_safe (leg : QuoteLeg) (ticker : Ticker) (desired : Int) (now : TimePoint) (wouldCross : Bool) :
    Safe (reprice venue leg ticker desired now wouldCross : Eff (Desk F X) String Unit) := by
  unfold reprice
  refine Within.bind (amendInPlace_safe venue leg ticker desired now wouldCross) fun amended => ?_
  apply Within.ite
  · exact fun _ => Within.pure ()
  · intro _
    refine Within.bind (releaseSlot_safe venue ticker leg.side) fun released => ?_
    apply Within.ite
    · intro _
      apply Within.ite
      · exact fun _ => Within.pure ()
      · exact fun _ => enter_safe venue leg ticker desired now
    · exact fun _ => Within.pure ()

/-- Setting the fade flag, if at all, and going on. -/
theorem fadeThen_safe (ticker : Ticker) (side : Side) (condition fadePending : Bool)
    {next : Eff (Desk F X) String Unit} (safe : Safe next) :
    Safe (do if condition then setFadePending ticker side fadePending
             next) := by
  cases condition with
  | false => exact safe
  | true => exact Within.bind (updateSlot_safe ticker side _) fun _ => safe

theorem refresh_safe (leg : QuoteLeg) (ticker : Ticker) (desired : Int) (now : TimePoint) :
    Safe (refresh venue leg ticker desired now : Eff (Desk F X) String Unit) := by
  unfold refresh
  refine Within.get_bind fun s _ => ?_
  apply Within.ite
  · intro _
    apply Within.ite
    · exact fun _ => Within.pure ()
    · exact fun _ => enter_safe venue leg ticker desired now
  intro _
  apply Within.ite
  · intro _
    apply Within.ite
    · exact fun _ => updateSlot_safe ticker leg.side _
    intro _
    refine fadeThen_safe ticker leg.side _ false ?_
    apply Within.ite
    · exact fun _ => Within.pure ()
    · exact fun _ => fadeThen_safe ticker leg.side _ false (reprice_safe venue leg ticker desired now _)
  · exact fun _ => Within.pure ()

theorem releaseSuppressed_safe (leg : QuoteLeg) (ticker : Ticker) (suppressed : Bool) :
    Safe (releaseSuppressed venue leg ticker suppressed : Eff (Desk F X) String Unit) := by
  unfold releaseSuppressed
  refine Within.get_bind fun s _ => ?_
  apply Within.ite
  · exact fun _ => Within.bind (releaseSlot_safe venue ticker leg.side) fun _ => Within.pure ()
  · exact fun _ => Within.pure ()

theorem refreshUnless_safe (suppressed : Bool) (leg : QuoteLeg) (ticker : Ticker) (desired : Option Int)
    (now : TimePoint) : Safe (refreshUnless venue suppressed leg ticker desired now : Eff (Desk F X) String Unit) := by
  unfold refreshUnless
  cases desired with
  | none => exact Within.pure ()
  | some desired =>
    apply Within.ite
    · exact fun _ => Within.pure ()
    · exact fun _ => refresh_safe venue leg ticker desired now

theorem applyQuotes_safe (ticker : Ticker) (inventory : F) (desiredBid desiredAsk : Option Int) :
    Safe (applyQuotes venue ticker inventory desiredBid desiredAsk : Eff (Desk F X) String Unit) := by
  unfold applyQuotes
  refine Within.bind (steadyNow_safe venue) fun now => Within.get_bind fun s _ => ?_
  refine Within.bind (releaseSuppressed_safe venue _ ticker _) fun _ => ?_
  refine Within.bind (releaseSuppressed_safe venue _ ticker _) fun _ => ?_
  refine Within.bind (refreshUnless_safe venue _ _ ticker desiredBid now) fun _ => ?_
  exact refreshUnless_safe venue _ _ ticker desiredAsk now

end Quoter

/-! ### The session -/

namespace TradingSession

theorem markTicked_safe (ticker : Ticker) (book : LocalOrderbook) :
    Safe (markTicked venue ticker book : Eff (Desk F X) String Unit) := by
  unfold markTicked
  refine Within.bind (mapSession_safe _) fun _ => ?_
  exact Within.bind (steadyNow_safe venue) fun now => mapSession_safe _

end TradingSession

/-! ### The fair value of a delta -/

namespace Desk

/-- Whether the market of a delta that has just come in still cools down, by the clock's second reading. -/
def cooling (s : Desk F X) (ticker : Ticker) : Bool :=
  (s.session.cooldownUntil ticker).any fun deadline =>
    decide ((venue.host.steadyNow (venue.host.steadyNow s.outside).2).1 < deadline)

/-- The outside once a delta's time is stamped and the cooldown, if there is one, is looked up. -/
def stamped (s : Desk F X) (ticker : Ticker) : X :=
  if (s.session.cooldownUntil ticker).isSome then (venue.host.steadyNow (venue.host.steadyNow s.outside).2).2
  else (venue.host.steadyNow s.outside).2

/-- The fair value of `ticker` at a visible book and an outside. -/
def fairAt (s : Desk F X) (ticker : Ticker) (visible : LocalOrderbook) (x : X) : F :=
  (s.outlook ticker visible (venue.host.systemNow x).1 0 0).fairVal s.quoter

/-- Where a delta is quoted on, the visible book it makes has no two sides apart or has a finite fair value. -/
def Priceable (s : Desk F X) (ticker : Ticker) (side : Side) (priceCents : Int) (qty : Quantity) : Prop :=
  let visible := s.bookWithoutOwnQuotes ticker ((s.session.book ticker).applyDelta side priceCents qty)
  s.session.isTracked ticker = true → s.cooling venue ticker = false →
    visible.Degenerate ∨ Floating.isFinite (s.fairAt venue ticker visible (s.stamped venue ticker)) = true

end Desk

namespace Quoter

/-- Over a sane desk an update aborts only for want of a finite fair value. -/
theorem update_aborts_iff {s : Desk F X} (sane : s.Sane) (ticker : Ticker) (book : LocalOrderbook) :
    (∃ what, (update venue ticker book s).1 = .error (.abort what)) ↔
      ¬ (s.bookWithoutOwnQuotes ticker book).Degenerate ∧
        Floating.isFinite (s.fairAt venue ticker (s.bookWithoutOwnQuotes ticker book) s.outside) = false := by
  by_cases degenerate : (s.bookWithoutOwnQuotes ticker book).Degenerate
  · rw [update_degenerate venue degenerate]
    exact ⟨by rintro ⟨_, ⟨⟩⟩, fun both => absurd degenerate both.1⟩
  · obtain ⟨bestBid, bestAsk, bid, ask, apart⟩ : ∃ bestBid bestAsk,
        (s.bookWithoutOwnQuotes ticker book).bestBid = some bestBid ∧
        (s.bookWithoutOwnQuotes ticker book).bestAsk = some bestAsk ∧ bestBid.priceCents < bestAsk.priceCents := by
      simpa only [LocalOrderbook.Degenerate, not_forall, not_le, exists_prop] using degenerate
    obtain ⟨outlook, x, y, pricesOff, ran⟩ := update_priced venue bid ask apart
    -- of the three readings the fair value goes by the first only
    have fair : outlook.fairVal s.quoter = s.fairAt venue ticker (s.bookWithoutOwnQuotes ticker book) s.outside := by
      obtain ⟨_, _, _, _, _, _, ⟨first, _⟩, _, _, read⟩ := pricesOff.asked
      rw [read, first]
      rfl
    rw [fair] at ran
    split at ran
    next finite =>
      have decided : ((notePriced ticker book s).2.decided outlook bestBid bestAsk y).Sane :=
        ⟨sane.quoteSize, sane.minPrice, sane.maxPrice⟩
      rw [ran, finite]
      refine ⟨fun ⟨what, aborted⟩ => ?_, fun both => absurd both.2 (by decide)⟩
      exact absurd aborted ((applyQuotes_safe venue ticker _ _ _ _ decided).1 what)
    next infinite =>
      rw [ran]
      exact ⟨fun _ => ⟨degenerate, Bool.eq_false_iff.mpr infinite⟩, fun _ => ⟨_, rfl⟩⟩

end Quoter

namespace TradingSession

theorem coolingDown_reads (ticker : Ticker) (s : Desk F X) :
    coolingDown venue ticker s =
      (.ok ((s.session.cooldownUntil ticker).any fun deadline =>
        decide ((venue.host.steadyNow s.outside).1 < deadline)),
        if (s.session.cooldownUntil ticker).isSome then { s with outside := (venue.host.steadyNow s.outside).2 }
        else s) := by
  unfold coolingDown
  rw [bind_apply, get_apply, andThen_ok]
  cases s.session.cooldownUntil ticker <;> rfl

/-- Where an update fails, the market cools down, and the process ends only where the update ends it. -/
theorem quoteOrCoolDown_aborts_iff (ticker : Ticker) (book : LocalOrderbook) (s : Desk F X) :
    (∃ what, (quoteOrCoolDown venue ticker book s).1 = .error (.abort what)) ↔
      ∃ what, (Quoter.update venue ticker book s).1 = .error (.abort what) := by
  unfold quoteOrCoolDown
  rw [tryCatch_apply]
  rcases Quoter.update venue ticker book s with ⟨(what | what) | _, after⟩
  · constructor
    · rintro ⟨_, ⟨⟩⟩
    · rintro ⟨_, ⟨⟩⟩
  · exact Iff.rfl
  · exact Iff.rfl

/-- Over a sane desk a delta aborts only for want of a finite fair value. -/
theorem onDelta_aborts_iff {s : Desk F X} (sane : s.Sane) (ticker : Ticker) (side : Side) (priceCents : Int)
    (qty : Quantity) :
    (∃ what, (onDelta venue ticker side priceCents qty s).1 = .error (.abort what)) ↔
      ¬ s.Priceable venue ticker side priceCents qty := by
  let ticked : Desk F X :=
    { s with
      session := ((s.session.setBook ticker ((s.session.book ticker).applyDelta side priceCents qty)).ticked
        ticker (venue.host.steadyNow s.outside).1)
      outside := (venue.host.steadyNow s.outside).2 }
  have unfolded : onDelta venue ticker side priceCents qty s =
      (if s.session.isTracked ticker then do
        if ← coolingDown venue ticker then pure ()
        else quoteOrCoolDown venue ticker ((s.session.book ticker).applyDelta side priceCents qty)
      else pure ()) ticked := rfl
  have asked : coolingDown venue ticker ticked =
      (.ok (s.cooling venue ticker), { ticked with outside := s.stamped venue ticker }) := by
    have same : ticked.session.cooldownUntil = s.session.cooldownUntil := rfl
    rw [coolingDown_reads, same]
    unfold Desk.stamped Desk.cooling
    cases s.session.cooldownUntil ticker <;> rfl
  rw [unfolded]
  unfold Desk.Priceable
  dsimp only
  cases tracked : s.session.isTracked ticker with
  | false => exact ⟨by rintro ⟨_, ⟨⟩⟩, fun priced => absurd (fun off => by cases off) priced⟩
  | true =>
    rw [if_pos rfl, bind_apply, asked, andThen_ok]
    cases s.cooling venue ticker with
    | true => exact ⟨by rintro ⟨_, ⟨⟩⟩, fun priced => absurd (fun _ off => by cases off) priced⟩
    | false =>
      have sane' : ({ ticked with outside := s.stamped venue ticker } : Desk F X).Sane :=
        ⟨sane.quoteSize, sane.minPrice, sane.maxPrice⟩
      refine (quoteOrCoolDown_aborts_iff venue ticker _ _).trans ?_
      refine (Quoter.update_aborts_iff venue sane' ticker _).trans ?_
      simp only [forall_const, not_or, Bool.not_eq_true]
      exact Iff.rfl

end TradingSession

/-! ### Frames -/

/-- The callback of a body finds something to do: a body that reads well, and for a fill a tracked market and a new
trade. -/
def Live.Accepts (live : Live F X) (msgType : String) (msgBody : Json) : Prop :=
  (msgType = "orderbook_snapshot" ∧ ∃ snapshot, parseSnapshot F msgBody = .ok snapshot) ∨
  (msgType = "orderbook_delta" ∧ ∃ delta, parseDelta F msgBody = .ok delta) ∨
  (msgType = "trade" ∧ ∃ trade, parseTrade F msgBody = .ok trade) ∨
  (msgType = "fill" ∧ ∃ fill, messageFill F msgBody = .ok fill ∧ fill.marketTicker ∈ live.desk.session.tickers ∧
    OrderManager.fillKey fill ∉ live.desk.orderMgr.seenFills)

namespace WebSocketClient

/-- A text that does not parse, a frame without a type or a body, an error or a confirmation, a frame held back for a
gap, and one whose callback has nothing to do. -/
def Rejects (s : WebSocketClient × Live F X) : Option Json → Prop
  | none => True
  | some frame => ∀ msgType msgBody, messageBody frame = .ok (some (msgType, msgBody)) →
      (s.1.frameIntact msgType frame).1 = true → ¬ s.2.Accepts msgType msgBody

/-- The type is a string where there is one, a fill that comes through for a tracked market has a price
from 1 to 99 cents and a positive count, and a delta that is quoted on has a finite fair value. -/
def Bearable (venue : Venue X) (s : WebSocketClient × Live F X) : Option Json → Prop
  | none => True
  | some frame => (∀ type, frame.find? "type" = some type → ∃ text, type = .str text) ∧
      (∀ msgBody fill, messageBody frame = .ok (some ("fill", msgBody)) → (s.1.frameIntact "fill" frame).1 = true →
        messageFill F msgBody = .ok fill → fill.marketTicker ∈ s.2.desk.session.tickers →
          isValidPrice fill.priceCents = true ∧ fill.quantity.isPositive = true) ∧
      ∀ msgBody ticker side priceCents qty, messageBody frame = .ok (some ("orderbook_delta", msgBody)) →
        (s.1.frameIntact "orderbook_delta" frame).1 = true →
        parseDelta F msgBody = .ok (ticker, side, priceCents, qty) →
          s.2.desk.Priceable venue ticker side priceCents qty

structure Contained (venue : Venue X) (s : WebSocketClient × Live F X) (text : Option Json) : Prop where
  returns : (handleMessage (Live.callbacks venue) text s).1 = .ok ()
  kept : Rejects s text →
    (handleMessage (Live.callbacks venue) text s).2.2.desk.session = s.2.desk.session ∧
      (handleMessage (Live.callbacks venue) text s).2.2.desk.orderMgr = s.2.desk.orderMgr

theorem messageBody_typed {frame : Json} :
    (∃ what, messageBody frame = .error what) ↔
      ¬ ∀ type, frame.find? "type" = some type → ∃ text, type = .str text := by
  unfold messageBody
  cases found : frame.find? "type" with
  | none =>
    constructor
    · rintro ⟨_, ⟨⟩⟩
    · intro untyped
      exact absurd (fun _ none => by cases none) untyped
  | some type =>
    cases type with
    | str text =>
      constructor
      · rintro ⟨what, failed⟩
        cases body : frame.find? "msg" <;> simp [Json.getStr, bind, Except.bind, body, pure, Except.pure] at failed
      · intro untyped
        refine absurd (fun type same => ⟨text, ?_⟩) untyped
        cases same
        rfl
    | null | bool _ | int _ | float _ | arr _ | obj _ =>
      refine ⟨fun _ typed => ?_, fun _ => ⟨_, rfl⟩⟩
      obtain ⟨text, ⟨⟩⟩ := typed _ rfl

end WebSocketClient

/-! ### The dispatchers -/

/-- A dispatcher returns unless its callback aborts. -/
theorem contained_returns_iff {σ α : Type} (callback : α → Eff σ String Unit) (parsed : Except String α) (s : σ) :
    (contained callback parsed s).1 = .ok () ↔
      ∀ a, parsed = .ok a → ¬ ∃ what, (callback a s).1 = .error (.abort what) := by
  unfold contained
  cases parsed with
  | error what =>
    refine ⟨fun _ a read => ?_, fun _ => rfl⟩
    cases read
  | ok a =>
    simp only [tryCatch_apply, bind_apply, ofExcept_ok, andThen_ok]
    -- a callback may throw, abort or return, and only the abort is not caught
    cases ran : callback a s with
    | mk result after =>
      rcases result with (what | what) | _
      · refine ⟨fun _ b read => ?_, fun _ => rfl⟩
        cases read
        rw [ran]
        rintro ⟨_, ⟨⟩⟩
      · constructor
        · rintro ⟨⟩
        · intro lasts
          refine absurd ⟨what, ?_⟩ (lasts a rfl)
          rw [ran]
      · refine ⟨fun _ b read => ?_, fun _ => rfl⟩
        cases read
        rw [ran]
        rintro ⟨_, ⟨⟩⟩

theorem contained_malformed {σ α : Type} (callback : α → Eff σ String Unit) {parsed : Except String α}
    (malformed : ¬ ∃ a, parsed = .ok a) (s : σ) : contained callback parsed s = (.ok (), s) := by
  cases parsed with
  | error what => rfl
  | ok a => exact absurd ⟨a, rfl⟩ malformed

namespace Live

/-- What a fill callback leaves of its result: the answer of `on_fill` is dropped. -/
theorem onFill_aborts_iff (fill : Fill F) (live : Live F X) :
    (∃ what, (onFill fill live).1 = .error (.abort what)) ↔
      fill.marketTicker ∈ live.desk.session.tickers ∧ OrderManager.checkFill fill ≠ .ok () := by
  rw [← TradingSession.onFill_aborts_iff fill live.desk]
  unfold onFill onDesk
  simp only [bind_apply, modify_apply, andThen_ok, onPart_apply]
  cases (TradingSession.onFill fill live.desk).1 with
  | ok new =>
    constructor
    · rintro ⟨_, ⟨⟩⟩
    · rintro ⟨_, ⟨⟩⟩
  | error stop => simp only [andThen_error, Except.error.injEq]

theorem dispatch_returns_iff {live : Live F X} (sane : live.desk.Sane) (msgType : String) (msgBody : Json) :
    ((callbacks venue).dispatch msgType msgBody live).1 = .ok () ↔
      (∀ fill : Fill F, msgType = "fill" → messageFill F msgBody = .ok fill →
        fill.marketTicker ∈ live.desk.session.tickers →
          isValidPrice fill.priceCents = true ∧ fill.quantity.isPositive = true) ∧
      ∀ ticker side priceCents qty, msgType = "orderbook_delta" →
        parseDelta F msgBody = .ok (ticker, side, priceCents, qty) →
          live.desk.Priceable venue ticker side priceCents qty := by
  -- over a sane desk only the booking of a fill and the pricing of a delta can abort
  have snapshots : ∀ snapshot, ¬ ∃ what, ((callbacks venue).snapshot snapshot live).1 = .error (.abort what) := by
    rintro snapshot ⟨what, aborted⟩
    exact (TradingSession.markTicked_safe venue snapshot.ticker (.applySnapshot snapshot) live.desk sane).1 what
      aborted
  have deltas : ∀ ticker side priceCents qty,
      (∃ what, ((callbacks venue).delta (ticker, side, priceCents, qty) live).1 = .error (.abort what)) ↔
        ¬ live.desk.Priceable venue ticker side priceCents qty :=
    TradingSession.onDelta_aborts_iff venue sane
  have trades : ∀ trade, ¬ ∃ what, ((callbacks venue).trade trade live).1 = .error (.abort what) := by
    rintro trade ⟨what, ⟨⟩⟩
  unfold Callbacks.dispatch
  split
  next => simpa using (contained_returns_iff _ _ _).mpr fun snapshot _ => snapshots snapshot
  next =>
    rw [contained_returns_iff]
    refine ⟨fun lasts => ⟨fun _ other => absurd other (by decide), fun ticker side priceCents qty _ read => ?_⟩, ?_⟩
    · by_contra unpriceable
      exact lasts _ read ((deltas ticker side priceCents qty).mpr unpriceable)
    · rintro ⟨_, priceable⟩ ⟨ticker, side, priceCents, qty⟩ read aborts
      exact (deltas ticker side priceCents qty).mp aborts (priceable ticker side priceCents qty rfl read)
  next =>
    unfold dispatchFill
    rw [show (Eff.tryCatch _ _ live) = contained (callbacks venue).fill (messageFill F msgBody) live from rfl,
      contained_returns_iff]
    change (∀ fill, _ → ¬ ∃ what, (onFill fill live).1 = _) ↔ _
    have fills : ∀ fill : Fill F, (¬ ∃ what, (onFill fill live).1 = .error (.abort what)) ↔
        (fill.marketTicker ∈ live.desk.session.tickers →
          isValidPrice fill.priceCents = true ∧ fill.quantity.isPositive = true) := by
      intro fill
      rw [onFill_aborts_iff, not_and, not_not, OrderManager.checkFill_eq_ok_iff]
    simp only [fills]
    refine ⟨fun lasts => ⟨fun fill _ => lasts fill, fun _ _ _ _ other => absurd other (by decide)⟩, ?_⟩
    exact fun both fill => both.1 fill trivial
  next => simpa using (contained_returns_iff _ _ _).mpr fun trade _ => trades trade
  next notDelta notFill _ =>
    exact ⟨fun _ => ⟨fun _ fills => absurd fills notFill, fun _ _ _ _ deltas => absurd deltas notDelta⟩, fun _ => rfl⟩

/-- A callback that has nothing to do leaves the session and the orders alone. -/
theorem dispatch_rejected {live : Live F X} {msgType : String} {msgBody : Json}
    (rejected : ¬ live.Accepts msgType msgBody) :
    ((callbacks venue).dispatch msgType msgBody live).2.desk.session = live.desk.session ∧
      ((callbacks venue).dispatch msgType msgBody live).2.desk.orderMgr = live.desk.orderMgr := by
  unfold Callbacks.dispatch
  split
  next =>
    rw [contained_malformed _ fun read => rejected (.inl ⟨rfl, read⟩)]
    exact ⟨rfl, rfl⟩
  next =>
    rw [contained_malformed _ fun read => rejected (.inr (.inl ⟨rfl, read⟩))]
    exact ⟨rfl, rfl⟩
  next =>
    cases read : messageFill F msgBody with
    | error what =>
      unfold dispatchFill
      rw [read]
      exact ⟨rfl, rfl⟩
    | ok fill =>
      have after : (dispatchFill (callbacks venue).fill msgBody live).2.desk =
          (TradingSession.onFill fill live.desk).2 := by
        rw [← onFill_desk fill live]
        unfold dispatchFill
        simp only [read, tryCatch_apply, bind_apply, ofExcept_ok, andThen_ok]
        change (handleWith _ (onFill fill live)).2.desk = _
        rcases onFill fill live with ⟨(what | what) | _, after⟩ <;> rfl
      rw [after]
      refine ⟨congrArg (fun market => market.2.1) (TradingSession.onFill_market fill live.desk), ?_⟩
      -- a fill that is not accepted is untracked or booked before
      rcases TradingSession.onFill_cases fill live.desk with ⟨same, _⟩ | ⟨same, _⟩ | ⟨_, _, tracked, new, _⟩
      · exact congrArg Ledger.orderMgr same
      · exact congrArg Ledger.orderMgr same
      · exact absurd (.inr (.inr (.inr ⟨rfl, fill, read, tracked, new⟩))) rejected
  next =>
    rw [contained_malformed _ fun read => rejected (.inr (.inr (.inl ⟨rfl, read⟩)))]
    exact ⟨rfl, rfl⟩
  next => exact ⟨rfl, rfl⟩

end Live

namespace WebSocketClient

/-- A frame that comes to the type switch fares as its callback does. -/
theorem handleMessage_dispatched {σ : Type} (callbacks : Callbacks F σ) {frame : Json} {msgType : String}
    {msgBody : Json} {s : WebSocketClient × σ} (body : messageBody frame = .ok (some (msgType, msgBody)))
    (intact : (s.1.frameIntact msgType frame).1 = true) :
    (handleMessage callbacks (some frame) s).1 = (callbacks.dispatch msgType msgBody s.2).1 ∧
      (handleMessage callbacks (some frame) s).2.2 = (callbacks.dispatch msgType msgBody s.2).2 := by
  unfold handleMessage
  simp [body, intact]

/-- Any other frame reaches no callback. -/
theorem handleMessage_undispatched {σ : Type} (callbacks : Callbacks F σ) {frame : Json} {s : WebSocketClient × σ}
    (quiet : ∀ msgType msgBody, messageBody frame = .ok (some (msgType, msgBody)) →
      (s.1.frameIntact msgType frame).1 = false) :
    ((handleMessage callbacks (some frame) s).1 = .ok () ↔ ¬ ∃ what, messageBody frame = .error what) ∧
      (handleMessage callbacks (some frame) s).2.2 = s.2 := by
  unfold handleMessage
  cases body : messageBody frame with
  | error what => simp [body]
  | ok message =>
    cases message with
    | none => simp [body]
    | some message =>
      obtain ⟨msgType, msgBody⟩ := message
      simp [body, quiet msgType msgBody body]

theorem contained_iff {s : WebSocketClient × Live F X} (sane : s.2.desk.Sane) (frame : Json) :
    Contained venue s (some frame) ↔ Bearable venue s (some frame) := by
  have typed := @messageBody_typed frame
  by_cases dispatched : ∃ msgType msgBody, messageBody frame = .ok (some (msgType, msgBody)) ∧
      (s.1.frameIntact msgType frame).1 = true
  · obtain ⟨msgType, msgBody, body, intact⟩ := dispatched
    obtain ⟨result, after⟩ := handleMessage_dispatched (Live.callbacks venue) body intact
    -- a frame whose type is no string is malformed, and dispatched nowhere
    have string : ∀ type, frame.find? "type" = some type → ∃ text, type = .str text := by
      by_contra untyped
      obtain ⟨what, failed⟩ := typed.mpr untyped
      rw [body] at failed
      cases failed
    have returns := Live.dispatch_returns_iff venue sane msgType msgBody
    rw [← result] at returns
    constructor
    · intro contained
      obtain ⟨fills, deltas⟩ := returns.mp contained.returns
      refine ⟨string, fun msgBody' fill body' _ read tracked => ?_,
        fun msgBody' ticker side priceCents qty body' _ read => ?_⟩
      · rw [body] at body'
        cases body'
        exact fills fill rfl read tracked
      · rw [body] at body'
        cases body'
        exact deltas ticker side priceCents qty rfl read
    · rintro ⟨_, fills, deltas⟩
      constructor
      · apply returns.mpr
        constructor
        · rintro fill rfl read tracked
          exact fills msgBody fill body intact read tracked
        · rintro ticker side priceCents qty rfl read
          exact deltas msgBody ticker side priceCents qty body intact read
      · intro rejects
        rw [after]
        exact Live.dispatch_rejected venue (rejects msgType msgBody body intact)
  -- what is not dispatched changes nothing, and returns unless the type is malformed
  · have quiet : ∀ msgType msgBody, messageBody frame = .ok (some (msgType, msgBody)) →
        (s.1.frameIntact msgType frame).1 = false := by
      intro msgType msgBody body
      apply Bool.eq_false_iff.mpr
      exact fun intact => dispatched ⟨msgType, msgBody, body, intact⟩
    obtain ⟨result, after⟩ := handleMessage_undispatched (Live.callbacks venue) quiet
    rw [typed, not_not] at result
    constructor
    · intro contained
      refine ⟨result.mp contained.returns, fun msgBody fill body intact => ?_,
        fun msgBody ticker side priceCents qty body intact => ?_⟩
      · exact absurd ⟨"fill", msgBody, body, intact⟩ dispatched
      · exact absurd ⟨"orderbook_delta", msgBody, body, intact⟩ dispatched
    · rintro ⟨string, _⟩
      refine ⟨result.mpr string, fun _ => ?_⟩
      rw [after]
      exact ⟨rfl, rfl⟩

end WebSocketClient

open WebSocketClient

/-- With a sane configuration the process survives a frame, and a rejected one changes nothing, exactly if the frame is
bearable. -/
theorem frames_contained_iff {s : WebSocketClient × Live F X} (sane : s.2.desk.Sane) (text : Option Json) :
    Contained venue s text ↔ Bearable venue s text := by
  cases text with
  | none => exact ⟨fun _ => trivial, fun _ => ⟨rfl, fun _ => ⟨rfl, rfl⟩⟩⟩
  | some frame => exact contained_iff venue sane frame

/-- A client and a session that tracks market M. -/
def trackingM : WebSocketClient × Live Float Script :=
  ({ connected := true },
    { desk := (Process.start { tickers := ["M"] } {} {} {} none none false false : Process Float Script).desk })

def fillBody (price count : String) : Json :=
  .obj [("trade_id", .str "trade"), ("order_id", .str "order"), ("market_ticker", .str "M"),
    ("outcome_side", .str "yes"), ("yes_price_dollars", .str price), ("count_fp", .str count),
    ("is_taker", .bool false), ("ts_ms", .bool true)]

def fillFrame (price count : String) : Json := .obj [("type", .str "fill"), ("msg", fillBody price count)]

/-- A fill at forty cents, written with an exponent, and with a boolean for its time. -/
theorem frames_contained_iff_exponent :
    trackingM.2.desk.Sane ∧ Contained ⟨⟨"exchange"⟩, Script.host⟩ trackingM (some (fillFrame "4e-1" "1.00")) := by
  have sane : trackingM.2.desk.Sane := ⟨by decide, by decide, by decide⟩
  refine ⟨sane, (frames_contained_iff ⟨⟨"exchange"⟩, Script.host⟩ sane _).mpr ⟨?_, ?_, ?_⟩⟩
  · rintro type ⟨⟩
    exact ⟨"fill", rfl⟩
  · intro msgBody fill body _ read _
    have terms : (messageFill Float (fillBody "4e-1" "1.00")).map (fun fill => (fill.priceCents, fill.quantity)) =
        .ok (40, ⟨100⟩) := by decide +kernel
    cases body
    rw [read] at terms
    obtain ⟨price, count⟩ := Prod.ext_iff.mp (Except.ok.inj terms)
    change fill.priceCents = 40 at price
    change fill.quantity = ⟨100⟩ at count
    rw [price, count]
    decide
  · intro msgBody ticker side priceCents qty body
    have read : messageBody (fillFrame "4e-1" "1.00") = .ok (some ("fill", fillBody "4e-1" "1.00")) := rfl
    have other : "fill" = "orderbook_delta" :=
      congrArg Prod.fst (Option.some.inj (Except.ok.inj (read.symm.trans body)))
    exact absurd other (by decide)

/-- A numeric type, a price of less than half a cent, a price that is no number, and a count of nothing. -/
theorem process_brought_down :
    let handled (frame : Json) :=
      (handleMessage (Live.callbacks ⟨⟨"exchange"⟩, Script.host⟩) (some frame) trackingM).1
    handled (.obj [("type", .int 5)]) = .error (.exception "type must be string") ∧
      handled (fillFrame "0.0040" "1.00") = .error (.abort "fill price outside [1,99]") ∧
      handled (fillFrame "nan" "1.00") = .error (.abort "fill price outside [1,99]") ∧
      handled (fillFrame "0.4000" "0.00") = .error (.abort "fill quantity must be positive") ∧
      ¬ Contained ⟨⟨"exchange"⟩, Script.host⟩ trackingM (some (fillFrame "0.0040" "1.00")) := by
  intro handled
  have penniless : handled (fillFrame "0.0040" "1.00") = .error (.abort "fill price outside [1,99]") := by
    decide +kernel
  refine ⟨by decide +kernel, penniless, by decide +kernel, by decide +kernel, fun contained => ?_⟩
  have returned := contained.returns
  change handled _ = _ at returned
  rw [penniless] at returned
  cases returned

/-! ### Exact arithmetic -/

section

variable [Elementary ℚ]

/-- What every model answers is at most a price. -/
theorem estimate_finite (model : PricingModel ℚ) (input : FairValueInput ℚ) :
    Floating.isFinite (model.estimate input) = true := by
  obtain ⟨least, most⟩ := model.estimate_within input
  change decide (|model.estimate input| < 2 ^ 1024) = true
  rw [abs_of_nonneg (by linarith), decide_eq_true_eq]
  calc
    model.estimate input ≤ 99 := most
    _ < 2 ^ 7 := by norm_num
    _ ≤ 2 ^ 1024 := pow_le_pow_right₀ (by norm_num) (by norm_num)

/-- In exact arithmetic every delta can be priced. -/
theorem priceable_exact (s : Desk ℚ X) (ticker : Ticker) (side : Side) (priceCents : Int) (qty : Quantity) :
    s.Priceable venue ticker side priceCents qty := fun _ _ => .inr (estimate_finite _ _)

end

end Kalshi
