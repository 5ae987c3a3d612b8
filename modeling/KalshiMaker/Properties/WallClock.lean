import KalshiMaker.App.Backtest
import KalshiMaker.Properties.CarriedPnl
import KalshiMaker.Strategy.DesiredQuotes
import KalshiMaker.Strategy.Twins
import Mathlib.Data.Int.ConditionallyCompleteOrder

/-! What a replay owes to the wall clock: where no reading decides anything, any two clocks give the same
requests, simulated fills, positions and PnL. -/
namespace Kalshi

open Effect Eff Desk PaperTransport TradingSession

/-! ### Clocks -/

/-- What the two clocks say during a replay, reading by reading. -/
structure WallClock where
  system : Nat → TimePoint
  steady : Nat → TimePoint
  system_mono : Monotone system
  steady_mono : Monotone steady

/-- How many readings of each clock have been taken. -/
structure Readings where
  system : Nat := 0
  steady : Nat := 0
  deriving DecidableEq, Repr

namespace WallClock

/-- The outside of a replay apart from the paper exchange. Nothing is requested of it. -/
def host (clock : WallClock) : Host Readings where
  get _ y := (.error "no network", y)
  post _ _ y := (.error "no network", y)
  delete _ y := (.error "no network", y)
  steadyNow y := (clock.steady y.steady, { y with steady := y.steady + 1 })
  systemNow y := (clock.system y.system, { y with system := y.system + 1 })
  arrange _ keys := keys
  arrange_perm _ keys := .refl keys

/-- A clock that stands still. -/
def still : WallClock where
  system _ := 0
  steady _ := 0
  system_mono _ _ _ := le_rfl
  steady_mono _ _ _ := le_rfl

end WallClock

/-! ### Where no reading decides anything -/

variable {F X : Type} [Floating F]

/-- Whenever the clock is asked, the fair value is as finite as it is at time zero and leads to the same desired
pair. -/
def Desk.PricesUntimed (s : Desk F X) (ticker : Ticker) (visible : LocalOrderbook) (marketBid marketAsk : Int) :
    Prop :=
  ∀ tapeAskedAt imbalanceAskedAt takersAskedAt, tapeAskedAt ≤ imbalanceAskedAt → imbalanceAskedAt ≤ takersAskedAt →
    Floating.isFinite ((s.outlook ticker visible tapeAskedAt imbalanceAskedAt takersAskedAt).fairVal s.quoter) =
        Floating.isFinite ((s.outlook ticker visible 0 0 0).fairVal s.quoter) ∧
      (Floating.isFinite ((s.outlook ticker visible 0 0 0).fairVal s.quoter) →
        (s.outlook ticker visible tapeAskedAt imbalanceAskedAt takersAskedAt).desired s.quoter marketBid marketAsk =
          (s.outlook ticker visible 0 0 0).desired s.quoter marketBid marketAsk)

/-- Where the update has a reprice due, the order need not have rested for any time. -/
def Desk.RestsUntimed (s : Desk F X) (ticker : Ticker) (visible : LocalOrderbook) (marketBid marketAsk : Int) :
    Prop :=
  let outlook := s.outlook ticker visible 0 0 0
  let desired := outlook.desired s.quoter marketBid marketAsk
  Floating.isFinite (outlook.fairVal s.quoter) →
    ∀ side price, Quoter.aimOf (s.quoter.suppressed outlook.inventory) (desired .yes) (desired .no) side = some price →
      ∀ restMs, s.quoter.config.dueRest (legOf side) (s.quoter.ownQuotes ticker side) price = some restMs → restMs ≤ 0

/-- No clock reading decides anything in an update of `ticker` on this book. -/
def Desk.Untimed (s : Desk F X) (ticker : Ticker) (book : LocalOrderbook) : Prop :=
  ∀ bid ask, (s.bookWithoutOwnQuotes ticker book).bestBid = some bid →
    (s.bookWithoutOwnQuotes ticker book).bestAsk = some ask → bid.priceCents < ask.priceCents →
      s.PricesUntimed ticker (s.bookWithoutOwnQuotes ticker book) bid.priceCents ask.priceCents ∧
        s.RestsUntimed ticker (s.bookWithoutOwnQuotes ticker book) bid.priceCents ask.priceCents

/-- A frame that reaches the quoter finds its market without a cooldown, and an update that no reading decides. -/
def Process.Untimed (p : Process F X) : Frame → Prop
  | .snapshot snapshot =>
    p.desk.session.isTracked snapshot.ticker = false →
      p.desk.Untimed snapshot.ticker (LocalOrderbook.applySnapshot snapshot)
  | .delta ticker side priceCents qty =>
    p.desk.session.isTracked ticker = true →
      p.desk.session.cooldownUntil ticker = none ∧
        p.desk.Untimed ticker ((p.desk.session.book ticker).applyDelta side priceCents qty)
  | .trade _ => True

/-! ### A replay beside one at a standing clock -/

abbrev ReplayDesk (F : Type) [Floating F] := Desk F (PaperWorld F Readings)

/-- The paper exchanges are the same but for their stamps, and no reading is ahead of its clock. -/
def WallClock.beside (clock : WallClock) (F : Type) [Floating F] :
    Likeness F (PaperWorld F Readings) (PaperWorld F Readings) where
  scope _ := True
  outside x x' := x.paper.unstamped = x'.paper.unstamped
  readings _ x' now now' := now ≤ 0 ∧ now' ≤ clock.steady x'.rest.steady
  flags := True
  smoothing := Eq

/-- What a replay reads that the quoter's requests leave alone. -/
def Desk.backdrop (s : Desk F X) : Option (FlowImbalanceGuard F) × Option (TradeTape F) ×
    TradingSession F × Bool × Bool × List (PnlMap F) :=
  (s.flowGuard, s.tradeTape, s.session, s.analytics, s.pnlListener, s.persisted)

theorem backdrop_detached : Quoter.Detached (Desk.backdrop (F := F) (X := X)) where
  quoter _ _ := rfl
  outside _ _ := rfl
  called _ _ _ := rfl
  orders _ _ := rfl
  emit emission kept s := by
    cases emission with
    | persist totals => exact absurd rfl (kept totals)
    | quoteDecision _ _ _ _ _ _ _ _ | fill _ _ _ => simp [Desk.backdrop, Desk.persisted, Desk.emit]

theorem update_backdrop (venue : Venue X) (ticker : Ticker) (book : LocalOrderbook) (s : Desk F X) :
    (Quoter.update venue ticker book s).2.backdrop = s.backdrop :=
  chain_unmoved (Quoter.update_moves (backdrop_detached.moves venue ticker) book s)

/-- A desk of the replay at the standing clock, and the same moment of the replay at another clock. -/
structure Abreast (clock : WallClock) (s s' : ReplayDesk F) : Prop where
  twins : (clock.beside F).Twins s s'
  flowGuard : s.flowGuard = s'.flowGuard
  tradeTape : s.tradeTape = s'.tradeTape
  obMap : s.session.obMap = s'.session.obMap
  priorPnl : s.session.priorPnl = s'.session.priorPnl
  cooldown : ∀ ticker, (s.session.cooldownUntil ticker).isSome = (s'.session.cooldownUntil ticker).isSome
  quiet : s.analytics = false
  quiet' : s'.analytics = false
  pnlListener : s.pnlListener = s'.pnlListener
  persisted : s.persisted = s'.persisted

variable (rest : RestClient) (clock : WallClock)

theorem paperVenue_alike :
    (clock.beside F).Venues (paperVenue rest WallClock.still.host) (paperVenue rest clock.host) where
  rest := rfl
  post url body x x' same := by
    -- the next order id does not depend on the stamps
    have next : x.paper.unstamped.nextOrderId = x'.paper.unstamped.nextOrderId :=
      congrArg PaperTransport.nextOrderId (same : x.paper.unstamped = x'.paper.unstamped)
    change (PaperWorld.post WallClock.still.host body x).1 = (PaperWorld.post clock.host body x').1 ∧
      (clock.beside F).Later x x' (PaperWorld.post WallClock.still.host body x).2
        (PaperWorld.post clock.host body x').2
    unfold PaperWorld.post
    cases readOrder F body with
    | error what => exact ⟨rfl, same, fun _ _ earlier => earlier⟩
    | ok order =>
      refine ⟨congrArg (fun id => Except.ok (acceptance id)) next, ?_, fun _ _ earlier => earlier⟩
      change (x.paper.accept order _).unstamped = (x'.paper.accept order _).unstamped
      rw [accept_unstamped, accept_unstamped]
      exact congrArg (fun paper => PaperTransport.accept paper order 0) same
  delete url x x' same := by
    refine ⟨rfl, ?_, fun _ _ earlier => earlier⟩
    change (x.paper.delete url).unstamped = (x'.paper.delete url).unstamped
    rw [delete_unstamped, delete_unstamped]
    exact congrArg (fun paper => PaperTransport.delete paper url) same
  steady x x' same := by
    have ticks : clock.steady x'.rest.steady ≤ clock.steady (x'.rest.steady + 1) :=
      clock.steady_mono (Nat.le_succ _)
    exact ⟨⟨same, fun _ _ earlier => ⟨earlier.1, earlier.2.trans ticks⟩⟩, le_rfl, ticks⟩

/-! ### What an update prices off, at either clock -/

namespace Abreast

variable {clock} {s s' : ReplayDesk F}

/-- The readings of a clock in a replay, one question after the other. -/
theorem asked_ordered {x y : PaperWorld F Readings} {now : TimePoint}
    (asked : Quoter.Asked (paperVenue rest clock.host) x now y) :
    now = clock.system x.rest.system ∧ x.rest.system ≤ y.rest.system ∧ y.paper = x.paper ∧
      y.rest.steady = x.rest.steady := by
  obtain ⟨read, rfl | rfl⟩ := asked
  · exact ⟨read, le_rfl, rfl, rfl⟩
  · exact ⟨read, Nat.le_succ _, rfl, rfl⟩

theorem outlook_alike (abreast : Abreast clock s s') (ticker : Ticker) (visible : LocalOrderbook)
    (t₁ t₂ t₃ : TimePoint) : s'.outlook ticker visible t₁ t₂ t₃ = s.outlook ticker visible t₁ t₂ t₃ := by
  have smoothing : s.quoter.fvEma = s'.quoter.fvEma := abreast.twins.smoothing
  unfold Desk.outlook
  rw [← smoothing, ← abreast.tradeTape, ← abreast.twins.config, ← abreast.flowGuard, ← abreast.twins.orderMgr]

theorem fairVal_alike (abreast : Abreast clock s s') (outlook : Outlook F) :
    outlook.fairVal s'.quoter = outlook.fairVal s.quoter := by
  unfold Outlook.fairVal
  rw [← abreast.twins.config, ← abreast.twins.model]

theorem desired_alike (abreast : Abreast clock s s') (outlook : Outlook F) (marketBid marketAsk : Int) :
    outlook.desired s'.quoter marketBid marketAsk = outlook.desired s.quoter marketBid marketAsk := by
  unfold Outlook.desired Outlook.leanedVal Quoter.desiredAt
  rw [abreast.fairVal_alike, ← abreast.twins.config, ← abreast.twins.inventoryB]

/-- Smoothing moves both desks alike. -/
theorem smoothed (abreast : Abreast clock s s') (ticker : Ticker) (visible : LocalOrderbook)
    {x x' : PaperWorld F Readings} (paper : x.paper = s.outside.paper) (paper' : x'.paper = s'.outside.paper)
    (steady' : x'.rest.steady = s'.outside.rest.steady) :
    Abreast clock (s.smoothed ticker visible x) (s'.smoothed ticker visible x') := by
  have smoothing : s.quoter.fvEma = s'.quoter.fvEma := abreast.twins.smoothing
  refine { abreast with twins := { abreast.twins with outside := ?_, smoothing := ?_, slots := ?_ } }
  · change x.paper.unstamped = x'.paper.unstamped
    rw [paper, paper']
    exact abreast.twins.outside
  · change (s.smoothed ticker visible x).quoter.fvEma = (s'.smoothed ticker visible x').quoter.fvEma
    unfold Desk.smoothed
    dsimp only
    rw [abreast.outlook_alike, ← abreast.twins.config, ← smoothing]
  · intro other side within
    refine (abreast.twins.slots other side within).mono ?_
    rintro now now' ⟨first, second⟩
    have third : now' ≤ clock.steady x'.rest.steady := by
      rw [steady']
      exact second
    exact ⟨first, third⟩

theorem quiet_emission {s : ReplayDesk F} (quiet : s.analytics = false) (ticker : Ticker) (visible : LocalOrderbook)
    (x : PaperWorld F Readings) (emission : Emission F) :
    { s.smoothed ticker visible x with emitted := if s.analytics then s.emitted ++ [emission] else s.emitted } =
      s.smoothed ticker visible x := by
  rw [quiet]
  rfl

/-- Both desks come to the pair of the standing clock, or both stop. -/
theorem desiredQuotes_run (abreast : Abreast clock s s') {ticker : Ticker} {visible : LocalOrderbook}
    {marketBid marketAsk : Int} (untimed : s.PricesUntimed ticker visible marketBid marketAsk) :
    ∃ x x' outlook, outlook = s.outlook ticker visible 0 0 0 ∧
      Abreast clock (s.smoothed ticker visible x) (s'.smoothed ticker visible x') ∧
      (Floating.isFinite (outlook.fairVal s.quoter) = true ∧
        Quoter.desiredQuotes (paperVenue rest WallClock.still.host) ticker visible marketBid marketAsk s =
          (.ok (outlook.inventory, outlook.desired s.quoter marketBid marketAsk .yes,
            outlook.desired s.quoter marketBid marketAsk .no), s.smoothed ticker visible x) ∧
        Quoter.desiredQuotes (paperVenue rest clock.host) ticker visible marketBid marketAsk s' =
          (.ok (outlook.inventory, outlook.desired s.quoter marketBid marketAsk .yes,
            outlook.desired s.quoter marketBid marketAsk .no), s'.smoothed ticker visible x') ∨
      Quoter.desiredQuotes (paperVenue rest WallClock.still.host) ticker visible marketBid marketAsk s =
          (.error (.abort "fair value is not finite"), s.smoothed ticker visible x) ∧
        Quoter.desiredQuotes (paperVenue rest clock.host) ticker visible marketBid marketAsk s' =
          (.error (.abort "fair value is not finite"), s'.smoothed ticker visible x')) := by
  obtain ⟨t₁, x₁, t₂, x₂, t₃, x₃, _, rfl, asked₁, asked₂, asked₃, ran⟩ :=
    Quoter.desiredQuotes_run (paperVenue rest WallClock.still.host) ticker visible marketBid marketAsk s
  obtain ⟨t₁', x₁', t₂', x₂', t₃', x₃', _, rfl, asked₁', asked₂', asked₃', ran'⟩ :=
    Quoter.desiredQuotes_run (paperVenue rest clock.host) ticker visible marketBid marketAsk s'
  -- each of the three readings moves the clock and nothing else
  obtain ⟨rfl, _, paper₁, steady₁⟩ := asked_ordered rest asked₁
  obtain ⟨rfl, _, paper₂, steady₂⟩ := asked_ordered rest asked₂
  obtain ⟨rfl, _, paper₃, steady₃⟩ := asked_ordered rest asked₃
  obtain ⟨rfl, later₁, paper₁', steady₁'⟩ := asked_ordered rest asked₁'
  obtain ⟨rfl, later₂, paper₂', steady₂'⟩ := asked_ordered rest asked₂'
  obtain ⟨rfl, _, paper₃', steady₃'⟩ := asked_ordered rest asked₃'
  obtain ⟨finite, same⟩ := untimed _ _ _ (clock.system_mono later₁) (clock.system_mono later₂)
  rw [quiet_emission abreast.quiet] at ran
  rw [quiet_emission abreast.quiet', abreast.outlook_alike, abreast.fairVal_alike,
    abreast.desired_alike, finite] at ran'
  -- a fair value that is not finite stops both desks
  cases isFinite : Floating.isFinite ((s.outlook ticker visible 0 0 0).fairVal s.quoter) with
  | true =>
    rw [same isFinite, if_pos isFinite] at ran'
    have ran := if_pos isFinite ▸ ran
    refine ⟨x₃, x₃', _, rfl, ?_, .inl ⟨isFinite, ran, ran'⟩⟩
    apply abreast.smoothed
    · rw [paper₃, paper₂, paper₁]
    · rw [paper₃', paper₂', paper₁']
    · rw [steady₃', steady₂', steady₁']
  | false =>
    have infinite : ¬ Floating.isFinite ((s.outlook ticker visible 0 0 0).fairVal s.quoter) = true := by
      simp [isFinite]
    rw [if_neg infinite] at ran'
    have ran := if_neg infinite ▸ ran
    exact ⟨x₁, x₁', _, rfl, abreast.smoothed _ _ paper₁ paper₁' steady₁', .inr ⟨ran, ran'⟩⟩

theorem of_backdrop (abreast : Abreast clock s s') {t t' : ReplayDesk F} (twins : (clock.beside F).Twins t t')
    (kept : t.backdrop = s.backdrop) (kept' : t'.backdrop = s'.backdrop) : Abreast clock t t' := by
  simp only [Desk.backdrop, Prod.mk.injEq] at kept kept'
  obtain ⟨flowGuard, tradeTape, session, quiet, pnlListener, persisted⟩ := kept
  obtain ⟨flowGuard', tradeTape', session', quiet', pnlListener', persisted'⟩ := kept'
  constructor
  · exact twins
  · rw [flowGuard, flowGuard', abreast.flowGuard]
  · rw [tradeTape, tradeTape', abreast.tradeTape]
  · rw [session, session', abreast.obMap]
  · rw [session, session', abreast.priorPnl]
  · rw [session, session']
    exact abreast.cooldown
  · rw [quiet, abreast.quiet]
  · rw [quiet', abreast.quiet']
  · rw [pnlListener, pnlListener', abreast.pnlListener]
  · rw [persisted, persisted', abreast.persisted]

/-- An update that no reading decides is the same at either clock. -/
theorem update_alike (abreast : Abreast clock s s') {ticker : Ticker} {book : LocalOrderbook}
    (untimed : s.Untimed ticker book) :
    Alike (Abreast clock) (Quoter.update (paperVenue rest WallClock.still.host) ticker book)
      (Quoter.update (paperVenue rest clock.host) ticker book) s s' := by
  have noted : Abreast clock (Quoter.notePriced ticker book s).2 (Quoter.notePriced ticker book s').2 :=
    { abreast with twins := { abreast.twins with } }
  have twin : Alike (clock.beside F).Twins (Quoter.update (paperVenue rest WallClock.still.host) ticker book)
      (Quoter.update (paperVenue rest clock.host) ticker book) s s' := by
    apply Quoter.update_alike trivial (paperVenue_alike rest clock) abreast.twins rfl
    · intro bid ask bids asks apart
      obtain ⟨x, x', outlook, read, after, ⟨_, ran, ran'⟩ | ⟨ran, ran'⟩⟩ :=
        noted.desiredQuotes_run rest (untimed bid ask bids asks apart).1
      · exact ⟨by rw [ran, ran'], by rw [ran, ran']; exact after.twins⟩
      · exact ⟨by rw [ran, ran'], by rw [ran, ran']; exact after.twins⟩
    · intro bid ask bids asks apart wanted t t' priced priced' side desired aimed
      obtain ⟨x, x', _, rfl, after, ⟨finite, ran, ran'⟩ | ⟨ran, ran'⟩⟩ :=
        noted.desiredQuotes_run rest (untimed bid ask bids asks apart).1
      · cases ran.symm.trans priced
        cases ran'.symm.trans priced'
        have slots := after.twins.slots ticker side trivial
        apply Quoter.choice_alike slots.orderId fun held => ⟨slots.quoted held, slots.fade trivial⟩
        intro restMs due
        -- with no minimal rest an order is old enough on either clock
        have brief : restMs ≤ 0 := (untimed bid ask bids asks apart).2 finite side desired aimed restMs due
        obtain ⟨first, second⟩ := slots.placed (QuoterConfig.dueRest_held due)
        exact (restingTooYoung_expired first brief).trans (restingTooYoung_expired second brief).symm
      · cases ran.symm.trans priced
  exact ⟨twin.1, abreast.of_backdrop twin.2 (update_backdrop _ _ _ _) (update_backdrop _ _ _ _)⟩

/-! ### Frames -/

/-- A change of the session that leaves alone what the replay reads of it, and a reading of the steady clock. -/
theorem ticked (abreast : Abreast clock s s') (session session' : TradingSession F)
    (tickers : session.tickers = session'.tickers) (obMap : session.obMap = session'.obMap)
    (priorPnl : session.priorPnl = session'.priorPnl)
    (cooldown : ∀ ticker, (session.cooldownUntil ticker).isSome = (session'.cooldownUntil ticker).isSome) :
    Abreast clock
      { s with session, outside := ((paperVenue (F := F) rest WallClock.still.host).host.steadyNow s.outside).2 }
      { s' with session := session', outside :=
        ((paperVenue (F := F) rest clock.host).host.steadyNow s'.outside).2 } := by
  have later := ((paperVenue_alike rest clock).steady _ _ abreast.twins.outside).1
  refine { abreast with twins := { abreast.twins.later later with tickers }, obMap, priorPnl, cooldown, .. }

theorem startCooldown_alike (abreast : Abreast clock s s') (ticker : Ticker) :
    Alike (Abreast clock) (startCooldown (paperVenue rest WallClock.still.host) ticker)
      (startCooldown (paperVenue rest clock.host) ticker) s s' := by
  have cooled : ∀ (expiry until' : TimePoint) (other : Ticker),
      ((s.session.cooledUntil ticker expiry).cooldownUntil other).isSome =
        ((s'.session.cooledUntil ticker until').cooldownUntil other).isSome := by
    intro expiry until' other
    unfold TradingSession.cooledUntil
    dsimp only
    by_cases here : other = ticker
    · rw [here, Function.update_self, Function.update_self]
      rfl
    · rw [Function.update_of_ne here, Function.update_of_ne here]
      exact abreast.cooldown other
  exact ⟨rfl, abreast.ticked rest _ _ abreast.twins.tickers abreast.obMap abreast.priorPnl (cooled _ _)⟩

theorem coolingDown_off {venue : Venue X} {s : Desk F X} {ticker : Ticker}
    (off : s.session.cooldownUntil ticker = none) : coolingDown venue ticker s = (.ok false, s) := by
  unfold coolingDown
  rw [bind_apply, get_apply, andThen_ok, off]
  rfl

theorem onDelta_alike (abreast : Abreast clock s s') {ticker : Ticker} {side : Side} {priceCents : Int}
    {qty : Quantity}
    (untimed : s.session.isTracked ticker = true → s.session.cooldownUntil ticker = none ∧
      s.Untimed ticker ((s.session.book ticker).applyDelta side priceCents qty)) :
    Alike (Abreast clock) (onDelta (paperVenue rest WallClock.still.host) ticker side priceCents qty)
      (onDelta (paperVenue rest clock.host) ticker side priceCents qty) s s' := by
  have book : s.session.book ticker = s'.session.book ticker := by
    unfold TradingSession.book
    rw [abreast.obMap]
  have tracked : s.session.isTracked ticker = s'.session.isTracked ticker := by
    unfold TradingSession.isTracked
    rw [abreast.twins.tickers]
  have unfolded : ∀ (clock : WallClock) (s : ReplayDesk F),
      onDelta (paperVenue rest clock.host) ticker side priceCents qty s =
        (if s.session.isTracked ticker then do
          if ← coolingDown (paperVenue rest clock.host) ticker then pure ()
          else
            quoteOrCoolDown (paperVenue rest clock.host) ticker
              ((s.session.book ticker).applyDelta side priceCents qty)
        else pure ())
          { s with
            session := (s.session.setBook ticker ((s.session.book ticker).applyDelta side priceCents qty)).ticked
              ticker (clock.steady s.outside.rest.steady)
            outside := ((paperVenue (F := F) rest clock.host).host.steadyNow s.outside).2 } := fun _ _ => rfl
  have after := abreast.ticked rest
    ((s.session.setBook ticker ((s.session.book ticker).applyDelta side priceCents qty)).ticked ticker
      (WallClock.still.steady s.outside.rest.steady))
    ((s'.session.setBook ticker ((s.session.book ticker).applyDelta side priceCents qty)).ticked ticker
      (clock.steady s'.outside.rest.steady))
    abreast.twins.tickers (congrArg (AList.insert ticker _) abreast.obMap) abreast.priorPnl abreast.cooldown
  unfold Eff.Alike
  rw [unfolded, unfolded, ← book]
  refine Alike.ite (by rw [tracked]) (fun isTracked => ?_) (fun _ => Alike.pure () after)
  obtain ⟨off, untimed⟩ := untimed isTracked
  -- a market without a cooldown never asks the clock for one
  have off' : s'.session.cooldownUntil ticker = none := by
    have same := abreast.cooldown ticker
    rw [off] at same
    exact Option.not_isSome_iff_eq_none.mp (by rw [← same]; decide)
  refine Alike.after (coolingDown_off ?_) (coolingDown_off ?_) ?_
  · exact off
  · exact off'
  refine Alike.tryCatch (after.update_alike rest untimed) fun _ t t' abreast => ?_
  exact abreast.startCooldown_alike rest ticker

theorem seedOrderbook_alike (abreast : Abreast clock s s') {snapshot : Orderbook}
    (untimed : s.Untimed snapshot.ticker (LocalOrderbook.applySnapshot snapshot)) :
    Alike (Abreast clock) (seedOrderbook (paperVenue rest WallClock.still.host) snapshot)
      (seedOrderbook (paperVenue rest clock.host) snapshot) s s' := by
  have after := abreast.ticked rest
    ((s.session.setBook snapshot.ticker (LocalOrderbook.applySnapshot snapshot)).seeded snapshot.ticker
      (WallClock.still.steady s.outside.rest.steady))
    ((s'.session.setBook snapshot.ticker (LocalOrderbook.applySnapshot snapshot)).seeded snapshot.ticker
      (clock.steady s'.outside.rest.steady))
    abreast.twins.tickers (congrArg (AList.insert snapshot.ticker _) abreast.obMap) abreast.priorPnl abreast.cooldown
  exact Alike.tryCatch (after.update_alike rest untimed) fun _ t t' abreast => Alike.pure () abreast

theorem recordFill_alike (abreast : Abreast clock s s') (fill : Fill F) :
    Alike (Abreast clock) (OrderManager.recordFill fill) (OrderManager.recordFill fill) s s' := by
  unfold OrderManager.recordFill
  cases OrderManager.checkFill fill with
  | error what => exact ⟨rfl, abreast⟩
  | ok _ =>
    refine Alike.get_bind ?_
    rw [← abreast.twins.orderMgr]
    refine Alike.bind (Alike.modify (R := Abreast clock) ?_) fun _ t t' _ _ abreast => Alike.pure _ abreast
    have stays : (clock.beside F).Later s.outside s'.outside s.outside s'.outside :=
      ⟨abreast.twins.outside, fun _ _ earlier => earlier⟩
    exact abreast.of_backdrop ((abreast.twins.called _ stays).withOrders _) rfl rfl

theorem reportFill_alike (abreast : Abreast clock s s') (fill : Fill F) :
    Alike (Abreast clock) (reportFill fill) (reportFill fill) s s' := by
  have totals : s.session.carriedTotals s.orderMgr = s'.session.carriedTotals s'.orderMgr := by
    unfold TradingSession.carriedTotals
    rw [abreast.twins.tickers, abreast.priorPnl, abreast.twins.orderMgr]
  unfold reportFill
  refine Alike.get_bind ?_
  rw [abreast.quiet, abreast.quiet', ← abreast.pnlListener, ← totals]
  refine Alike.ite Iff.rfl (fun told => by cases told) (fun _ => ?_)
  refine Alike.ite Iff.rfl (fun _ => Alike.modify ?_) (fun _ => Alike.pure () abreast)
  refine { abreast with twins := { abreast.twins with }, persisted := ?_ }
  unfold Desk.persisted
  rw [List.filterMap_append, List.filterMap_append]
  exact congrArg (fun earlier => earlier ++ _) abreast.persisted

/-- A fill is booked by its own time alone. -/
theorem onFill_alike (abreast : Abreast clock s s') (fill : Fill F) :
    Alike (Abreast clock) (onFill fill) (onFill fill) s s' := by
  unfold onFill
  refine Alike.bind (Alike.modify (R := Abreast clock) ?_) (fun _ t t' _ _ abreast => ?_)
  · exact { abreast with twins := { abreast.twins with }, tradeTape := by rw [abreast.tradeTape] }
  refine Alike.get_bind ?_
  have tracked : t.session.isTracked fill.marketTicker = t'.session.isTracked fill.marketTicker := by
    unfold TradingSession.isTracked
    rw [abreast.twins.tickers]
  rw [← tracked]
  refine Alike.ite Iff.rfl (fun _ => ?_) (fun _ => Alike.pure false abreast)
  refine Alike.bind (abreast.recordFill_alike fill) (fun new t t' _ _ abreast => ?_)
  refine Alike.ite Iff.rfl (fun _ => ?_) (fun _ => Alike.pure false abreast)
  refine Alike.bind (R := Abreast clock) ?_ fun _ t t' _ _ abreast => Alike.pure true abreast
  unfold settleFill
  refine Alike.get_bind ?_
  rw [← abreast.twins.orderMgr, ← abreast.twins.tickers]
  -- a closed order is dropped from its slot on both desks before the rest runs
  have forgotten : ∀ {m m' : Eff (ReplayDesk F) String Unit},
      (∀ {t t'}, Abreast clock t t' → Alike (Abreast clock) m m' t t') →
      Alike (Abreast clock)
        (do if (t.orderMgr.openOrders.lookup fill.orderId).isNone then
              mapQuoter fun quoter => quoter.forgetOrder fill.marketTicker fill.orderId
            m)
        (do if (t.orderMgr.openOrders.lookup fill.orderId).isNone then
              mapQuoter fun quoter => quoter.forgetOrder fill.marketTicker fill.orderId
            m') t t' := by
    intro m m' next
    refine Alike.ite Iff.rfl (fun _ => ?_) (fun _ => next abreast)
    refine Alike.bind (Alike.modify (R := Abreast clock) ?_) fun _ t t' _ _ abreast => next abreast
    exact abreast.of_backdrop (abreast.twins.forgetOrder _ _) rfl rfl
  apply forgotten
  intro t t' abreast
  refine Alike.bind (Alike.modify (R := Abreast clock) ?_) (fun _ t t' _ _ abreast => ?_)
  · exact abreast.of_backdrop { abreast.twins with riskMgr := by rw [abreast.twins.riskMgr] } rfl rfl
  refine Alike.bind (Alike.modify (R := Abreast clock) ?_) (fun _ t t' _ _ abreast => abreast.reportFill_alike fill)
  exact { abreast with twins := { abreast.twins with }, flowGuard := by rw [abreast.flowGuard] }

theorem paperFill_alike {x x' : PaperWorld F Readings} (same : x.paper.unstamped = x'.paper.unstamped)
    (orderId : OrderId) (fillQty : Int) :
    (PaperWorld.simulateFill WallClock.still.host orderId fillQty x).1 =
        (PaperWorld.simulateFill clock.host orderId fillQty x').1 ∧
      (clock.beside F).Later x x' (PaperWorld.simulateFill WallClock.still.host orderId fillQty x).2
        (PaperWorld.simulateFill clock.host orderId fillQty x').2 := by
  have found := (find_unstamped x.paper orderId).symm.trans
    ((congrArg (fun paper => paper.openOrders.find? (fillable orderId)) same).trans (find_unstamped x'.paper orderId))
  unfold PaperWorld.simulateFill
  cases here : x.paper.openOrders.find? (fillable orderId) with
  | none =>
    rw [here, Option.map_none] at found
    rw [Option.map_eq_none_iff.mp found.symm]
    exact ⟨rfl, same, fun _ _ earlier => earlier⟩
  | some order =>
    rw [here, Option.map_some] at found
    obtain ⟨order', there, stamped⟩ := Option.map_eq_some_iff.mp found.symm
    rw [there]
    have remaining := congrArg Order.remainingQuantity stamped
    change order'.remainingQuantity = order.remainingQuantity at remaining
    refine ⟨rfl, ?_, fun _ _ earlier => earlier⟩
    change (x.paper.filled order _ _).unstamped = (x'.paper.filled order' _ _).unstamped
    rw [filled_unstamped, filled_unstamped, same, remaining, stamped]

theorem simulateFill_alike (abreast : Abreast clock s s') (orderId : OrderId) (fillQty : Int) :
    Alike (Abreast clock) (simulateFill WallClock.still.host orderId fillQty)
      (simulateFill clock.host orderId fillQty) s s' := by
  obtain ⟨answer, later⟩ := @paperFill_alike F _ clock _ _ abreast.twins.outside orderId fillQty
  exact ⟨congrArg Except.ok answer, abreast.of_backdrop (abreast.twins.later later) rfl rfl⟩

theorem fillCrossable_alike (print : PublicTrade) {targets : List Crossable} {printRemaining : Int}
    (abreast : Abreast clock s s') :
    Alike (Abreast clock) (fillCrossable WallClock.still.host print targets printRemaining)
      (fillCrossable clock.host print targets printRemaining) s s' := by
  induction targets generalizing printRemaining s s' with
  | nil => exact Alike.pure 0 abreast
  | cons target targets ih =>
    rw [fillCrossable, fillCrossable]
    refine Alike.ite Iff.rfl (fun _ => Alike.pure 0 abreast)
      (fun _ => Alike.ite Iff.rfl (fun _ => ih abreast) (fun _ => ?_))
    refine Alike.bind (abreast.simulateFill_alike _ _) (fun filled t t' _ _ abreast => ?_)
    refine Alike.ite Iff.rfl (fun _ => ?_) (fun _ => ih abreast)
    refine Alike.get_bind ?_
    have fills : t.outside.paper.unstamped.fills.length = t'.outside.paper.unstamped.fills.length :=
      congrArg (fun paper => paper.fills.length) (abreast.twins.outside : t.outside.paper.unstamped = _)
    rw [unstamped, unstamped, List.length_map, List.length_map] at fills
    rw [← fills]
    refine Alike.bind (abreast.onFill_alike _) (fun _ t t' _ _ abreast => ?_)
    exact Alike.bind (ih abreast) fun count t t' _ _ abreast => Alike.pure (count + 1) abreast

theorem crossable_unstamped (paper : PaperTransport F) (print : PublicTrade) :
    crossable paper.unstamped print = crossable paper print := by
  unfold crossable unstamped
  rw [List.filterMap_map]
  rfl

theorem handleFrame_alike (abreast : Abreast clock s s') {frame : Frame} (alive : Bool)
    (untimed : ({ desk := s, alive } : Process F (PaperWorld F Readings)).Untimed frame) :
    Alike (Abreast clock) (handleFrame WallClock.still.host rest frame) (handleFrame clock.host rest frame) s s' := by
  cases frame with
  | snapshot snapshot =>
    have tracked : s.session.isTracked snapshot.ticker = s'.session.isTracked snapshot.ticker := by
      unfold TradingSession.isTracked
      rw [abreast.twins.tickers]
    unfold handleFrame
    refine Alike.get_bind ?_
    rw [← tracked]
    refine Alike.ite Iff.rfl (fun _ => ?_) (fun new => ?_)
    · have after := abreast.ticked rest
        ((s.session.setBook snapshot.ticker (LocalOrderbook.applySnapshot snapshot)).ticked snapshot.ticker
          (WallClock.still.steady s.outside.rest.steady))
        ((s'.session.setBook snapshot.ticker (LocalOrderbook.applySnapshot snapshot)).ticked snapshot.ticker
          (clock.steady s'.outside.rest.steady))
        abreast.twins.tickers (congrArg (AList.insert snapshot.ticker _) abreast.obMap) abreast.priorPnl
        abreast.cooldown
      exact ⟨rfl, after⟩
    -- an unknown market is adopted and seeded, which is an update like any other
    · have adopted : Abreast clock { s with session := s.session.adopt snapshot.ticker }
          { s' with session := s'.session.adopt snapshot.ticker } := by
        unfold TradingSession.adopt
        rw [if_neg new, if_neg (tracked ▸ new)]
        exact { abreast with twins := { abreast.twins with tickers := by rw [abreast.twins.tickers] } }
      exact adopted.seedOrderbook_alike rest (untimed (Bool.eq_false_iff.mpr new))
  | delta ticker side priceCents qty => exact abreast.onDelta_alike rest untimed
  | trade print =>
    -- what a print crosses does not depend on the stamps
    have targets : crossable s.outside.paper print = crossable s'.outside.paper print := by
      rw [← crossable_unstamped, ← crossable_unstamped s'.outside.paper]
      exact congrArg (fun paper => crossable paper print) (abreast.twins.outside : s.outside.paper.unstamped = _)
    unfold handleFrame simulateMakerFills
    refine Alike.bind (R := Abreast clock) ?_ (fun _ t t' _ _ abreast => ?_)
    · refine Alike.get_bind ?_
      rw [← targets]
      exact abreast.fillCrossable_alike print
    · refine Alike.modify ?_
      exact { abreast with twins := { abreast.twins with }, tradeTape := by rw [abreast.tradeTape] }

end Abreast

/-! ### Whole replays -/

/-- What a replay is run for. The fills of the paper exchange are given without their stamps. -/
structure Outcome (F : Type) where
  calls : List (Entry F)
  fills : List (Fill F)
  tickers : List Ticker
  netPosition : Ticker → Quantity
  realizedPnl : Ticker → F
  persisted : List (PnlMap F)
  alive : Bool

def Process.outcome (p : Process F (PaperWorld F Readings)) : Outcome F where
  calls := p.desk.calls
  fills := p.desk.outside.paper.unstamped.fills
  tickers := p.desk.session.tickers
  netPosition := p.desk.orderMgr.netPosition
  realizedPnl := p.desk.orderMgr.realizedPnl
  persisted := p.desk.persisted
  alive := p.alive

/-- The two replays at the same frame. -/
def Process.Abreast (clock : WallClock) (p p' : Process F (PaperWorld F Readings)) : Prop :=
  Kalshi.Abreast clock p.desk p'.desk ∧ p.alive = p'.alive

namespace Process.Abreast

variable {clock} {p p' : Process F (PaperWorld F Readings)}

theorem injectFrame (abreast : Process.Abreast clock p p') {frame : Frame} (untimed : p.Untimed frame) :
    Process.Abreast clock (p.injectFrame WallClock.still.host rest frame) (p'.injectFrame clock.host rest frame) := by
  obtain ⟨desks, alive⟩ := abreast
  unfold Process.injectFrame
  rw [← alive]
  split
  next =>
    obtain ⟨same, after⟩ := desks.handleFrame_alike rest p.alive untimed
    cases ran : handleFrame WallClock.still.host rest frame p.desk with
    | mk r desk =>
      cases ran' : handleFrame clock.host rest frame p'.desk with
      | mk r' desk' =>
        rw [ran, ran'] at same after
        cases same
        rcases r with (what | what) | _
        · exact ⟨after, rfl⟩
        · exact ⟨after, rfl⟩
        · exact ⟨after, rfl⟩
  next => exact ⟨desks, alive⟩

theorem run (abreast : Process.Abreast clock p p') {frames : List Frame}
    (untimed : Run.Meets (Process.injectFrame WallClock.still.host rest) Process.Untimed p frames) :
    Process.Abreast clock (frames.foldl (Process.injectFrame WallClock.still.host rest) p)
      (frames.foldl (Process.injectFrame clock.host rest) p') := by
  induction frames generalizing p p' with
  | nil => exact abreast
  | cons frame frames ih => exact ih (abreast.injectFrame rest untimed.1) untimed.2

theorem outcome (abreast : Process.Abreast clock p p') : p.outcome = p'.outcome := by
  obtain ⟨desks, alive⟩ := abreast
  unfold Process.outcome
  have paper : p.desk.outside.paper.unstamped = p'.desk.outside.paper.unstamped := desks.twins.outside
  rw [desks.twins.calls, paper, desks.twins.tickers, desks.twins.orderMgr, desks.persisted, alive]

theorem start (clock : WallClock) (config : QuoterConfig F) (limits : RiskLimits F) (flow : FlowImbalanceConfig F) :
    Process.Abreast clock (.replayStart config limits flow {}) (.replayStart config limits flow {}) := by
  have slots : ∀ (readings : TimePoint → TimePoint → Prop) (flags : Prop),
      ({} : QuoteSlot).Alike readings flags {} := by
    intro readings flags
    exact ⟨rfl, fun _ => rfl, fun held => absurd rfl held, fun _ => rfl⟩
  have twins : (clock.beside F).Twins (Process.replayStart config limits flow {}).desk
      (Process.replayStart config limits flow {}).desk :=
    ⟨rfl, rfl, rfl, rfl, rfl, rfl, rfl, rfl, rfl, rfl, fun _ _ _ => slots _ _⟩
  exact ⟨⟨twins, rfl, rfl, rfl, rfl, fun _ => rfl, rfl, rfl, rfl, rfl⟩, rfl⟩

end Process.Abreast

/-- Where no frame of a replay is decided by a reading, any two clocks give the same requests, simulated fills,
positions and PnL, at every moment of it. -/
theorem replay_ignores_clocks (config : QuoterConfig F) (limits : RiskLimits F) (flow : FlowImbalanceConfig F)
    (capture : List Frame)
    (untimed : Run.Meets (Process.injectFrame WallClock.still.host rest) Process.Untimed
      (.replayStart config limits flow {}) capture) (clock clock' : WallClock) :
    ∀ seen, seen <+: capture →
      (runBacktestMode clock.host rest config limits flow {} seen).outcome =
        (runBacktestMode clock'.host rest config limits flow {} seen).outcome := by
  rintro seen ⟨later, rfl⟩
  have beside : ∀ clock : WallClock,
      (runBacktestMode WallClock.still.host rest config limits flow {} seen).outcome =
        (runBacktestMode clock.host rest config limits flow {} seen).outcome := by
    intro clock
    have start := Process.Abreast.start clock config limits flow
    exact (start.run rest (Run.meets_append.mp untimed).1).outcome
  rw [← beside clock, ← beside clock']

/-! ### Two clocks -/

/-- Ten seconds pass from one reading to the next. -/
def WallClock.briskly (reading : Nat) : TimePoint := reading * 10000000000

theorem WallClock.briskly_mono : Monotone WallClock.briskly :=
  fun _ _ earlier => Int.mul_le_mul_of_nonneg_right (Int.ofNat_le.mpr earlier) (by decide)

def WallClock.brisk : WallClock := ⟨WallClock.briskly, WallClock.briskly, WallClock.briskly_mono,
    WallClock.briskly_mono⟩

/-- Both bids on a market that opens at 40 and 60. -/
def openingFrame : Frame := .snapshot { ticker := "M", yes := [⟨40, ⟨1000⟩⟩], no := [⟨40, ⟨1000⟩⟩] }

/-- A print at 45 that sells through a bid at 48. -/
def sellingFrame : Frame := .trade ⟨"print-1", "M", 45, ⟨300⟩, .no, 1700000000000000000⟩

def clearingConfig : QuoterConfig ℚ := { useClearingPricing := true, fvEmaAlpha := 1 }

/-- With nothing on the tape and no fill of our own, no reading moves the prices. -/
theorem Desk.PricesUntimed.of_quiet {s : Desk F X} {ticker : Ticker}
    (unprinted : ∀ tape, s.tradeTape = some tape → tape.printsByTicker ticker = [])
    (unfilled : ∀ guard, s.flowGuard = some guard → guard.fills ticker = []) (visible : LocalOrderbook)
    (marketBid marketAsk : Int) : s.PricesUntimed ticker visible marketBid marketAsk := by
  intro t₁ t₂ t₃ _ _
  have vwap : (s.outlook ticker visible t₁ t₂ t₃).vwap = (s.outlook ticker visible 0 0 0).vwap := by
    cases found : s.tradeTape with
    | none => simp [Desk.outlook, found]
    | some tape => simp [Desk.outlook, found, TradeTape.vwapCents, unprinted tape found]
  have value : (s.outlook ticker visible t₁ t₂ t₃).fairVal s.quoter =
    (s.outlook ticker visible 0 0 0).fairVal s.quoter := by
    unfold Outlook.fairVal
    rw [vwap]
    rfl
  -- without fills of our own both volumes are empty at any time
  have judged : ∀ guard, s.flowGuard = some guard →
    ∀ now, guard.isImbalanced ticker now = guard.isImbalanced ticker 0 := by
    intro guard found now
    simp [FlowImbalanceGuard.isImbalanced, FlowImbalanceGuard.windowedVolume, unfilled guard found]
  have imbalanced : (s.outlook ticker visible t₁ t₂ t₃).imbalanced = (s.outlook ticker visible 0 0 0).imbalanced := by
    cases found : s.flowGuard with
    | none => simp [Outlook.imbalanced, Desk.outlook, found]
    | some guard => simp [Outlook.imbalanced, Desk.outlook, found, judged guard found t₂]
  have takerSide : (s.outlook ticker visible t₁ t₂ t₃).takerSide = (s.outlook ticker visible 0 0 0).takerSide := by
    unfold Outlook.takerSide
    rw [imbalanced]
    cases found : s.flowGuard with
    | none => simp [Desk.outlook, found]
    | some guard =>
      simp [Desk.outlook, found, FlowImbalanceGuard.dominantTakerSide, judged guard found t₃,
        FlowImbalanceGuard.windowedVolume, unfilled guard found]
  refine ⟨by rw [value], fun _ => ?_⟩
  unfold Outlook.desired Outlook.leanedVal
  rw [value, imbalanced, takerSide]
  rfl

/-- Nor does one decide the first quote, with nothing resting. -/
theorem opening_untimed : Run.Meets (Process.injectFrame WallClock.still.host ⟨"exchange"⟩) Process.Untimed
    (.replayStart clearingConfig {} {} {}) [openingFrame, sellingFrame] := by
  refine ⟨fun _ bid ask _ _ _ => ⟨?_, ?_⟩, trivial, trivial⟩
  · apply Desk.PricesUntimed.of_quiet
    · rintro _ ⟨⟩
      rfl
    · rintro _ ⟨⟩
      rfl
  · intro _ side price _ restMs due
    exact absurd rfl (QuoterConfig.dueRest_held due)

theorem replay_ignores_clocks_opening :
    (runBacktestMode WallClock.still.host ⟨"exchange"⟩ clearingConfig {} {} {} [openingFrame, sellingFrame]).outcome =
        (runBacktestMode WallClock.brisk.host ⟨"exchange"⟩ clearingConfig {} {} {}
          [openingFrame, sellingFrame]).outcome ∧
      (runBacktestMode WallClock.brisk.host ⟨"exchange"⟩ clearingConfig {} {} {}
        [openingFrame, sellingFrame]).desk.outside.paper.fills.length = 1 :=
  ⟨replay_ignores_clocks ⟨"exchange"⟩ clearingConfig {} {} _ opening_untimed _ _ _ (List.prefix_refl _),
    by decide +kernel⟩

/-- The best offer falls to 45, and our own ask follows it only where its minimum rest is over by the clock of the
replaying machine. -/
theorem replay_follows_clock :
    let capture : List Frame := [openingFrame, .delta "M" .no 55 ⟨1000⟩]
    (runBacktestMode WallClock.still.host ⟨"exchange"⟩ clearingConfig {} {} {} capture).desk.calls.length = 2 ∧
      (runBacktestMode WallClock.brisk.host ⟨"exchange"⟩ clearingConfig {} {} {} capture).desk.calls.length = 3 ∧
      ¬ ∀ clock clock' : WallClock,
        (runBacktestMode clock.host ⟨"exchange"⟩ clearingConfig {} {} {} capture).outcome =
          (runBacktestMode clock'.host ⟨"exchange"⟩ clearingConfig {} {} {} capture).outcome := by
  intro capture
  have slow : (runBacktestMode WallClock.still.host ⟨"exchange"⟩ clearingConfig {} {} {} capture).desk.calls.length =
      2 := by decide +kernel
  have fast : (runBacktestMode WallClock.brisk.host ⟨"exchange"⟩ clearingConfig {} {} {} capture).desk.calls.length =
      3 := by decide +kernel
  refine ⟨slow, fast, fun same => ?_⟩
  have calls := congrArg (fun outcome => outcome.calls.length) (same WallClock.still WallClock.brisk)
  change (runBacktestMode WallClock.still.host ⟨"exchange"⟩ clearingConfig {} {} {} capture).desk.calls.length =
    (runBacktestMode WallClock.brisk.host ⟨"exchange"⟩ clearingConfig {} {} {} capture).desk.calls.length at calls
  rw [slow, fast] at calls
  cases calls

end Kalshi
