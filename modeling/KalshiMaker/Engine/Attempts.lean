import KalshiMaker.Engine.Looks
import KalshiMaker.Strategy.QuoterCalls

/-! The occasions on which the session has the quoter update a market, and the cooldowns around them. -/
namespace Kalshi

open Effect Eff Desk TradingSession

variable {F X : Type} [Floating F]

/-- One update of a market: whether by a seeding, the clock as the session comes to it, and the desk that the update
starts on. -/
structure Attempt (F X : Type) [Floating F] where
  ticker : Ticker
  book : LocalOrderbook
  seeding : Bool
  time : TimePoint
  desk : Desk F X

namespace Attempt

variable (venue : Venue X) (attempt : Attempt F X)

/-- As the update ends, or throws. -/
def updated : Except (Stop String) Unit × Desk F X := Quoter.update venue attempt.ticker attempt.book attempt.desk

def writes : List (Entry F) := attempt.desk.callsSince (attempt.updated venue).2

/-- The clock as the update has ended. -/
def endTime : TimePoint := (venue.host.steadyNow (attempt.updated venue).2.outside).1

/-- The session catches what an update throws; a seeding then starts no cooldown. -/
def run : Eff (Desk F X) String Unit :=
  if attempt.seeding then Eff.tryCatch (Quoter.update venue attempt.ticker attempt.book) fun _ => pure ()
  else quoteOrCoolDown venue attempt.ticker attempt.book

def after : Desk F X := (attempt.run venue attempt.desk).2

end Attempt

namespace TradingSession

variable (venue : Venue X)

/-- A seeding has the quoter update the market at once. -/
def seedAttempt (snapshot : Orderbook) (s : Desk F X) : Attempt F X :=
  let book := LocalOrderbook.applySnapshot snapshot
  let now := venue.host.steadyNow s.outside
  { ticker := snapshot.ticker
    book
    seeding := true
    time := (venue.host.steadyNow now.2).1
    desk := { s with
      session := (s.session.setBook snapshot.ticker book).seeded snapshot.ticker now.1
      outside := now.2 } }

/-- Elsewhere the market is first asked whether it cools down. -/
def attemptUnlessCooling (ticker : Ticker) (book : LocalOrderbook) (s : Desk F X) : List (Attempt F X) :=
  match coolingDown venue ticker s with
  | (.ok false, desk) =>
    [{ ticker, book, seeding := false, time := (venue.host.steadyNow s.outside).1, desk }]
  | _ => []

def deltaAttempts (ticker : Ticker) (side : Side) (priceCents : Int) (qty : Quantity) (s : Desk F X) :
    List (Attempt F X) :=
  let book := (s.session.book ticker).applyDelta side priceCents qty
  if s.session.isTracked ticker then attemptUnlessCooling venue ticker book (markTicked venue ticker book s).2
  else []

def requoteAttempt (ticker : Ticker) (s : Desk F X) : List (Attempt F X) :=
  match feedConfirmed venue ticker s with
  | (.ok true, t) =>
    if (t.orderMgr.openOn ticker).isEmpty then attemptUnlessCooling venue ticker (s.session.book ticker) t else []
  | _ => []

/-- The loop of the requote, which an abort cuts short. -/
def requoteAttempts : List Ticker → Desk F X → List (Attempt F X)
  | [], _ => []
  | ticker :: tickers, s =>
    requoteAttempt venue ticker s ++
      match requoteMarket venue ticker s with
      | (.ok _, t) => requoteAttempts tickers t
      | _ => []

end TradingSession

/-- The updates that an event sets off, in order. -/
def Event.attempts (venue : Venue X) : Event F → Desk F X → List (Attempt F X)
  | .delta ticker side priceCents qty, s => deltaAttempts venue ticker side priceCents qty s
  | .addMarket seed, s => [seedAttempt venue seed { s with session := s.session.adopt seed.ticker }]
  | .seedOrderbook seed, s => [seedAttempt venue seed s]
  | .requoteIdleMarkets, s =>
    if s.riskMgr.isHalted then []
    else requoteAttempts venue (venue.host.arrange s.outside s.session.obMap.keys) s
  | _, _ => []

/-- The updates of a run, in order. -/
def Process.attempts (venue : Venue X) : Process F X → List (Event F) → List (Attempt F X)
  | _, [] => []
  | p, event :: events =>
    (if p.alive then event.attempts venue p.desk else []) ++ Process.attempts venue (p.dispatch venue event) events

/-! ### An event, attempt after attempt -/

variable (venue : Venue X)

/-- `view` of the desk moves in the attempts only. -/
def Threads {υ : Type} (view : Desk F X → υ) : υ → List (Attempt F X) → υ → Prop
  | u, [], v => v = u
  | u, attempt :: attempts, v => view attempt.desk = u ∧ Threads view (view (attempt.after venue)) attempts v

variable {venue} {υ : Type} {view : Desk F X → υ}

theorem Threads.append {u v w : υ} {first second : List (Attempt F X)} (one : Threads venue view u first v)
    (two : Threads venue view v second w) : Threads venue view u (first ++ second) w := by
  induction first generalizing u with
  | nil =>
    cases one
    exact two
  | cons attempt first ih => exact ⟨one.1, ih one.2⟩

/-- A view of neither the outside nor anything of the session but its cooldowns. -/
structure Aside (view : Desk F X → υ) : Prop where
  outside : ∀ s outside, view { s with outside } = view s
  session : ∀ (s : Desk F X) (session : TradingSession F), session.cooldownUntil = s.session.cooldownUntil →
    session.errorCooldownMs = s.session.errorCooldownMs → view { s with session } = view s

theorem Aside.both (aside : Aside view) (s : Desk F X) {session : TradingSession F} (outside : X)
    (cooldownUntil : session.cooldownUntil = s.session.cooldownUntil)
    (errorCooldownMs : session.errorCooldownMs = s.session.errorCooldownMs) :
    view { s with session, outside } = view s :=
  (aside.session { s with outside } session cooldownUntil errorCooldownMs).trans (aside.outside s outside)

namespace TradingSession

theorem attemptUnlessCooling_threads (aside : Aside view) (ticker : Ticker) (book : LocalOrderbook) (s : Desk F X) :
    Threads venue view (view s) (attemptUnlessCooling venue ticker book s)
      (view ((do if ← coolingDown venue ticker then pure ()
                 else quoteOrCoolDown venue ticker book : Eff (Desk F X) String Unit) s).2) := by
  obtain ⟨cooling, x, ran⟩ := coolingDown_run venue ticker s
  unfold attemptUnlessCooling
  rw [bind_apply, ran, andThen_ok]
  cases cooling with
  | true => exact aside.outside s x
  | false => exact ⟨aside.outside s x, rfl⟩

theorem onDelta_threads (aside : Aside view) (ticker : Ticker) (side : Side) (priceCents : Int) (qty : Quantity)
    (s : Desk F X) :
    Threads venue view (view s) (deltaAttempts venue ticker side priceCents qty s)
      (view (onDelta venue ticker side priceCents qty s).2) := by
  have ticked : view (markTicked venue ticker ((s.session.book ticker).applyDelta side priceCents qty) s).2 = view s :=
    aside.both s (venue.host.steadyNow s.outside).2 rfl rfl
  have unfolded : onDelta venue ticker side priceCents qty s =
      (if s.session.isTracked ticker then do
        if ← coolingDown venue ticker then pure ()
        else quoteOrCoolDown venue ticker ((s.session.book ticker).applyDelta side priceCents qty)
      else pure () : Eff (Desk F X) String Unit)
        (markTicked venue ticker ((s.session.book ticker).applyDelta side priceCents qty) s).2 := rfl
  unfold deltaAttempts
  rw [unfolded, ← ticked]
  dsimp only
  split
  · exact attemptUnlessCooling_threads aside ticker _ _
  · rfl

theorem seedOrderbook_threads (aside : Aside view) (snapshot : Orderbook) (s : Desk F X) :
    Threads venue view (view s) [seedAttempt venue snapshot s] (view (seedOrderbook venue snapshot s).2) :=
  ⟨aside.both s (venue.host.steadyNow s.outside).2 rfl rfl, rfl⟩

theorem requoteMarket_threads (aside : Aside view) (ticker : Ticker) (s : Desk F X) :
    Threads venue view (view s) (requoteAttempt venue ticker s) (view (requoteMarket venue ticker s).2) := by
  obtain ⟨confirmed, x, ran⟩ := feedConfirmed_run venue ticker s
  unfold requoteAttempt requoteMarket wantsRequote
  rw [bind_apply, get_apply, andThen_ok, bind_apply, bind_apply, ran, andThen_ok]
  cases confirmed with
  | false => exact aside.outside s x
  | true =>
    rw [if_pos rfl, bind_apply, get_apply, andThen_ok, ← aside.outside s x]
    dsimp only
    split
    · obtain ⟨cooling, y, asked⟩ := coolingDown_run venue ticker { s with outside := x }
      unfold attemptUnlessCooling
      rw [bind_apply, asked, andThen_ok]
      cases cooling with
      | true => exact (aside.outside s y).trans (aside.outside s x).symm
      | false => exact ⟨(aside.outside s y).trans (aside.outside s x).symm, rfl⟩
    · rfl

theorem requoteAttempts_threads (aside : Aside view) (tickers : List Ticker) (s : Desk F X) :
    Threads venue view (view s) (requoteAttempts venue tickers s)
      (view (Eff.forEach tickers (requoteMarket venue) s).2) := by
  induction tickers generalizing s with
  | nil => rfl
  | cons ticker tickers ih =>
    have first := @requoteMarket_threads F X _ venue _ view aside ticker s
    unfold requoteAttempts
    rw [forEach_cons]
    cases ran : requoteMarket venue ticker s with
    | mk r t =>
      rw [ran] at first
      refine first.append ?_
      cases r with
      | ok _ => exact ih t
      | error stop => rfl

theorem requoteIdleMarkets_threads (aside : Aside view) (s : Desk F X) :
    Threads venue view (view s) (Event.attempts venue .requoteIdleMarkets s)
      (view (requoteIdleMarkets venue s).2) := by
  have listed : Event.attempts venue .requoteIdleMarkets s = if s.riskMgr.isHalted then []
    else requoteAttempts venue (venue.host.arrange s.outside s.session.obMap.keys) s := rfl
  unfold requoteIdleMarkets
  rw [listed, bind_apply, get_apply, andThen_ok]
  split
  · rfl
  · exact requoteAttempts_threads aside _ s

end TradingSession

/-- The events that have the quoter look at a market. -/
def Event.quotes : Event F → Bool
  | .delta _ _ _ _ | .addMarket _ | .seedOrderbook _ | .requoteIdleMarkets => true
  | _ => false

theorem Event.threads (aside : Aside view) {event : Event F} (quotes : event.quotes = true) (s : Desk F X) :
    Threads venue view (view s) (event.attempts venue s) (view (handle venue event s).2) := by
  cases event with
  | delta ticker side priceCents qty => exact onDelta_threads aside ticker side priceCents qty s
  | addMarket seed =>
    rw [← aside.session s (s.session.adopt seed.ticker)]
    · exact seedOrderbook_threads aside seed { s with session := s.session.adopt seed.ticker }
    · unfold adopt
      split <;> rfl
    · unfold adopt
      split <;> rfl
  | seedOrderbook seed => exact seedOrderbook_threads aside seed s
  | requoteIdleMarkets => exact requoteIdleMarkets_threads aside s
  | _ => cases quotes

/-- What catches an exception of an update makes no call. -/
theorem Attempt.after_calls (attempt : Attempt F X) :
    (attempt.after venue).calls = attempt.desk.calls ++ attempt.writes venue := by
  -- the handler runs after the update, on whatever desk it left
  have caught : ∀ handler : String → Eff (Desk F X) String Unit, (∀ what s, (handler what s).2.calls = s.calls) →
      (Eff.tryCatch (Quoter.update venue attempt.ticker attempt.book) handler attempt.desk).2.calls =
        (attempt.updated venue).2.calls := by
    intro handler quiet
    unfold Attempt.updated
    rw [tryCatch_apply]
    cases Quoter.update venue attempt.ticker attempt.book attempt.desk with
    | mk r t =>
      rcases r with (what | what) | _
      · exact quiet what t
      · rfl
      · rfl
  have same : (attempt.after venue).calls = (attempt.updated venue).2.calls := by
    unfold Attempt.after Attempt.run quoteOrCoolDown
    split
    · exact caught _ fun _ _ => rfl
    · exact caught _ fun _ _ => rfl
  have chain : Leads ledger (Ledger.Does fun _ => True)
    (Quoter.update venue attempt.ticker attempt.book) attempt.desk :=
    (Quoter.update_leads venue attempt.ticker attempt.book attempt.desk).mono
      fun _ _ step => ⟨.quote attempt.ticker, trivial, .quote step⟩
  obtain ⟨later, grown⟩ := Ledger.Does.chain_calls chain
  change (attempt.updated venue).2.calls = attempt.desk.calls ++ later at grown
  rw [same, Attempt.writes, Desk.callsSince_of_append grown]
  exact grown

theorem Threads.calls {u v : List (Entry F)} {attempts : List (Attempt F X)}
    (threads : Threads venue Desk.calls u attempts v) : v = u ++ attempts.flatMap (Attempt.writes venue) := by
  induction attempts generalizing u with
  | nil =>
    cases threads
    exact (List.append_nil _).symm
  | cons attempt attempts ih =>
    obtain ⟨here, rest⟩ := threads
    have after : (attempt.after venue).calls = attempt.desk.calls ++ attempt.writes venue := attempt.after_calls
    have desk : attempt.desk.calls = u := here
    rw [ih rest, after, desk, List.flatMap_cons, List.append_assoc]

variable (venue)

/-! ### Cooldowns -/

def Desk.cooldowns (s : Desk F X) : (Ticker → Option TimePoint) × Int :=
  (s.session.cooldownUntil, s.session.errorCooldownMs)

theorem cancelAllQuotes_cooldowns (s : Desk F X) : (cancelAllQuotes venue s).2.cooldowns = s.cooldowns := by
  obtain ⟨cancels, x, ran, _⟩ := cancelAllQuotes_run venue s
  rw [ran]
  rfl

theorem enforceQuoteSafety_cooldowns (s : Desk F X) : (enforceQuoteSafety venue s).2.cooldowns = s.cooldowns := by
  have checked : ∀ ticker (s : Desk F X), (checkFeed venue ticker s).2.cooldowns = s.cooldowns := by
    intro ticker s
    obtain ⟨x, ran, _⟩ | ⟨_, x, ran, _⟩ := checkFeed_run venue ticker s
    · rw [ran]
      rfl
    · rw [ran]
      rfl
  refine Leads.unmoved (?_ : Leads cooldowns (fun _ _ => False) (enforceQuoteSafety venue) s)
  unfold enforceQuoteSafety
  refine Leads.bind (Leads.quiet rfl) fun s₀ s₁ _ => ?_
  refine Leads.ite (fun _ => Leads.quiet (cancelAllQuotes_cooldowns venue s₁)) fun _ => ?_
  exact Leads.forEach (P := fun _ _ => True) (fun ticker _ s' _ => Leads.quiet (checked ticker s'))
    (AtEach.of_forall fun _ _ _ => trivial)

theorem cooldowns_blind : FillBlind (cooldowns (F := F) (X := X)) where
  books _ _ _ := rfl
  emitted _ _ := rfl
  slots _ _ := rfl
  risk _ _ := rfl
  flow _ _ := rfl
  tape _ _ := rfl

/-- Cooldowns change in attempts only. -/
theorem Event.cooldowns_thread (event : Event F) (s : Desk F X) :
    Threads venue cooldowns s.cooldowns (event.attempts venue s) (handle venue event s).2.cooldowns := by
  have aside : Aside (cooldowns (F := F) (X := X)) := by
    refine ⟨fun _ _ => rfl, fun s session cooldownUntil errorCooldownMs => ?_⟩
    unfold cooldowns
    rw [cooldownUntil, errorCooldownMs]
  have portfolio : ∀ snapshot, (feedPortfolio snapshot s).2.cooldowns = s.cooldowns := by
    intro snapshot
    unfold feedPortfolio
    rw [bind_apply, get_apply, andThen_ok]
    cases (s.riskMgr.updatePortfolio snapshot).1 <;> rfl
  -- the four events that quote thread the cooldowns through their attempts; the rest leave them alone
  cases event with
  | delta ticker side priceCents qty => exact Event.threads aside rfl s
  | addMarket seed => exact Event.threads aside rfl s
  | seedOrderbook seed => exact Event.threads aside rfl s
  | requoteIdleMarkets => exact Event.threads aside rfl s
  | fill fill =>
    have same : (handle venue (.fill fill) s).2 = (onFill fill s).2 := andThen_pure_state _ _
    rw [same]
    exact cooldowns_blind.onFill fill s
  | disconnect | cancelAllQuotes => exact cancelAllQuotes_cooldowns venue s
  | removeMarketIfIdle ticker =>
    have same : (handle venue (.removeMarketIfIdle ticker) s).2 = (TradingSession.removeMarketIfIdle ticker s).2 :=
      andThen_pure_state _ _
    rw [same]
    unfold TradingSession.removeMarketIfIdle
    rw [bind_apply, get_apply, andThen_ok]
    split <;> rfl
  | enforceQuoteSafety => exact enforceQuoteSafety_cooldowns venue s
  | runPortfolioRisk => exact portfolio _
  | updatePortfolio snapshot => exact portfolio snapshot
  | cancelPreexistingOrders orders =>
    obtain ⟨cancels, x, ran, _⟩ := OrderManager.cancelEach_run venue (orders.map Order.id) s
    exact congrArg (fun outcome : Except (Stop String) Unit × Desk F X => outcome.2.cooldowns) ran
  | recordFlatten order => exact cooldowns_blind.booking.recordFlatten order s
  | _ => rfl

end Kalshi
