import KalshiMaker.Engine.Steps

/-! The books the session keeps, and the looks the quoter takes at them. -/
namespace Kalshi

open Effect Eff Desk Relation Quoter TradingSession

variable {F X : Type} [Floating F] (venue : Venue X)

/-- What the quoter's requests have no part in: the session and the looks taken at its books. -/
def Desk.looked (s : Desk F X) : TradingSession F × List PricedBook := (s.session, s.priced)

def Desk.shown (s : Desk F X) : OrderbookMap × List PricedBook := (s.session.obMap, s.priced)

/-- A look of the quoter at a book. -/
def Desk.pricing (s : Desk F X) (ticker : Ticker) (book : LocalOrderbook) : PricedBook where
  ticker
  book
  resting := s.restingOwn ticker
  visible := s.bookWithoutOwnQuotes ticker book

namespace Quoter

/-- A view of nothing that the quoter's requests touch. -/
structure Detached {υ : Type} (view : Desk F X → υ) : Prop where
  quoter : ∀ s quoter, view { s with quoter } = view s
  outside : ∀ s outside, view { s with outside } = view s
  called : ∀ s call outside, view (s.called call outside) = view s
  orders : ∀ s orderMgr, view (s.withOrders orderMgr) = view s
  emit : ∀ emission, (∀ totals, emission ≠ .persist totals) → ∀ s, view (Desk.emit emission s).2 = view s

theorem Detached.beside {υ : Type} {view : Desk F X → υ} (detached : Detached view) (ticker : Ticker) (side : Side) :
    Beside ticker side view where
  slot s _ := detached.quoter s _
  outside := detached.outside
  called := detached.called
  orders := detached.orders

theorem Detached.moves {υ : Type} {view : Desk F X → υ} (detached : Detached view) (ticker : Ticker) :
    Moves venue ticker view (fun _ _ => False) where
  steady s := detached.outside s _
  system s := detached.outside s _
  ema _ s := detached.quoter s _
  emit := detached.emit
  fade _ _ s := detached.quoter s _
  enter _ := (detached.beside ticker _).enter venue _ _ _
  amend _ := (detached.beside ticker _).amendInPlace venue _ _ _ _
  release side s := (detached.beside ticker side).releaseSlot venue s

theorem looked_detached : Detached (looked (F := F) (X := X)) where
  quoter _ _ := rfl
  outside _ _ := rfl
  called _ _ _ := rfl
  orders _ _ := rfl
  emit _ _ _ := rfl

/-- An update takes one look, at the book it was handed, and leaves the session alone. -/
theorem update_looked (ticker : Ticker) (book : LocalOrderbook) (s : Desk F X) :
    (update venue ticker book s).2.looked = (s.session, s.priced ++ [s.pricing ticker book]) :=
  chain_unmoved (update_moves (looked_detached.moves venue ticker) book s)

theorem update_shown (ticker : Ticker) (book : LocalOrderbook) (s : Desk F X) :
    (update venue ticker book s).2.shown = (s.session.obMap, s.priced ++ [s.pricing ticker book]) :=
  congrArg (fun looked : TradingSession F × List PricedBook => (looked.1.obMap, looked.2))
    (update_looked venue ticker book s)

end Quoter

/-- An update whose exception is caught by something that shows nothing. -/
theorem caughtUpdate_shown (ticker : Ticker) (book : LocalOrderbook)
    {handler : String → Eff (Desk F X) String Unit} (quiet : ∀ what s, (handler what s).2.shown = s.shown)
    (s : Desk F X) :
    (Eff.tryCatch (Quoter.update venue ticker book) handler s).2.shown =
      (s.session.obMap, s.priced ++ [s.pricing ticker book]) := by
  rw [← Quoter.update_shown venue ticker book s, tryCatch_apply]
  cases Quoter.update venue ticker book s with
  | mk r s' =>
    rcases r with (what | what) | _
    · exact quiet what s'
    · rfl
    · rfl

theorem coolingDown_run (ticker : Ticker) (s : Desk F X) :
    ∃ cooling x, coolingDown venue ticker s = (.ok cooling, { s with outside := x }) := by
  unfold coolingDown
  rw [bind_apply, get_apply, andThen_ok]
  cases s.session.cooldownUntil ticker with
  | none => exact ⟨false, s.outside, rfl⟩
  | some deadline => exact ⟨_, _, rfl⟩

theorem seedOrderbook_shown (snapshot : Orderbook) (s : Desk F X) :
    (seedOrderbook venue snapshot s).2.shown =
      (s.session.obMap.insert snapshot.ticker (LocalOrderbook.applySnapshot snapshot),
        s.priced ++ [s.pricing snapshot.ticker (LocalOrderbook.applySnapshot snapshot)]) :=
  caughtUpdate_shown venue snapshot.ticker _ (fun _ _ => rfl)
    { s with
      session := ((s.session.setBook snapshot.ticker (LocalOrderbook.applySnapshot snapshot)).seeded
        snapshot.ticker (venue.host.steadyNow s.outside).1)
      outside := (venue.host.steadyNow s.outside).2 }

/-- A delta is put on the book, and the book looked at where its market is tracked and not cooling
down. -/
theorem onDelta_shown (ticker : Ticker) (side : Side) (priceCents : Int) (qty : Quantity) (s : Desk F X) :
    (onDelta venue ticker side priceCents qty s).2.session.obMap =
        s.session.obMap.insert ticker ((s.session.book ticker).applyDelta side priceCents qty) ∧
      ((onDelta venue ticker side priceCents qty s).2.priced = s.priced ∨
        (onDelta venue ticker side priceCents qty s).2.priced =
          s.priced ++ [s.pricing ticker ((s.session.book ticker).applyDelta side priceCents qty)]) := by
  let ticked : Desk F X :=
    { s with
      session := ((s.session.setBook ticker ((s.session.book ticker).applyDelta side priceCents qty)).ticked
        ticker (venue.host.steadyNow s.outside).1)
      outside := (venue.host.steadyNow s.outside).2 }
  -- the book is kept first; whether it is looked at depends on the tracking and the cooldown
  have unfolded : onDelta venue ticker side priceCents qty s =
      (if s.session.isTracked ticker then do
        if ← coolingDown venue ticker then pure ()
        else quoteOrCoolDown venue ticker ((s.session.book ticker).applyDelta side priceCents qty)
      else pure ()) ticked := rfl
  rw [unfolded]
  split
  next =>
    obtain ⟨cooling, x, ran⟩ := coolingDown_run venue ticker ticked
    rw [bind_apply, ran, andThen_ok]
    cases cooling with
    | true => exact ⟨rfl, .inl rfl⟩
    | false =>
      have quiet : ∀ (what : String) (s : Desk F X), (startCooldown venue ticker s).2.shown = s.shown := fun _ _ => rfl
      have looked := caughtUpdate_shown venue ticker ((s.session.book ticker).applyDelta side priceCents qty)
        quiet { ticked with outside := x }
      exact ⟨congrArg Prod.fst looked, .inr (congrArg Prod.snd looked)⟩
  next => exact ⟨rfl, .inl rfl⟩

theorem book_of_insert {s s' : Desk F X} {ticker : Ticker} {book : LocalOrderbook}
    (inserted : s'.session.obMap = s.session.obMap.insert ticker book) (other : Ticker) :
    s'.session.book other = if ticker = other then book else s.session.book other := by
  unfold TradingSession.book
  rw [inserted]
  split
  next same =>
    subst same
    rw [AList.lookup_insert, Option.getD_some]
  next different => rw [AList.lookup_insert_ne (Ne.symm different)]

/-! ### Whose books are kept -/

theorem feedConfirmed_run (ticker : Ticker) (s : Desk F X) :
    ∃ confirmed x, feedConfirmed venue ticker s = (.ok confirmed, { s with outside := x }) := by
  unfold feedConfirmed
  rw [bind_apply, get_apply, andThen_ok]
  split
  · exact ⟨true, s.outside, rfl⟩
  · cases s.session.seededAt ticker with
    | none => exact ⟨true, s.outside, rfl⟩
    | some seeded => exact ⟨_, _, rfl⟩

theorem wantsRequote_run (ticker : Ticker) (s : Desk F X) :
    ∃ wanted x, wantsRequote venue ticker s = (.ok wanted, { s with outside := x }) := by
  unfold wantsRequote
  obtain ⟨confirmed, x, ran⟩ := feedConfirmed_run venue ticker s
  rw [bind_apply, ran, andThen_ok]
  cases confirmed with
  | false => exact ⟨false, x, rfl⟩
  | true =>
    rw [if_pos rfl, bind_apply, get_apply, andThen_ok]
    split
    · obtain ⟨cooling, y, cooled⟩ := coolingDown_run venue ticker { s with outside := x }
      rw [bind_apply, cooled, andThen_ok]
      exact ⟨!cooling, y, rfl⟩
    · exact ⟨false, x, rfl⟩

/-- The feed of the market is unconfirmed past the grace period. -/
def Desk.Unconfirmed (s : Desk F X) (ticker : Ticker) : Prop := (feedConfirmed venue ticker s).1 = .ok false

/-- A check of a confirmed market, or of one that is marked, only reads the clock. -/
theorem checkFeed_run (ticker : Ticker) (s : Desk F X) :
    (∃ x, checkFeed venue ticker s = (.ok (), { s with outside := x }) ∧
        (s.Unconfirmed venue ticker → s.session.feedDead ticker = true)) ∨
      ∃ cancels x, checkFeed venue ticker s =
          (.ok (), { { s with session := s.session.markDead ticker }.afterCancels cancels x with
            quoter := s.quoter.forgetTicker ticker }) ∧
        s.session.feedDead ticker = false ∧ s.ledger.Sweeps (· = ticker) cancels := by
  obtain ⟨confirmed, x, ran⟩ := feedConfirmed_run venue ticker s
  unfold checkFeed Desk.Unconfirmed
  rw [bind_apply, ran, andThen_ok, bind_apply, get_apply, andThen_ok]
  split
  next passed =>
    refine .inl ⟨x, rfl, fun unconfirmed => ?_⟩
    cases unconfirmed
    simpa using passed
  next failed =>
    obtain ⟨cancels, y, swept, sweeps⟩ :=
      cancelAllGuarded_run venue ticker { s with outside := x, session := s.session.markDead ticker }
    simp only [Bool.or_eq_true, not_or, Bool.not_eq_true] at failed
    refine .inr ⟨cancels, y, ?_, failed.2, sweeps.reaches, sweeps.open_only⟩
    rw [bind_apply, mapSession, modify_apply, andThen_ok, bind_apply, swept]
    rfl

def Desk.books (s : Desk F X) : OrderbookMap := s.session.obMap

/-- A book is put down for one of the markets. -/
def Shelves (markets : List Ticker) (before after : OrderbookMap) : Prop :=
  ∃ ticker ∈ markets, ∃ book, after = before.insert ticker book

theorem requoteMarket_books (ticker : Ticker) (s : Desk F X) :
    (requoteMarket venue ticker s).2.books = s.books := by
  unfold requoteMarket
  obtain ⟨wanted, x, ran⟩ := wantsRequote_run venue ticker s
  rw [bind_apply, get_apply, andThen_ok, bind_apply, ran, andThen_ok]
  cases wanted with
  | false => rfl
  | true => exact congrArg Prod.fst (caughtUpdate_shown venue ticker _ (fun _ _ => rfl) { s with outside := x })

theorem checkFeed_books (ticker : Ticker) (s : Desk F X) : (checkFeed venue ticker s).2.books = s.books := by
  refine Leads.unmoved (?_ : Leads Desk.books (fun _ _ => False) (checkFeed venue ticker) s)
  unfold checkFeed
  obtain ⟨confirmed, x, ran⟩ := feedConfirmed_run venue ticker s
  refine Leads.bind (Leads.quiet (by rw [ran]; rfl)) (fun confirmed s₁ _ => ?_)
  refine Leads.bind (Leads.quiet rfl) ?_
  rintro s₀ _ ⟨⟩
  refine Leads.ite (fun _ => Leads.quiet rfl) (fun _ => Leads.bind (Leads.quiet rfl) (fun _ s₂ _ => ?_))
  obtain ⟨cancels, y, swept, _⟩ := cancelAllGuarded_run venue ticker s₂
  refine Leads.bind (Leads.quiet (by rw [swept]; rfl)) (fun _ s₃ _ => Leads.quiet rfl)

theorem feedPortfolio_books (snapshot : PortfolioSnapshot F) (s : Desk F X) :
    (feedPortfolio snapshot s).2.books = s.books := by
  unfold feedPortfolio
  rw [bind_apply, get_apply, andThen_ok]
  cases (s.riskMgr.updatePortfolio snapshot).1 <;> rfl

end Kalshi
