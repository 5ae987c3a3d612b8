import KalshiMaker.Engine.Untouched
import KalshiMaker.Properties.SessionPnl

/-! The PnL map written after a fill or a flatten keeps every realized cent, as long as the markets that
realized some are tracked when it is written. -/
namespace Kalshi

open Effect Eff Relation Ledger TradingSession

variable {F X : Type} [Floating F]

/-! ### What is carried over -/

def Desk.prior (s : Desk F X) : PnlMap F := s.session.priorPnl

/-- The maps handed to the PnL listener, oldest first. -/
def Desk.persisted (s : Desk F X) : List (PnlMap F) :=
  s.emitted.filterMap fun
    | .persist totals => some totals
    | .quoteDecision _ _ _ _ _ _ _ _ | .fill _ _ _ => none

def Desk.carried (s : Desk F X) : PnlMap F × List (PnlMap F) × Bool := (s.prior, s.persisted, s.pnlListener)

/-- A fill from the feed, or the fill of a flattening order. -/
def Event.Books : Event F → Prop
  | .fill _ | .recordFlatten _ => True
  | _ => False

section

variable (venue : Venue X)

theorem carried_detached : Quoter.Detached (Desk.carried (F := F) (X := X)) where
  quoter _ _ := rfl
  outside _ _ := rfl
  called _ _ _ := rfl
  orders _ _ := rfl
  emit emission kept s := by
    cases emission with
    | persist totals => exact absurd rfl (kept totals)
    | quoteDecision _ _ _ _ _ _ _ _ | fill _ _ _ => simp [Desk.carried, Desk.prior, Desk.persisted, Desk.emit]

theorem carried_reacts : Reacts venue (Desk.carried (F := F) (X := X)) (fun _ _ _ => False) where
  session s session _ same := by
    unfold Desk.carried Desk.prior
    rw [← same]
    rfl
  steady _ := rfl
  update ticker book s := Leads.quiet (chain_unmoved
    (Quoter.update_moves (carried_detached.moves venue ticker) book s))

theorem carried_untouched : Untouched venue (Desk.carried (F := F) (X := X)) where
  reacts := carried_reacts venue
  session s _ same := congrArg (fun prior => (prior, s.persisted, s.pnlListener)) same
  quoter _ _ _ _ := rfl
  tape _ _ := rfl
  cancels _ _ _ := rfl
  risk _ _ _ _ _ := rfl

theorem cancelAllQuotes_carried (s : Desk F X) : (cancelAllQuotes venue s).2.carried = s.carried :=
  (carried_untouched venue).cancelAllQuotes s

/-- What is carried over changes with a fill or a flatten only. -/
theorem handle_carried {event : Event F} (quiet : ¬ event.Books) (s : Desk F X) :
    (handle venue event s).2.carried = s.carried := by
  cases event with
  | fill _ | recordFlatten _ => exact (quiet trivial).elim
  | riskUpdate _ => rfl
  | _ => exact (carried_untouched venue).handle rfl s

theorem prior_blind : FillBlind (Desk.prior (F := F) (X := X)) where
  books _ _ _ := rfl
  emitted _ _ := rfl
  slots _ _ := rfl
  risk _ _ := rfl
  flow _ _ := rfl
  tape _ _ := rfl

/-- The prior PnL never changes. -/
theorem handle_prior (event : Event F) (s : Desk F X) : (handle venue event s).2.prior = s.prior := by
  by_cases books : event.Books
  · cases event with
    | fill newFill =>
      exact Leads.unmoved (Leads.bind (Leads.quiet (prior_blind.onFill newFill s)) (fun _ s₁ _ => Leads.quiet rfl))
    | recordFlatten order => exact prior_blind.booking.recordFlatten order s
    | _ => exact books.elim
  · exact congrArg Prod.fst (handle_carried venue books s)

theorem dispatch_prior (p : Process F X) (event : Event F) :
    (p.dispatch venue event).desk.prior = p.desk.prior := by
  rcases dispatch_cases venue p event with same | ⟨_, done⟩ | ⟨_, _, ended⟩
  · rw [same]
  · rw [done]
    exact handle_prior venue event p.desk
  · rw [ended]
    exact (congrArg Prod.fst (cancelAllQuotes_carried venue _)).trans (handle_prior venue event p.desk)

/-! ### What a fill or a flatten writes -/

/-- One map at most is written, by a computation that finishes, and it is `carried_totals` of the state
that computation leaves. -/
def WritesTotals {α : Type} (m : Eff (Desk F X) String α) (s : Desk F X) : Prop :=
  (m s).2.persisted = s.persisted ∨ (∃ a, (m s).1 = .ok a) ∧
    (m s).2.persisted = s.persisted ++ [(m s).2.session.carriedTotals (m s).2.orderMgr]

theorem reportFill_writes (fill : Fill F) (s : Desk F X) : WritesTotals (reportFill fill) s := by
  unfold WritesTotals reportFill
  simp only [bind_apply, get_apply, andThen_ok, Desk.emit]
  cases s.analytics with
  | false =>
    cases s.pnlListener with
    | false => exact .inl rfl
    | true =>
      refine .inr ⟨⟨(), rfl⟩, ?_⟩
      simp [Desk.persisted]
  | true =>
    cases s.pnlListener with
    | false => exact .inl (by simp [Desk.persisted])
    | true =>
      refine .inr ⟨⟨(), rfl⟩, ?_⟩
      simp [Desk.persisted]

/-- What is written after a part that writes nothing. -/
theorem WritesTotals.after {α β : Type} {m : Eff (Desk F X) String α} {k : α → Eff (Desk F X) String β}
    {s : Desk F X} (quiet : (m s).2.persisted = s.persisted)
    (rest : ∀ a s', m s = (.ok a, s') → WritesTotals (k a) s') : WritesTotals (m >>= k) s := by
  unfold WritesTotals
  rw [bind_apply]
  cases h : m s with
  | mk r s' =>
    rw [h] at quiet
    cases r with
    | error e => exact .inl quiet
    | ok a =>
      rw [andThen_ok, ← quiet]
      exact rest a s' h

theorem WritesTotals.quiet {α : Type} {m : Eff (Desk F X) String α} {s : Desk F X}
    (same : (m s).2.persisted = s.persisted) : WritesTotals m s := .inl same

theorem WritesTotals.then_pure {α β : Type} {m : Eff (Desk F X) String α} (f : α → β) {s : Desk F X}
    (writes : WritesTotals m s) : WritesTotals (do let a ← m; pure (f a)) s := by
  unfold WritesTotals at *
  rw [bind_apply, andThen_pure_state]
  rcases writes with same | ⟨⟨a, finished⟩, written⟩
  · exact .inl same
  · exact .inr ⟨⟨f a, andThen_pure_result f finished⟩, written⟩

theorem settleFill_writes (fill : Fill F) (s : Desk F X) : WritesTotals (settleFill fill) s := by
  unfold settleFill
  refine .after rfl (fun s₀ s₁ _ => ?_)
  have rest : ∀ s' : Desk F X, WritesTotals (do
      Desk.mapRisk fun risk => risk.update s₀.orderMgr s₀.session.tickers
      Eff.modify fun s : Desk F X =>
        { s with flowGuard := s.flowGuard.map fun guard =>
            guard.recordFill fill.marketTicker fill.side fill.quantity fill.timestamp }
      reportFill fill) s' := by
    intro s'
    refine .after rfl (fun _ s₂ _ => ?_)
    exact .after rfl fun _ s₃ _ => reportFill_writes fill s₃
  split
  · exact .after rfl fun _ s₂ _ => rest s₂
  · exact rest s₁

theorem recordFill_persisted (fill : Fill F) (s : Desk F X) :
    (OrderManager.recordFill fill s).2.persisted = s.persisted := by
  rcases OrderManager.recordFill_cases fill s with ⟨what, h, _⟩ | ⟨h, _⟩
  · rw [h]
  · rw [h]
    rfl

theorem onFill_writes (fill : Fill F) (s : Desk F X) : WritesTotals (onFill fill) s := by
  unfold onFill
  refine .after rfl (fun _ s₁ _ => .after rfl (fun s₀ s₂ _ => ?_))
  split
  · refine .after (recordFill_persisted fill s₂) (fun new s₃ _ => ?_)
    split
    · exact .then_pure (fun _ => true) (settleFill_writes fill s₃)
    · exact .quiet rfl
  · exact .quiet rfl

theorem recordFlatten_writes (order : Order) (s : Desk F X) : WritesTotals (recordFlatten order) s := by
  unfold recordFlatten
  split
  · exact .after (recordFill_persisted _ s) fun _ s₁ _ => reportFill_writes _ s₁
  · exact .quiet rfl

theorem handle_writes {event : Event F} (books : event.Books) (s : Desk F X) :
    WritesTotals (handle venue event) s := by
  cases event with
  | fill newFill => exact .then_pure (fun _ => ()) (onFill_writes newFill s)
  | recordFlatten order => exact recordFlatten_writes order s
  | _ => exact books.elim

/-- The maps an event hands to the PnL listener. -/
def Process.writes (p : Process F X) (event : Event F) : List (PnlMap F) :=
  (p.dispatch venue event).desk.persisted.drop p.desk.persisted.length

/-- What a fill or a flatten writes is `carried_totals` of the state it leaves. -/
theorem written_totals {p : Process F X} {event : Event F} (books : event.Books) {totals : PnlMap F}
    (written : totals ∈ p.writes venue event) :
    totals = (p.dispatch venue event).desk.session.carriedTotals (p.dispatch venue event).desk.orderMgr := by
  have nothing : (p.dispatch venue event).desk.persisted = p.desk.persisted → False := by
    intro same
    rw [Process.writes, same, List.drop_length] at written
    cases written
  rcases dispatch_cases venue p event with same | ⟨_, done⟩ | ⟨_, ⟨what, stopped⟩, ended⟩
  · exact (nothing (by rw [same])).elim
  · rcases handle_writes venue books p.desk with same | ⟨_, appended⟩
    · exact (nothing (by rw [done]; exact same)).elim
    · rw [Process.writes, done] at written
      rw [done]
      dsimp only at written ⊢
      rw [appended, List.drop_left, List.mem_singleton] at written
      exact written
  · rcases handle_writes venue books p.desk with same | ⟨⟨_, finished⟩, _⟩
    · have kept : (cancelAllQuotes venue (handle venue event p.desk).2).2.persisted = p.desk.persisted :=
        (congrArg (Prod.fst ∘ Prod.snd) (cancelAllQuotes_carried venue _)).trans same
      exact (nothing (by rw [ended]; exact kept)).elim
    · rw [stopped] at finished
      cases finished

theorem dispatch_accounted (p : Process F X) (event : Event F) (accounted : p.desk.ledger.Accounted) :
    (p.dispatch venue event).desk.ledger.Accounted := by
  refine chain_invariant Accounted ?_ (dispatch_leads venue p event) accounted
  rintro L L' ⟨_, _, step⟩ accounted
  exact step_accounted step accounted

end

/-! ### What the written map adds up to -/

/-- An absent key reads as 0. -/
def PnlMap.read (totals : PnlMap ℚ) (ticker : Ticker) : ℚ := (totals.lookup ticker).getD 0

theorem PnlMap.read_insert (totals : PnlMap ℚ) (ticker other : Ticker) (amount : ℚ) :
    PnlMap.read (totals.insert ticker amount) other =
      if other = ticker then amount else PnlMap.read totals other := by
  unfold PnlMap.read
  split
  next same => rw [same, AList.lookup_insert, Option.getD_some]
  next different => rw [AList.lookup_insert_ne different]

section

variable [Elementary ℚ]

/-- `carried_totals` reads the prior PnL of each market, and adds to it where the market is tracked. -/
theorem carriedTotals_read (session : TradingSession ℚ) (om : OrderManager ℚ) (ticker : Ticker) :
    PnlMap.read (session.carriedTotals om) ticker =
      PnlMap.read session.priorPnl ticker + if ticker ∈ session.tickers then om.realizedPnl ticker else 0 := by
  -- Over the markets still to come: those are set, the others read as they do in the map so far.
  have walk : ∀ (tickers : List Ticker) (totals : PnlMap ℚ),
      (∀ other, totals.lookup other = none → session.priorPnl.lookup other = none) →
      PnlMap.read (tickers.foldl (fun totals ticker =>
        if om.realizedPnl ticker != 0 || (totals.lookup ticker).isSome then
          totals.insert ticker ((session.priorPnl.lookup ticker).getD 0 + om.realizedPnl ticker)
        else totals) totals) ticker =
      if ticker ∈ tickers then PnlMap.read session.priorPnl ticker + om.realizedPnl ticker
      else PnlMap.read totals ticker := by
    intro tickers
    induction tickers with
    | nil => exact fun _ _ => rfl
    | cons first rest ih =>
      intro totals covers
      rw [List.foldl_cons]
      split
      next kept =>
        rw [ih]
        · rw [PnlMap.read_insert]
          by_cases later : ticker ∈ rest
          · simp [later]
          · by_cases here : ticker = first
            · subst here
              simp [later, PnlMap.read]
            · simp [later, here]
        · intro other absent
          by_cases here : other = first
          · rw [here, AList.lookup_insert] at absent
            cases absent
          · rw [AList.lookup_insert_ne here] at absent
            exact covers other absent
      next skipped =>
        simp only [Bool.or_eq_true, bne_iff_ne, ne_eq, not_or, not_not, Bool.not_eq_true,
          Option.isSome_eq_false_iff, Option.isNone_iff_eq_none] at skipped
        rw [ih totals covers]
        by_cases later : ticker ∈ rest
        · simp [later]
        · by_cases here : ticker = first
          · subst here
            simp [later, PnlMap.read, skipped.1, skipped.2, covers ticker skipped.2]
          · simp [later, here]
  rw [TradingSession.carriedTotals, walk session.tickers session.priorPnl fun _ absent => absent]
  split
  next => rfl
  next => rw [add_zero]

/-- The map gives the prior PnL of every market, with the session's realized PnL on top where a fill was
recorded. -/
def Desk.Conserves (s : Desk ℚ X) (prior totals : PnlMap ℚ) : Prop :=
  ∀ ticker, PnlMap.read totals ticker = PnlMap.read prior ticker +
    if ticker ∈ recordedMarkets s.calls then s.orderMgr.realizedPnl ticker else 0

/-- A market with a fill is tracked, or has realized nothing. -/
def Desk.CarriesTracked (s : Desk ℚ X) : Prop :=
  ∀ ticker ∈ recordedMarkets s.calls, ticker ∉ s.session.tickers → s.orderMgr.realizedPnl ticker = 0

theorem conserves_iff_tracked {s : Desk ℚ X} (accounted : s.ledger.Accounted) :
    s.Conserves s.session.priorPnl (s.session.carriedTotals s.orderMgr) ↔ s.CarriesTracked := by
  constructor
  · intro conserves ticker recorded untracked
    have same := conserves ticker
    rw [carriedTotals_read, if_neg untracked, if_pos recorded] at same
    linarith
  · intro carries ticker
    rw [carriedTotals_read]
    by_cases recorded : ticker ∈ recordedMarkets s.calls
    · by_cases tracked : ticker ∈ s.session.tickers
      · rw [if_pos tracked, if_pos recorded]
      · rw [if_neg tracked, if_pos recorded, carries ticker recorded tracked]
    · have nothing : s.orderMgr.realizedPnl ticker = 0 := by
        by_contra nonzero
        exact recorded (accounted ticker nonzero)
      rw [if_neg recorded, nothing, ite_self]

theorem carried_totals_conserve_iff (venue : Venue X) (session : TradingSession ℚ) (config : QuoterConfig ℚ)
    (limits : RiskLimits ℚ) (outside : X) (flowGuard : Option (FlowImbalanceGuard ℚ))
    (tradeTape : Option (TradeTape ℚ)) (analytics pnlListener : Bool) (events : List (Event ℚ))
    (event : Event ℚ) (books : event.Books) (totals : PnlMap ℚ)
    (written : totals ∈ ((Process.start session config limits outside flowGuard tradeTape analytics
      pnlListener).run venue events).writes venue event) :
    ((Process.start session config limits outside flowGuard tradeTape analytics
      pnlListener).run venue (events ++ [event])).desk.Conserves session.priorPnl totals ↔
    ((Process.start session config limits outside flowGuard tradeTape analytics
      pnlListener).run venue (events ++ [event])).desk.CarriesTracked := by
  have initial : (Process.start session config limits outside flowGuard tradeTape analytics
      pnlListener).desk.ledger.Accounted := fun ticker nonzero => absurd (sub_self _) nonzero
  -- what earlier sessions left is never changed in a run
  have whole : ∀ events, ((Process.start session config limits outside flowGuard tradeTape analytics
      pnlListener).run venue events).desk.ledger.Accounted ∧
      ((Process.start session config limits outside flowGuard tradeTape analytics
        pnlListener).run venue events).desk.prior = session.priorPnl := by
    intro events
    refine Run.invariant (fun p : Process ℚ X => p.desk.ledger.Accounted ∧ p.desk.prior = session.priorPnl) ?_
      ⟨initial, rfl⟩ events
    rintro p event ⟨accounted, prior⟩
    exact ⟨dispatch_accounted venue p event accounted, (dispatch_prior venue p event).trans prior⟩
  obtain ⟨accounted, prior⟩ := whole (events ++ [event])
  have same := conserves_iff_tracked accounted
  change _ = _ at prior
  rw [Desk.prior] at prior
  rw [prior] at same
  rw [← same, written_totals venue books written, Process.run_append]
  rfl

end

theorem PnlMap.mem_of_entries {totals : PnlMap ℚ} {maps : List (PnlMap ℚ)}
    (member : totals.entries ∈ maps.map AList.entries) : totals ∈ maps := by
  obtain ⟨other, among, same⟩ := List.mem_map.mp member
  rw [← AList.ext same]
  exact among

/-- A market that gains 2 cents on top of 100 earlier ones, then a fill on the other market: both are
tracked. -/
theorem carried_totals_conserve_tracked :
    let venue : Venue Script := ⟨⟨"exchange"⟩, Script.host⟩
    let fill (trade : String) (ticker : Ticker) (side : Side) : Fill ℚ :=
      { tradeId := trade, orderId := "order", marketTicker := ticker, side, priceCents := 49,
        quantity := ⟨100⟩, feeCents := 0, isTaker := false, timestamp := 0 }
    let session : TradingSession ℚ := { tickers := ["M", "N"], priorPnl := AList.singleton "M" 100 }
    let p : Process ℚ Script := Process.start session {} {} {} none none false true
    (p.run venue ([.fill (fill "a" "M" .yes), .fill (fill "b" "M" .no)] ++ [.fill (fill "c" "N" .yes)])).desk.Conserves
      session.priorPnl (AList.singleton "M" 102) := by
  intro venue fill session p
  refine (carried_totals_conserve_iff venue _ _ _ _ _ _ _ _
    [.fill (fill "a" "M" .yes), .fill (fill "b" "M" .no)] (.fill (fill "c" "N" .yes)) trivial _ ?_).mpr ?_
  · apply PnlMap.mem_of_entries
    decide +kernel
  · unfold Desk.CarriesTracked
    decide +kernel

/-- A market that lost 20 and was rotated out: the map written by the next fill has its prior PnL
again. -/
theorem rotated_market_loses_pnl :
    let venue : Venue Script := ⟨⟨"exchange"⟩, Script.host⟩
    let fill (trade : String) (ticker : Ticker) (side : Side) : Fill ℚ :=
      { tradeId := trade, orderId := "order", marketTicker := ticker, side, priceCents := 60,
        quantity := ⟨100⟩, feeCents := 0, isTaker := false, timestamp := 0 }
    let session : TradingSession ℚ := { tickers := ["M", "N"], priorPnl := AList.singleton "M" 100 }
    let p : Process ℚ Script := Process.start session {} {} {} none none false true
    let before := p.run venue [.fill (fill "a" "M" .yes), .fill (fill "b" "M" .no), .removeMarketIfIdle "M"]
    let after := (before.dispatch venue (.fill (fill "c" "N" .yes))).desk
    before.desk.persisted.map AList.entries = [[⟨"M", 100⟩], [⟨"M", 80⟩]] ∧
      AList.singleton "M" 100 ∈ before.writes venue (.fill (fill "c" "N" .yes)) ∧
      "M" ∈ recordedMarkets after.calls ∧ after.orderMgr.realizedPnl "M" = -20 ∧
      ¬ after.Conserves session.priorPnl (AList.singleton "M" 100) := by
  intro venue fill session p before after
  refine ⟨by decide +kernel, PnlMap.mem_of_entries (by decide +kernel), by decide +kernel, by decide +kernel,
    fun conserves => ?_⟩
  have lost : ¬ PnlMap.read (AList.singleton "M" 100) "M" = PnlMap.read session.priorPnl "M" +
      if "M" ∈ recordedMarkets after.calls then after.orderMgr.realizedPnl "M" else 0 := by decide +kernel
  exact lost (conserves "M")

end Kalshi
