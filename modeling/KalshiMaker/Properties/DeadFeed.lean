import KalshiMaker.Engine.Looks
import KalshiMaker.Net.ScriptedHost

/-! The quotes of a market without a feed are cancelled when it is found dead, and not again. -/
namespace Kalshi

open Effect Eff Desk TradingSession

variable {F X : Type} [Floating F] (venue : Venue X)

/-- The safety check after some of its markets. -/
def Desk.checked (s : Desk F X) (tickers : List Ticker) : Desk F X :=
  tickers.foldl (fun s ticker => (checkFeed venue ticker s).2) s

/-! ### The walk over the markets -/

/-- Every order that was open on the market has been sent a cancel since. -/
def Desk.SweptOn (before after : Desk F X) (ticker : Ticker) : Prop :=
  ∀ id ∈ before.orderMgr.openOn ticker, ∃ entry ∈ before.callsSince after, ∃ accepted, entry.call = .cancel id accepted

/-- The market has been left as it was: its mark, its orders, and no cancel of one of them. -/
structure Desk.Spared (ticker : Ticker) (before after : Desk F X) : Prop where
  mark : after.session.feedDead ticker = before.session.feedDead ticker
  orders : ∀ id order, before.orderMgr.openOrders.lookup id = some order → order.marketTicker = ticker →
    after.orderMgr.openOrders.lookup id = some order
  calls : ∃ later, after.calls = before.calls ++ later ∧
    ∀ entry ∈ later, ∀ id ∈ before.orderMgr.openOn ticker, ∀ accepted, entry.call ≠ .cancel id accepted

variable {venue} {ticker other : Ticker} {before s : Desk F X}

theorem Desk.Spared.refl : Spared ticker before before :=
  ⟨rfl, fun _ _ found _ => found, [], (List.append_nil _).symm, fun _ member => by cases member⟩

/-- A sweep of another market leaves this one as it was. -/
theorem Desk.Spared.sweepOther (spared : Spared ticker before s) (different : ticker ≠ other)
    {cancels : List (OrderId × Bool)} {x : X} (sweeps : s.ledger.Sweeps (· = other) cancels) :
    Spared ticker before ({ { s with session := s.session.markDead other }.afterCancels cancels x with
      quoter := s.quoter.forgetTicker other }) := by
  obtain ⟨later, calls, silent⟩ := spared.calls
  -- what a cancel is sent for is an order of the other market
  have elsewhere : ∀ sent ∈ cancels, ∀ id order, before.orderMgr.openOrders.lookup id = some order →
      order.marketTicker = ticker → sent.1 ≠ id := by
    rintro sent member id order found on rfl
    obtain ⟨order', opened, on'⟩ := sweeps.open_only sent member
    have same : some order = some order' := (spared.orders _ order found on).symm.trans opened
    cases same
    exact different (on.symm.trans on')
  constructor
  · change Function.update s.session.feedDead other true ticker = _
    rw [Function.update_of_ne different]
    exact spared.mark
  · intro id order found on
    change (s.orderMgr.afterCancels cancels).openOrders.lookup id = some order
    rw [s.orderMgr.afterCancels_lookup, if_neg fun accepted => elsewhere _ accepted id order found on rfl]
    exact spared.orders id order found on
  · refine ⟨later ++ cancels.map fun sent => ⟨.cancel sent.1 sent.2, s.session.tickers⟩, ?_, ?_⟩
    · change s.calls ++ _ = _
      rw [calls, List.append_assoc]
      rfl
    · intro entry member id among accepted sent
      rcases List.mem_append.mp member with earlier | now
      · exact silent entry earlier id among accepted sent
      · obtain ⟨cancel, sentNow, rfl⟩ := List.mem_map.mp now
        obtain ⟨order, found, on⟩ := (before.orderMgr.mem_openOn ticker id).mp among
        simp only [Call.cancel.injEq] at sent
        exact elsewhere cancel sentNow id order found on sent.1

/-- The sweep of this market reaches each of its orders. -/
theorem Desk.Spared.sweep (spared : Spared ticker before s) {cancels : List (OrderId × Bool)} {x : X}
    (sweeps : s.ledger.Sweeps (· = ticker) cancels) :
    SweptOn before ({ { s with session := s.session.markDead ticker }.afterCancels cancels x with
      quoter := s.quoter.forgetTicker ticker }) ticker := by
  obtain ⟨later, calls, _⟩ := spared.calls
  intro id among
  obtain ⟨order, found, on⟩ := (before.orderMgr.mem_openOn ticker id).mp among
  obtain ⟨cancel, member, rfl⟩ := List.mem_map.mp (sweeps.reaches id order (spared.orders id order found on) on)
  have added : before.callsSince ({ { s with session := s.session.markDead ticker }.afterCancels cancels x with
      quoter := s.quoter.forgetTicker ticker }) =
      later ++ cancels.map fun sent => ⟨.cancel sent.1 sent.2, s.session.tickers⟩ := by
    apply Desk.callsSince_of_append
    change s.calls ++ _ = _
    rw [calls, List.append_assoc]
    rfl
  rw [added]
  exact ⟨_, List.mem_append_right _ (List.mem_map_of_mem member), cancel.2, rfl⟩

/-- What has been sent stays sent. -/
theorem Desk.SweptOn.checkFeed (swept : SweptOn before s ticker) (within : before.calls <+: s.calls) (other : Ticker) :
    SweptOn before (checkFeed venue other s).2 ticker ∧ before.calls <+: (checkFeed venue other s).2.calls := by
  have grown : s.calls <+: (TradingSession.checkFeed venue other s).2.calls := by
    obtain ⟨x, ran, _⟩ | ⟨cancels, x, ran, _, _⟩ := checkFeed_run venue other s
    · exact (congrArg (fun desk : Desk F X => desk.calls) (congrArg Prod.snd ran)).symm ▸ List.prefix_refl s.calls
    · rw [ran]
      exact List.prefix_append _ _
  refine ⟨fun id among => ?_, within.trans grown⟩
  obtain ⟨entry, member, sent⟩ := swept id among
  refine ⟨entry, ?_, sent⟩
  obtain ⟨more, grown⟩ := grown
  unfold Desk.callsSince at member ⊢
  rw [← grown, List.drop_append_of_le_length within.length_le]
  exact List.mem_append_left _ member

theorem Desk.SweptOn.checked (swept : SweptOn before s ticker) (within : before.calls <+: s.calls)
    (tickers : List Ticker) : SweptOn before (s.checked venue tickers) ticker := by
  induction tickers generalizing s with
  | nil => exact swept
  | cons other tickers ih =>
    obtain ⟨still, grown⟩ := swept.checkFeed within other
    exact ih still grown

/-- Left as it was, or swept since, having been unmarked. -/
def Desk.Walked (ticker : Ticker) (before after : Desk F X) : Prop :=
  Spared ticker before after ∨
    before.session.feedDead ticker = false ∧ SweptOn before after ticker ∧ before.calls <+: after.calls

theorem Desk.Walked.checkFeed (walked : Walked ticker before s) (other : Ticker) :
    Walked ticker before (checkFeed venue other s).2 := by
  rcases walked with spared | ⟨unmarked, swept, within⟩
  · obtain ⟨x, ran, _⟩ | ⟨cancels, x, ran, unmarked, sweeps⟩ := checkFeed_run venue other s
    · rw [ran]
      exact .inl ⟨spared.mark, spared.orders, spared.calls⟩
    · rw [ran]
      by_cases same : ticker = other
      · subst same
        obtain ⟨later, calls, _⟩ := spared.calls
        refine .inr ⟨spared.mark.symm.trans unmarked, spared.sweep sweeps, ?_⟩
        exact List.IsPrefix.trans ⟨later, calls.symm⟩ (List.prefix_append s.calls _)
      · exact .inl (spared.sweepOther same sweeps)
  · exact .inr ⟨unmarked, swept.checkFeed within other⟩

theorem Desk.Walked.checked (walked : Walked ticker before s) (tickers : List Ticker) :
    Walked ticker before (s.checked venue tickers) := by
  induction tickers generalizing s with
  | nil => exact walked
  | cons other tickers ih => exact ih (walked.checkFeed other)

/-- A market that is found dead is swept, unless it was marked to begin with. -/
theorem Desk.Walked.found (walked : Walked ticker before s) (dead : s.Unconfirmed venue ticker)
    (unmarked : before.session.feedDead ticker = false) :
    SweptOn before (TradingSession.checkFeed venue ticker s).2 ticker ∧
      before.calls <+: (TradingSession.checkFeed venue ticker s).2.calls := by
  rcases walked with spared | ⟨_, swept, within⟩
  · obtain ⟨x, _, marked⟩ | ⟨cancels, x, ran, _, sweeps⟩ := checkFeed_run venue ticker s
    · have mark := marked dead
      rw [spared.mark, unmarked] at mark
      cases mark
    · rw [ran]
      obtain ⟨later, calls, _⟩ := spared.calls
      exact ⟨spared.sweep sweeps, List.IsPrefix.trans ⟨later, calls.symm⟩ (List.prefix_append s.calls _)⟩
  · exact swept.checkFeed within ticker

/-! ### One call -/

variable (venue)

/-- In the course of the call the feed of this tracked market is unconfirmed past the grace period. -/
def Desk.FoundDead (s : Desk F X) (ticker : Ticker) : Prop :=
  ∃ earlier later, s.session.tickers = earlier ++ ticker :: later ∧ (s.checked venue earlier).Unconfirmed venue ticker

theorem enforceQuoteSafety_run (running : s.riskMgr.isHalted = false) :
    enforceQuoteSafety venue s = (.ok (), s.checked venue s.session.tickers) := by
  have walk : ∀ (tickers : List Ticker) (t : Desk F X),
      (Eff.forEach tickers (checkFeed venue) t) = (.ok (), t.checked venue tickers) := by
    intro tickers
    induction tickers with
    | nil => exact fun _ => rfl
    | cons ticker tickers ih =>
      intro t
      have ran : checkFeed venue ticker t = (.ok (), (checkFeed venue ticker t).2) := by
        obtain ⟨x, ran, _⟩ | ⟨_, x, ran, _, _⟩ := checkFeed_run venue ticker t
        · rw [ran]
        · rw [ran]
      rw [forEach_cons, ran, andThen_ok, ih]
      rfl
  unfold enforceQuoteSafety
  rw [bind_apply, get_apply, andThen_ok, if_neg (by simp [running]), walk]

/-- A market found dead in a call is swept in it exactly if it was unmarked or had no open order. -/
theorem sweptOn_iff (running : s.riskMgr.isHalted = false) (found : s.FoundDead venue ticker) :
    SweptOn s (enforceQuoteSafety venue s).2 ticker ↔
      (s.session.feedDead ticker = true → s.orderMgr.openOn ticker = []) := by
  obtain ⟨earlier, later, tickers, dead⟩ := found
  rw [enforceQuoteSafety_run venue running]
  have start : Walked ticker s s := .inl Spared.refl
  constructor
  · intro swept marked
    -- a market already marked is passed over, so its orders are answered by no cancel
    have walked : Walked ticker s (s.checked venue s.session.tickers) := start.checked s.session.tickers
    rcases walked with spared | ⟨unmarked, _⟩
    · obtain ⟨later, calls, silent⟩ := spared.calls
      apply List.eq_nil_iff_forall_not_mem.mpr
      intro id among
      obtain ⟨entry, member, accepted, sent⟩ := swept id among
      rw [Desk.callsSince_of_append calls] at member
      exact silent entry member id among accepted sent
    · rw [marked] at unmarked
      cases unmarked
  · intro idle
    cases mark : s.session.feedDead ticker with
    | true =>
      intro id among
      rw [idle mark] at among
      cases among
    | false =>
      -- the walk reaches the market unmarked, and what it sweeps stays swept
      have split : s.checked venue s.session.tickers =
          (TradingSession.checkFeed venue ticker (s.checked venue earlier)).2.checked venue later := by
        rw [tickers]
        exact List.foldl_append
      rw [split]
      obtain ⟨swept, grown⟩ := (start.checked earlier).found dead mark
      exact swept.checked grown later

/-! ### Whole runs -/

/-- A safety check of a running process sends a cancel for every order of a tracked market that it finds dead. -/
def Process.CancelsDead (p : Process F X) (event : Event F) : Prop :=
  event = .enforceQuoteSafety → p.alive = true → p.desk.riskMgr.isHalted = false →
    ∀ ticker, p.desk.FoundDead venue ticker → SweptOn p.desk (p.dispatch venue event).desk ticker

/-- No market that it finds dead is marked already with an order still open. -/
def Process.MarkedIdle (p : Process F X) (event : Event F) : Prop :=
  event = .enforceQuoteSafety → p.alive = true → p.desk.riskMgr.isHalted = false →
    ∀ ticker, p.desk.FoundDead venue ticker → p.desk.session.feedDead ticker = true →
      p.desk.orderMgr.openOn ticker = []

theorem Process.cancelsDead_iff (p : Process F X) (event : Event F) :
    p.CancelsDead venue event ↔ p.MarkedIdle venue event := by
  have checked : p.alive = true → p.desk.riskMgr.isHalted = false →
      (p.dispatch venue .enforceQuoteSafety).desk = (enforceQuoteSafety venue p.desk).2 := by
    intro alive running
    have ended : (handle venue .enforceQuoteSafety p.desk).1 = .ok () := by
      rw [handle, enforceQuoteSafety_run venue running]
    rcases dispatch_alive venue alive (.enforceQuoteSafety : Event F) with done | ⟨⟨what, stopped⟩, _⟩
    · rw [done]
      rfl
    · rw [ended] at stopped
      cases stopped
  constructor
  · rintro cancels rfl alive running ticker found
    have swept := cancels rfl alive running ticker found
    rw [checked alive running] at swept
    exact (sweptOn_iff venue running found).mp swept
  · rintro idle rfl alive running ticker found
    rw [checked alive running]
    exact (sweptOn_iff venue running found).mpr (idle rfl alive running ticker found)

/-- A run cancels dead feeds until they are cancelled exactly if no safety check of it finds a marked market with an
order still open. -/
theorem dead_feed_cancelled_iff (p : Process F X) (events : List (Event F)) :
    p.Meets venue (Process.CancelsDead venue) events ↔ p.Meets venue (Process.MarkedIdle venue) events :=
  Run.meets_congr fun p event => p.cancelsDead_iff venue event

/-- Twenty seconds pass from one reading to the next. -/
def Script.slowHost : Host Script :=
  { Script.host with steadyNow := fun x => (x.time, { x with time := x.time + 20 * nanosPerSecond }) }

/-- The market never ticks after its seeding, and the cancel of its ask is refused. The next safety check
still finds it dead, and sends nothing. -/
theorem refused_cancel_not_retried :
    let venue : Venue Script := ⟨⟨"exchange"⟩, Script.slowHost⟩
    let seed : Orderbook := { ticker := "M", yes := [⟨40, ⟨1000⟩⟩], no := [⟨40, ⟨1000⟩⟩] }
    let start : Process ℚ Script := .start { tickers := ["M"] } {} {} { cancels := [500] } none none false false
    let p := start.run venue [.addMarket seed, .enforceQuoteSafety]
    p.alive = true ∧ p.desk.riskMgr.isHalted = false ∧ p.desk.FoundDead venue "M" ∧
      p.desk.orderMgr.openOn "M" = ["order-2"] ∧
      ¬ SweptOn p.desk (p.dispatch venue .enforceQuoteSafety).desk "M" ∧
      ¬ start.Meets venue (Process.CancelsDead venue) [.addMarket seed, .enforceQuoteSafety, .enforceQuoteSafety] := by
  intro venue seed start p
  have alive : p.alive = true := by decide +kernel
  have running : p.desk.riskMgr.isHalted = false := by decide +kernel
  have opened : p.desk.orderMgr.openOn "M" = ["order-2"] := by decide +kernel
  have silent : (p.desk.callsSince (p.dispatch venue .enforceQuoteSafety).desk).length = 0 := by decide +kernel
  have tickers : p.desk.session.tickers = ["M"] := by decide +kernel
  -- seeded, and no message since for longer than the grace
  have found : p.desk.FoundDead venue "M" := by
    refine ⟨[], [], tickers, ?_⟩
    change (feedConfirmed venue "M" p.desk).1 = .ok false
    obtain ⟨confirmed, x, ran⟩ := feedConfirmed_run venue "M" p.desk
    have late : ((feedConfirmed venue "M" p.desk).1.toOption) = some false := by decide +kernel
    rw [ran] at late ⊢
    cases late
    rfl
  have left : ¬ SweptOn p.desk (p.dispatch venue .enforceQuoteSafety).desk "M" := by
    intro swept
    obtain ⟨entry, member, _⟩ := swept "order-2" (by rw [opened]; exact List.mem_singleton.mpr rfl)
    rw [List.length_eq_zero_iff.mp silent] at member
    cases member
  refine ⟨alive, running, found, opened, left, fun meets => ?_⟩
  exact left (meets.2.2.1 rfl alive running "M" found)

end Kalshi
