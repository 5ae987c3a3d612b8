import KalshiMaker.Engine.Ledger

/-! The steps of the ledger, and every event of the process as a chain of them. -/
namespace Kalshi

open Effect Eff Relation

variable {F X : Type} [Floating F]

inductive Action (F : Type) where
  | quote (ticker : Ticker)
  | fill (fill : Fill F)
  | flatten (fill : Fill F)
  | sweepAll
  | sweep (ticker : Ticker)
  | cancel (orderId : OrderId)
  | raise
  | clear (bit : Constraint)
  | resume
  | track (ticker : Ticker)
  | untrack (ticker : Ticker)
  | forget

namespace OrderManager

/-- The registry after a list of cancels, each with its answer. -/
def afterCancels (om : OrderManager F) (cancels : List (OrderId × Bool)) : OrderManager F :=
  cancels.foldl (fun om sent => if sent.2 then om.cancelled sent.1 else om) om

omit [Floating F] in
/-- An order is gone exactly if one of its cancels was accepted. -/
theorem afterCancels_lookup (om : OrderManager F) (cancels : List (OrderId × Bool)) (id : OrderId) :
    (om.afterCancels cancels).openOrders.lookup id =
      if (id, true) ∈ cancels then none else om.openOrders.lookup id := by
  induction cancels generalizing om with
  | nil => rfl
  | cons sent cancels ih =>
    obtain ⟨other, success⟩ := sent
    have unfolded : om.afterCancels ((other, success) :: cancels) =
        (if success then om.cancelled other else om).afterCancels cancels := rfl
    rw [unfolded, ih]
    cases success with
    | false => simp
    | true =>
      by_cases same : id = other
      · subst same
        simp [cancelled]
      · simp [cancelled, same, AList.lookup_erase_ne same]

omit [Floating F] in
/-- Cancels touch the registry only. -/
theorem afterCancels_books (om : OrderManager F) (cancels : List (OrderId × Bool)) :
    ∃ openOrders, om.afterCancels cancels = { om with openOrders } := by
  induction cancels generalizing om with
  | nil => exact ⟨om.openOrders, rfl⟩
  | cons sent cancels ih =>
    obtain ⟨openOrders, rest⟩ := ih (if sent.2 then om.cancelled sent.1 else om)
    refine ⟨openOrders, rest.trans ?_⟩
    split <;> rfl

omit [Floating F] in
theorem afterCancels_netPosition (om : OrderManager F) (cancels : List (OrderId × Bool)) :
    (om.afterCancels cancels).netPosition = om.netPosition := by
  obtain ⟨openOrders, books⟩ := om.afterCancels_books cancels
  rw [books]

end OrderManager

namespace Ledger

def vacant : OrderId × Int := ("", 0)

def afterCancels (L : Ledger F) (cancels : List (OrderId × Bool)) : Ledger F :=
  { L with
    orderMgr := L.orderMgr.afterCancels cancels
    calls := L.calls ++ cancels.map fun sent => ⟨.cancel sent.1 sent.2, L.tickers⟩ }

/-- The cancels of a sweep: one at least for each open order in scope, and none for any other. -/
structure Sweeps (L : Ledger F) (scope : Ticker → Prop) (cancels : List (OrderId × Bool)) : Prop where
  reaches : ∀ id order, L.order? id = some order → scope order.marketTicker → id ∈ cancels.map Prod.fst
  open_only : ∀ sent ∈ cancels, ∃ order, L.order? sent.1 = some order ∧ scope order.marketTicker

/-- A filled order that left the registry leaves its slot too. -/
def forgetFilled (L : Ledger F) (ticker : Ticker) (id : OrderId) : Ledger F :=
  if L.order? id = none then
    { L with slots := Function.update L.slots ticker fun side =>
        if (L.slots ticker side).1 = id then ("", (L.slots ticker side).2) else L.slots ticker side }
  else L

def recorded (L : Ledger F) (fill : Fill F) : Ledger F :=
  (L.called (.recordFill fill true)).withOrders (L.orderMgr.bookFill fill)

inductive Step (L : Ledger F) : Action F → Ledger F → Prop where
  | quote {ticker : Ticker} {L' : Ledger F} (step : QuoteStep ticker L L') : Step L (.quote ticker) L'
  | fill {fill : Fill F} (valid : OrderManager.checkFill fill = .ok ())
      (tracked : fill.marketTicker ∈ L.tickers)
      (fresh : OrderManager.fillKey fill ∉ L.orderMgr.seenFills) :
      Step L (.fill fill) ((L.recorded fill).forgetFilled fill.marketTicker fill.orderId)
  | refill {fill : Fill F} : Step L (.fill fill) (L.called (.recordFill fill false))
  | flatten {fill : Fill F} (valid : OrderManager.checkFill fill = .ok ())
      (fresh : OrderManager.fillKey fill ∉ L.orderMgr.seenFills) :
      Step L (.flatten fill) (L.recorded fill)
  | reflatten {fill : Fill F} : Step L (.flatten fill) (L.called (.recordFill fill false))
  | sweepAll {cancels : List (OrderId × Bool)} (sent : L.Sweeps (· ∈ L.tickers) cancels) :
      Step L .sweepAll { L.afterCancels cancels with slots := fun _ _ => vacant }
  | sweep {ticker : Ticker} {cancels : List (OrderId × Bool)} (sent : L.Sweeps (· = ticker) cancels) :
      Step L (.sweep ticker)
        { L.afterCancels cancels with slots := Function.update L.slots ticker fun _ => vacant }
  | cancel {id : OrderId} {success : Bool} : Step L (.cancel id) (L.afterCancels [(id, success)])
  | raise {riskMgr : RiskManager F} (raises : L.riskMgr.Raises riskMgr) : Step L .raise { L with riskMgr }
  | clear {bit : Constraint} : Step L (.clear bit) { L with riskMgr := L.riskMgr.clear bit }
  | resume : Step L .resume { L with riskMgr := L.riskMgr.resume }
  | track {ticker : Ticker} (new : ticker ∉ L.tickers) :
      Step L (.track ticker) { L with tickers := L.tickers ++ [ticker] }
  | untrack {ticker : Ticker} (tracked : ticker ∈ L.tickers)
      (flat : (L.orderMgr.netPosition ticker).isZero) (idle : L.orderMgr.openOn ticker = []) :
      Step L (.untrack ticker) { L with tickers := L.tickers.filter fun other => other != ticker }
  | forget {slots : Ticker → Side → OrderId × Int}
      (cleared : ∀ ticker side, slots ticker side = L.slots ticker side ∨ (slots ticker side).1 = "") :
      Step L .forget { L with slots }

/-- Orders go out on the quoted market only, and only while no risk bit is set. -/
theorem QuoteStep.calls {ticker : Ticker} {L L' : Ledger F} (step : QuoteStep ticker L L') :
    ∃ call, L'.calls = L.calls ++ [⟨call, L.tickers⟩] ∧
      ∀ other, call.sentOn = some other → other = ticker ∧ ∀ bit, L.riskMgr.constraints bit = false := by
  cases step with
  | placed vacant passed _ _ _ =>
    exact ⟨_, rfl, fun other sent => ⟨(Option.some.inj sent).symm, RiskManager.checkOrder_quiet passed⟩⟩
  | placeFailed passed =>
    exact ⟨_, rfl, fun other sent => ⟨(Option.some.inj sent).symm, RiskManager.checkOrder_quiet passed⟩⟩
  | amended held passed =>
    exact ⟨_, rfl, fun other sent => ⟨(Option.some.inj sent).symm, RiskManager.checkOrder_quiet passed⟩⟩
  | amendFailed passed =>
    exact ⟨_, rfl, fun other sent => ⟨(Option.some.inj sent).symm, RiskManager.checkOrder_quiet passed⟩⟩
  | released => exact ⟨_, rfl, fun _ sent => by cases sent⟩
  | forgotten _ => exact ⟨_, rfl, fun _ sent => by cases sent⟩
  | kept => exact ⟨_, rfl, fun _ sent => by cases sent⟩

theorem quoteStep_tickers {ticker : Ticker} {L L' : Ledger F} (step : QuoteStep ticker L L') :
    L'.tickers = L.tickers := by
  cases step <;> rfl

@[simp] theorem forgetFilled_calls (L : Ledger F) (ticker : Ticker) (id : OrderId) :
    (L.forgetFilled ticker id).calls = L.calls := by
  unfold forgetFilled
  split <;> rfl

@[simp] theorem forgetFilled_riskMgr (L : Ledger F) (ticker : Ticker) (id : OrderId) :
    (L.forgetFilled ticker id).riskMgr = L.riskMgr := by
  unfold forgetFilled
  split <;> rfl

@[simp] theorem forgetFilled_orderMgr (L : Ledger F) (ticker : Ticker) (id : OrderId) :
    (L.forgetFilled ticker id).orderMgr = L.orderMgr := by
  unfold forgetFilled
  split <;> rfl

@[simp] theorem forgetFilled_tickers (L : Ledger F) (ticker : Ticker) (id : OrderId) :
    (L.forgetFilled ticker id).tickers = L.tickers := by
  unfold forgetFilled
  split <;> rfl

theorem order?_forgetFilled (L : Ledger F) (ticker : Ticker) (id other : OrderId) :
    (L.forgetFilled ticker id).order? other = L.order? other := by
  rw [order?, forgetFilled_orderMgr]
  rfl

/-- Forgetting a filled order empties its slots and leaves the others. -/
theorem forgetFilled_slots (L : Ledger F) (ticker t : Ticker) (id : OrderId) (d : Side) :
    (L.forgetFilled ticker id).slots t d =
      if L.order? id = none ∧ t = ticker ∧ (L.slots t d).1 = id then ("", (L.slots t d).2)
      else L.slots t d := by
  unfold forgetFilled
  by_cases gone : L.order? id = none
  · by_cases here : t = ticker
    · subst here
      simp [gone]
    · simp [gone, here]
  · simp [gone]

theorem afterCancels_calls (L : Ledger F) (cancels : List (OrderId × Bool)) :
    ∃ later, (L.afterCancels cancels).calls = L.calls ++ later ∧
      ∀ entry ∈ later, entry.tickers = L.tickers ∧ entry.call.sentOn = none := by
  refine ⟨_, rfl, fun entry member => ?_⟩
  obtain ⟨sent, _, rfl⟩ := List.mem_map.mp member
  exact ⟨rfl, rfl⟩

/-- What a step adds to the calls. An order is sent by a quote step only. -/
theorem Step.calls {L L' : Ledger F} {action : Action F} (step : Step L action L') :
    ∃ later, L'.calls = L.calls ++ later ∧ ∀ entry ∈ later, entry.tickers = L.tickers ∧
      ∀ ticker, entry.call.sentOn = some ticker →
        action = .quote ticker ∧ ∀ bit, L.riskMgr.constraints bit = false := by
  have cancelled : ∀ cancels, ∃ later, (L.afterCancels cancels).calls = L.calls ++ later ∧
      ∀ entry ∈ later, entry.tickers = L.tickers ∧ ∀ ticker, entry.call.sentOn = some ticker →
        action = .quote ticker ∧ ∀ bit, L.riskMgr.constraints bit = false := by
    intro cancels
    obtain ⟨later, calls, silent⟩ := L.afterCancels_calls cancels
    refine ⟨later, calls, fun entry member => ⟨(silent entry member).1, fun ticker sent => ?_⟩⟩
    rw [(silent entry member).2] at sent
    cases sent
  cases step with
  | quote step =>
    obtain ⟨call, calls, sends⟩ := step.calls
    refine ⟨_, calls, fun entry member => ?_⟩
    rw [List.mem_singleton.mp member]
    exact ⟨rfl, fun ticker sent => ⟨(sends ticker sent).1 ▸ rfl, (sends ticker sent).2⟩⟩
  | fill _ _ _ => exact ⟨[⟨.recordFill _ true, L.tickers⟩], by rw [forgetFilled_calls]; rfl, by simp [Call.sentOn]⟩
  | refill => exact ⟨[⟨.recordFill _ false, L.tickers⟩], rfl, by simp [Call.sentOn]⟩
  | flatten _ _ => exact ⟨[⟨.recordFill _ true, L.tickers⟩], rfl, by simp [Call.sentOn]⟩
  | reflatten => exact ⟨[⟨.recordFill _ false, L.tickers⟩], rfl, by simp [Call.sentOn]⟩
  | sweepAll _ | sweep _ | cancel => exact cancelled _
  | raise _ | clear | resume | track _ | untrack _ _ _ | forget _ => exact ⟨[], by simp, by simp⟩

/-- Some permitted action is taken. -/
def Does (permitted : Action F → Prop) (L L' : Ledger F) : Prop :=
  ∃ action, permitted action ∧ Step L action L'

theorem Does.mono {narrow wide : Action F → Prop} (wider : ∀ action, narrow action → wide action)
    {L L' : Ledger F} (does : Does narrow L L') : Does wide L L' := by
  obtain ⟨action, permitted, step⟩ := does
  exact ⟨action, wider action permitted, step⟩

/-- Calls are only ever added. -/
theorem Does.chain_calls {permitted : Action F → Prop} {L L' : Ledger F}
    (chain : ReflTransGen (Does permitted) L L') : ∃ later, L'.calls = L.calls ++ later := by
  induction chain with
  | refl => exact ⟨[], (List.append_nil _).symm⟩
  | tail _ does ih =>
    obtain ⟨later, calls⟩ := ih
    obtain ⟨_, _, step⟩ := does
    obtain ⟨more, added, _⟩ := step.calls
    exact ⟨later ++ more, by rw [added, calls, List.append_assoc]⟩

end Ledger

open Ledger Desk

/-- What a fill has no part in: the outside, the session and the looks of the quoter. -/
def Desk.market (s : Desk F X) : X × TradingSession F × List PricedBook := (s.outside, s.session, s.priced)

/-- The calls made between two desks of a run. -/
def Desk.callsSince (before after : Desk F X) : List (Entry F) := after.calls.drop before.calls.length

theorem Desk.callsSince_of_append {before after : Desk F X} {later : List (Entry F)}
    (calls : after.calls = before.calls ++ later) : before.callsSince after = later := by
  unfold Desk.callsSince
  rw [calls, List.drop_left]

def Desk.setting (s : Desk F X) : (X × TradingSession F × List PricedBook) × QuoterConfig F :=
  (s.market, s.quoter.config)

/-! ### Sweeps -/

def Desk.afterCancels (s : Desk F X) (cancels : List (OrderId × Bool)) (x : X) : Desk F X :=
  { s with
    outside := x
    orderMgr := s.orderMgr.afterCancels cancels
    calls := s.calls ++ cancels.map fun sent => ⟨.cancel sent.1 sent.2, s.session.tickers⟩ }

theorem Desk.afterCancels_nil (s : Desk F X) : s.afterCancels [] s.outside = s := by
  simp [afterCancels, OrderManager.afterCancels]

theorem Desk.afterCancels_append (s : Desk F X) (first second : List (OrderId × Bool)) (x y : X) :
    (s.afterCancels first x).afterCancels second y = s.afterCancels (first ++ second) y := by
  simp [afterCancels, OrderManager.afterCancels]

namespace OrderManager

variable (venue : Venue X)

theorem cancelBestEffort_run (id : OrderId) (s : Desk F X) :
    ∃ success x, cancelBestEffort venue id s = (.ok (), s.afterCancels [(id, success)] x) := by
  unfold cancelBestEffort
  rw [tryCatch_apply, bind_apply]
  rcases cancel_cases venue id s with ⟨x, h⟩ | ⟨x, h⟩ | ⟨what, x, h⟩
  · exact ⟨true, x, by rw [h]; rfl⟩
  · exact ⟨false, x, by rw [h]; rfl⟩
  · exact ⟨false, x, by rw [h]; rfl⟩

/-- A best-effort loop sends one cancel for each id and always comes to its end. -/
theorem cancelEach_run (ids : List OrderId) (s : Desk F X) :
    ∃ cancels x, Eff.forEach ids (cancelBestEffort venue) s = (.ok (), s.afterCancels cancels x) ∧
      cancels.map Prod.fst = ids := by
  induction ids generalizing s with
  | nil => exact ⟨[], s.outside, by rw [afterCancels_nil]; rfl, rfl⟩
  | cons id ids ih =>
    obtain ⟨success, x, first⟩ := cancelBestEffort_run venue id s
    obtain ⟨cancels, y, rest, sent⟩ := ih (s.afterCancels [(id, success)] x)
    refine ⟨(id, success) :: cancels, y, ?_, by simp [sent]⟩
    rw [forEach_cons, first, andThen_ok, rest, Desk.afterCancels_append]
    rfl

theorem cancelAll_run (ticker : Ticker) (s : Desk F X) :
    ∃ cancels x, cancelAll venue ticker s = (.ok (), s.afterCancels cancels x) ∧
      ∀ id, id ∈ cancels.map Prod.fst ↔ id ∈ s.orderMgr.openOn ticker := by
  obtain ⟨cancels, x, ran, sent⟩ := cancelEach_run venue
    ((venue.host.arrange s.outside s.orderMgr.openOrders.keys).filter (s.orderMgr.isOpenOn ticker)) s
  refine ⟨cancels, x, ran, fun id => ?_⟩
  rw [sent]
  exact ((venue.host.arrange_perm _ _).filter _).mem_iff

end OrderManager

namespace TradingSession

variable (venue : Venue X)

theorem cancelAllGuarded_run (ticker : Ticker) (s : Desk F X) :
    ∃ cancels x, cancelAllGuarded venue ticker s = (.ok (), s.afterCancels cancels x) ∧
      s.ledger.Sweeps (· = ticker) cancels := by
  obtain ⟨cancels, x, ran, sent⟩ := OrderManager.cancelAll_run venue ticker s
  refine ⟨cancels, x, by rw [cancelAllGuarded, tryCatch_apply, ran]; rfl, ?_, ?_⟩
  · intro id order found on
    exact (sent id).mpr ((s.orderMgr.mem_openOn ticker id).mpr ⟨order, found, on⟩)
  · intro cancel member
    exact (s.orderMgr.mem_openOn ticker cancel.1).mp ((sent cancel.1).mp (List.mem_map_of_mem member))

/-- What is open after some cancels was open before them. -/
theorem order_of_afterCancels {s : Desk F X} {cancels : List (OrderId × Bool)} {x : X} {id : OrderId}
    {order : Order} (found : (s.afterCancels cancels x).ledger.order? id = some order) :
    s.ledger.order? id = some order := by
  have lookup := s.orderMgr.afterCancels_lookup cancels id
  change (s.orderMgr.afterCancels cancels).openOrders.lookup id = some order at found
  rw [found] at lookup
  split at lookup
  · cases lookup
  · exact lookup.symm

theorem cancelEachMarket_run (tickers : List Ticker) (s : Desk F X) :
    ∃ cancels x, Eff.forEach tickers (cancelAllGuarded venue) s = (.ok (), s.afterCancels cancels x) ∧
      s.ledger.Sweeps (· ∈ tickers) cancels := by
  induction tickers generalizing s with
  | nil => exact ⟨[], s.outside, by rw [afterCancels_nil]; rfl, by simp, by simp⟩
  | cons ticker tickers ih =>
    obtain ⟨here, x, first, sentHere⟩ := cancelAllGuarded_run venue ticker s
    obtain ⟨there, y, rest, sentThere⟩ := ih (s.afterCancels here x)
    refine ⟨here ++ there, y, ?_, ?_, ?_⟩
    · rw [forEach_cons, first, andThen_ok, rest, Desk.afterCancels_append]
    · intro id order found on
      rw [List.map_append, List.mem_append]
      -- an order of this market was reached by its own sweep, any other is still open for a later one
      by_cases sent : id ∈ here.map Prod.fst
      · exact .inl sent
      · right
        have still : (s.afterCancels here x).ledger.order? id = some order := by
          change (s.orderMgr.afterCancels here).openOrders.lookup id = some order
          rw [s.orderMgr.afterCancels_lookup, if_neg (fun accepted => sent (List.mem_map_of_mem accepted))]
          exact found
        rcases List.mem_cons.mp on with same | other
        · exact absurd (sentHere.reaches id order found same) sent
        · exact sentThere.reaches id order still other
    · intro cancel member
      rcases List.mem_append.mp member with member | member
      · obtain ⟨order, found, on⟩ := sentHere.open_only cancel member
        exact ⟨order, found, List.mem_cons.mpr (.inl on)⟩
      · obtain ⟨order, found, on⟩ := sentThere.open_only cancel member
        exact ⟨order, order_of_afterCancels found, List.mem_cons_of_mem ticker on⟩

/-- Cancelling all quotes never stops early. -/
theorem cancelAllQuotes_run (s : Desk F X) :
    ∃ cancels x, cancelAllQuotes venue s =
        (.ok (), { s.afterCancels cancels x with quoter := s.quoter.resetQuotes }) ∧
      s.ledger.Sweeps (· ∈ s.session.tickers) cancels := by
  unfold cancelAllQuotes
  by_cases none : s.orderMgr.openOrders.keys = []
  · refine ⟨[], s.outside, ?_, ?_, by simp⟩
    · simp [none, mapQuoter, afterCancels_nil]
    · intro id order found
      have member : id ∈ s.orderMgr.openOrders.keys :=
        AList.mem_keys.mp (AList.lookup_isSome.mp (Option.isSome_of_eq_some found))
      simp [none] at member
  · obtain ⟨cancels, x, ran, sent⟩ := cancelEachMarket_run venue s.session.tickers s
    refine ⟨cancels, x, ?_, sent⟩
    simp [none, ran, mapQuoter, Desk.afterCancels]

/-! ### Market data -/

/-- The session's own bookkeeping leaves the view alone, and the quoter moves it along `R`. -/
structure Reacts {υ : Type} (view : Desk F X → υ) (R : Ticker → υ → υ → Prop) : Prop where
  session : ∀ (s : Desk F X) (session : TradingSession F), session.tickers = s.session.tickers →
    session.priorPnl = s.session.priorPnl → view { s with session } = view s
  steady : ∀ s, view (steadyNow venue s).2 = view s
  update : ∀ ticker book s, Leads view (R ticker) (Quoter.update venue ticker book) s

section

variable {venue} {υ : Type} {view : Desk F X → υ} {R : Ticker → υ → υ → Prop} {S : υ → υ → Prop}

theorem steadyNow_leads (reacts : Reacts venue view R) (s : Desk F X) : Leads view S (steadyNow venue) s :=
  Leads.quiet (reacts.steady s)

theorem startCooldown_leads (reacts : Reacts venue view R) (ticker : Ticker) (s : Desk F X) :
    Leads view S (startCooldown venue ticker) s :=
  Leads.bind (steadyNow_leads reacts s) fun _ s₁ _ => Leads.quiet (reacts.session s₁ _ rfl rfl)

theorem coolingDown_leads (reacts : Reacts venue view R) (ticker : Ticker) (s : Desk F X) :
    Leads view S (coolingDown venue ticker) s := by
  unfold coolingDown
  refine Leads.bind (Leads.quiet rfl) (fun s₀ s₁ _ => ?_)
  cases s₀.session.cooldownUntil ticker with
  | none => exact Leads.quiet rfl
  | some deadline => exact Leads.bind (steadyNow_leads reacts s₁) fun _ s₂ _ => Leads.quiet rfl

theorem markTicked_leads (reacts : Reacts venue view R) (ticker : Ticker) (book : LocalOrderbook)
    (s : Desk F X) : Leads view S (markTicked venue ticker book) s := by
  unfold markTicked
  refine Leads.bind (Leads.quiet (reacts.session s _ rfl rfl)) (fun _ s₁ _ => ?_)
  refine Leads.bind (steadyNow_leads reacts s₁) (fun now s₂ _ => ?_)
  exact Leads.quiet (reacts.session s₂ _ rfl rfl)

theorem feedConfirmed_leads (reacts : Reacts venue view R) (ticker : Ticker) (s : Desk F X) :
    Leads view S (feedConfirmed venue ticker) s := by
  unfold feedConfirmed
  refine Leads.bind (Leads.quiet rfl) (fun s₀ s₁ _ => Leads.ite (fun _ => Leads.quiet rfl) (fun _ => ?_))
  cases s₀.session.seededAt ticker with
  | none => exact Leads.quiet rfl
  | some seeded => exact Leads.bind (steadyNow_leads reacts s₁) fun _ s₂ _ => Leads.quiet rfl

theorem wantsRequote_leads (reacts : Reacts venue view R) (ticker : Ticker) (s : Desk F X) :
    Leads view S (wantsRequote venue ticker) s := by
  unfold wantsRequote
  refine Leads.bind (feedConfirmed_leads reacts ticker s) (fun _ s₁ _ => ?_)
  refine Leads.ite (fun _ => Leads.bind (Leads.quiet rfl) (fun s₀ s₂ _ => ?_)) (fun _ => Leads.quiet rfl)
  refine Leads.ite (fun _ => ?_) (fun _ => Leads.quiet rfl)
  exact Leads.bind (coolingDown_leads reacts ticker s₂) fun _ s₃ _ => Leads.quiet rfl

theorem quoteOrCoolDown_leads (reacts : Reacts venue view R) (ticker : Ticker) (book : LocalOrderbook)
    (s : Desk F X) : Leads view (R ticker) (quoteOrCoolDown venue ticker book) s :=
  Leads.tryCatch (reacts.update ticker book s) fun _ s' _ => startCooldown_leads reacts ticker s'

/-- A delta quotes its own market, and that only while the market is tracked. -/
theorem onDelta_leads (reacts : Reacts venue view R) (ticker : Ticker) (side : Side) (priceCents : Int)
    (qty : Quantity) (s : Desk F X) :
    Leads view (fun u v => ticker ∈ s.session.tickers ∧ R ticker u v)
      (onDelta venue ticker side priceCents qty) s := by
  unfold onDelta
  refine Leads.bind (Leads.quiet rfl) ?_
  rintro s₀ _ ⟨⟩
  refine Leads.bind (markTicked_leads reacts ticker _ s) (fun _ s₁ _ => ?_)
  refine Leads.ite (fun tracked => ?_) (fun _ => Leads.quiet rfl)
  refine Leads.bind (coolingDown_leads reacts ticker s₁) (fun cooling s₂ _ => ?_)
  refine Leads.ite (fun _ => Leads.quiet rfl) (fun _ => ?_)
  refine (quoteOrCoolDown_leads reacts ticker _ s₂).mono (fun u v step => ⟨?_, step⟩)
  simpa [isTracked] using tracked

theorem seedOrderbook_leads (reacts : Reacts venue view R) (snapshot : Orderbook) (s : Desk F X) :
    Leads view (R snapshot.ticker) (seedOrderbook venue snapshot) s := by
  unfold seedOrderbook
  refine Leads.bind (Leads.quiet (reacts.session s _ rfl rfl)) (fun _ s₁ _ => ?_)
  refine Leads.bind (steadyNow_leads reacts s₁) (fun now s₂ _ => ?_)
  refine Leads.bind (Leads.quiet (reacts.session s₂ _ rfl rfl)) (fun _ s₃ _ => ?_)
  exact Leads.tryCatch (reacts.update _ _ s₃) fun _ s' _ => Leads.quiet rfl

/-- Each market the requote loop comes to is quoted or passed over. -/
theorem requoteMarket_leads (reacts : Reacts venue view R) (ticker : Ticker) (s : Desk F X) :
    Leads view (fun u v => (wantsRequote venue ticker s).1 = .ok true ∧ R ticker u v)
      (requoteMarket venue ticker) s := by
  unfold requoteMarket
  refine Leads.bind (Leads.quiet rfl) ?_
  rintro s₀ _ ⟨⟩
  refine Leads.bind (wantsRequote_leads reacts ticker s) ?_
  rintro (_ | _) s₁ wanted
  · exact Leads.quiet rfl
  · refine (quoteOrCoolDown_leads reacts ticker _ s₁).mono (fun u v step => ⟨?_, step⟩)
    rw [wanted]

variable (venue) in
/-- The loop body is reached for `ticker` in the states of the loop in which its three tests pass. -/
def RequotesOnly (allowed : Ticker → Prop) (s : Desk F X) : Prop :=
  s.riskMgr.isHalted = true ∨
    AtEach (fun ticker s => (wantsRequote venue ticker s).1 = .ok true → allowed ticker)
      (requoteMarket venue) (venue.host.arrange s.outside s.session.obMap.keys) s

theorem requoteIdleMarkets_leads (reacts : Reacts venue view R) {quoted : Ticker → Prop} {s : Desk F X}
    (only : RequotesOnly venue quoted s) :
    Leads view (fun u v => ∃ ticker, quoted ticker ∧ R ticker u v) (requoteIdleMarkets venue) s := by
  unfold requoteIdleMarkets
  refine Leads.bind (Leads.quiet rfl) ?_
  rintro s₀ _ ⟨⟩
  refine Leads.ite (fun _ => Leads.quiet rfl) (fun live => ?_)
  refine Leads.forEach (fun ticker _ s' reached => ?_) (only.resolve_left live)
  refine (requoteMarket_leads reacts ticker s').mono ?_
  exact fun u v ⟨wanted, step⟩ => ⟨ticker, reached wanted, step⟩

end

theorem ledger_reacts : Reacts venue (ledger (F := F) (X := X)) QuoteStep where
  session s session same _ := by
    simp only [ledger, same]
  steady _ := rfl
  update := Quoter.update_leads venue

/-- Adopting a market is seeding it in a session that tracks it. -/
theorem addMarket_eq (snapshot : Orderbook) (s : Desk F X) :
    addMarket venue snapshot s =
      seedOrderbook venue snapshot { s with session := s.session.adopt snapshot.ticker } := rfl

/-- A halt keeps the loop from quoting anything. -/
theorem requoteIdleMarkets_halted {s : Desk F X} (halted : s.riskMgr.isHalted = true) :
    requoteIdleMarkets venue s = (.ok (), s) := by
  simp [requoteIdleMarkets, halted]

/-! ### Fills -/

theorem reportFill_run (fill : Fill F) (s : Desk F X) :
    ∃ emitted, reportFill fill s = (.ok (), { s with emitted }) := by
  refine ⟨(reportFill fill s).2.emitted, ?_⟩
  unfold reportFill
  simp only [bind_apply, get_apply, andThen_ok, emit]
  split <;> split <;> rfl

theorem forgetOrder_ledger (ticker : Ticker) (id : OrderId) (s : Desk F X) :
    ({ s with quoter := s.quoter.forgetOrder ticker id } : Desk F X).ledger =
      { s.ledger with slots := Function.update s.ledger.slots ticker fun side =>
          if (s.ledger.slots ticker side).1 = id then ("", (s.ledger.slots ticker side).2)
          else s.ledger.slots ticker side } := by
  simp only [ledger, Quoter.forgetOrder, Ledger.mk.injEq, true_and, and_true]
  funext t side
  by_cases same : t = ticker
  · subst same
    by_cases filled : (s.quoter.ownQuotes t side).orderId = id <;> simp [filled]
  · simp [Function.update_of_ne same]

theorem settleFill_ledger (fill : Fill F) (s : Desk F X) :
    (settleFill fill s).1 = .ok () ∧ (settleFill fill s).2.ledger =
      { s.ledger.forgetFilled fill.marketTicker fill.orderId with
        riskMgr := s.riskMgr.update s.orderMgr s.session.tickers } := by
  unfold settleFill
  simp only [bind_apply, get_apply, andThen_ok]
  cases gone : s.orderMgr.openOrders.lookup fill.orderId with
  | none =>
    simp only [Option.isNone_none, ↓reduceIte, mapQuoter, mapRisk, modify_apply, bind_apply, andThen_ok]
    obtain ⟨emitted, reported⟩ := reportFill_run fill _
    rw [reported]
    refine ⟨rfl, ?_⟩
    have untracked : s.ledger.order? fill.orderId = none := gone
    rw [forgetFilled, if_pos untracked, ← forgetOrder_ledger]
    rfl
  | some order =>
    simp only [Option.isNone_some, Bool.false_eq_true, ↓reduceIte, mapRisk, modify_apply, bind_apply,
      andThen_ok]
    obtain ⟨emitted, reported⟩ := reportFill_run fill _
    rw [reported]
    refine ⟨rfl, ?_⟩
    have tracked : s.ledger.order? fill.orderId ≠ none := fun none => by cases none.symm.trans gone
    rw [forgetFilled, if_neg tracked]
    rfl

/-- What a fill that reaches the session does to the ledger, and what `on_fill` returns. -/
theorem onFill_cases (fill : Fill F) (s : Desk F X) :
    ((onFill fill s).2.ledger = s.ledger ∧ (onFill fill s).1 ≠ .ok true ∧
      (fill.marketTicker ∉ s.session.tickers ∨ OrderManager.checkFill fill ≠ .ok ())) ∨
    ((onFill fill s).2.ledger = s.ledger.called (.recordFill fill false) ∧ (onFill fill s).1 = .ok false ∧
      OrderManager.fillKey fill ∈ s.orderMgr.seenFills) ∨
    ((onFill fill s).1 = .ok true ∧ OrderManager.checkFill fill = .ok () ∧
      fill.marketTicker ∈ s.session.tickers ∧ OrderManager.fillKey fill ∉ s.orderMgr.seenFills ∧
      (onFill fill s).2.ledger =
        { (s.ledger.recorded fill).forgetFilled fill.marketTicker fill.orderId with
          riskMgr := s.riskMgr.update (s.orderMgr.bookFill fill) s.session.tickers }) := by
  unfold onFill
  simp only [bind_apply, modify_apply, andThen_ok, get_apply]
  -- in the source's order: the market is tracked, record_fill's checks, its duplicate key
  by_cases tracked : fill.marketTicker ∈ s.session.tickers
  · rw [if_pos (by simpa [isTracked] using tracked), bind_apply]
    rcases OrderManager.recordFill_cases fill
      { s with tradeTape := s.tradeTape.map fun tape => tape.recordOwnFill fill.tradeId }
      with ⟨what, h, invalid⟩ | ⟨h, valid⟩
    · rw [h]
      exact .inl ⟨rfl, nofun, .inr invalid⟩
    · rw [h, andThen_ok]
      unfold OrderManager.recorded
      by_cases seen : OrderManager.fillKey fill ∈ s.orderMgr.seenFills
      · simp only [seen, ↓reduceIte, Bool.false_eq_true]
        exact .inr (.inl ⟨rfl, rfl, trivial⟩)
      · simp only [seen, ↓reduceIte, bind_apply, andThen_pure_state]
        obtain ⟨finished, ledger⟩ := settleFill_ledger fill
          ((({ s with tradeTape := s.tradeTape.map fun tape => tape.recordOwnFill fill.tradeId } :
            Desk F X).called (.recordFill fill true) s.outside).withOrders (s.orderMgr.bookFill fill))
        refine .inr (.inr ⟨?_, valid, tracked, not_false, ledger⟩)
        exact andThen_pure_result (fun _ => true) finished
  · rw [if_neg (by simpa [isTracked] using tracked)]
    exact .inl ⟨rfl, nofun, .inl tracked⟩

theorem onFill_tracked {fill : Fill F} {s : Desk F X} (tracked : fill.marketTicker ∈ s.session.tickers)
    (valid : OrderManager.checkFill fill = .ok ()) (new : OrderManager.fillKey fill ∉ s.orderMgr.seenFills) :
    (onFill fill s).1 = .ok true ∧ (onFill fill s).2.orderMgr = s.orderMgr.bookFill fill ∧
      (onFill fill s).2.session.tickers = s.session.tickers := by
  rcases onFill_cases fill s with ⟨_, _, untracked | invalid⟩ | ⟨_, _, seen⟩ | ⟨finished, _, _, _, filled⟩
  · exact absurd tracked untracked
  · exact absurd valid invalid
  · exact absurd seen new
  · refine ⟨finished, ?_, ?_⟩
    · have orders := congrArg Ledger.orderMgr filled
      dsimp only at orders
      rw [forgetFilled_orderMgr] at orders
      exact orders
    · have tickers := congrArg Ledger.tickers filled
      dsimp only at tickers
      rw [forgetFilled_tickers] at tickers
      exact tickers

/-- A fill of a market that is not tracked is passed over. -/
theorem onFill_untracked {fill : Fill F} {s : Desk F X} (untracked : fill.marketTicker ∉ s.session.tickers) :
    onFill fill s =
      (.ok false, { s with tradeTape := s.tradeTape.map fun tape => tape.recordOwnFill fill.tradeId }) := by
  simp [onFill, isTracked, untracked]

/-- Only a fill of a tracked market that fails its checks ends the process. -/
theorem onFill_aborts_iff (fill : Fill F) (s : Desk F X) :
    (∃ what, (onFill fill s).1 = .error (.abort what)) ↔
      fill.marketTicker ∈ s.session.tickers ∧ OrderManager.checkFill fill ≠ .ok () := by
  constructor
  · rintro ⟨what, aborted⟩
    rcases onFill_cases fill s with ⟨_, _, excused⟩ | ⟨_, passed, _⟩ | ⟨passed, _⟩
    · by_cases tracked : fill.marketTicker ∈ s.session.tickers
      · exact ⟨tracked, excused.resolve_left fun untracked => untracked tracked⟩
      · rw [onFill_untracked tracked] at aborted
        cases aborted
    · rw [passed] at aborted
      cases aborted
    · rw [passed] at aborted
      cases aborted
  · rintro ⟨tracked, invalid⟩
    unfold onFill
    simp only [bind_apply, modify_apply, andThen_ok, get_apply]
    rw [if_pos (by simpa [isTracked] using tracked), bind_apply]
    rcases OrderManager.recordFill_cases fill
      { s with tradeTape := s.tradeTape.map fun tape => tape.recordOwnFill fill.tradeId }
      with ⟨what, aborted, _⟩ | ⟨_, valid⟩
    · rw [aborted]
      exact ⟨what, rfl⟩
    · exact absurd valid invalid

/-- A sound fill of a tracked market is on file afterwards, and nothing else becomes so. -/
theorem onFill_files {fill : Fill F} {s : Desk F X} (valid : OrderManager.checkFill fill = .ok ())
    (tracked : fill.marketTicker ∈ s.session.tickers) :
    (∃ new, (onFill fill s).1 = .ok new) ∧
      ∀ key, key ∈ (onFill fill s).2.orderMgr.seenFills ↔
        key = OrderManager.fillKey fill ∨ key ∈ s.orderMgr.seenFills := by
  rcases onFill_cases fill s with ⟨_, _, excused⟩ | ⟨refilled, done, seen⟩ | ⟨done, _, _, _, filled⟩
  · exact absurd valid (excused.resolve_left fun untracked => untracked tracked)
  · refine ⟨⟨false, done⟩, fun key => ?_⟩
    have orders : (onFill fill s).2.orderMgr = s.orderMgr := congrArg Ledger.orderMgr refilled
    rw [orders]
    refine ⟨.inr, fun filed => ?_⟩
    rcases filed with rfl | before
    · exact seen
    · exact before
  · refine ⟨⟨true, done⟩, fun key => ?_⟩
    have orders := congrArg Ledger.orderMgr filled
    dsimp only at orders
    rw [forgetFilled_orderMgr] at orders
    change (onFill fill s).2.orderMgr = s.orderMgr.bookFill fill at orders
    rw [orders, OrderManager.bookFill_seenFills, List.mem_cons]

/-- A view of nothing that booking and reporting a fill changes. -/
structure BookingBlind {υ : Type} (view : Desk F X → υ) : Prop where
  books : ∀ s orderMgr calls, view { s with orderMgr, calls } = view s
  emitted : ∀ s emitted, view { s with emitted } = view s

namespace BookingBlind

variable {υ : Type} {view : Desk F X → υ} (blind : BookingBlind view)

include blind

theorem recordFill (fill : Fill F) (s : Desk F X) : view (OrderManager.recordFill fill s).2 = view s := by
  rcases OrderManager.recordFill_cases fill s with ⟨what, aborted, _⟩ | ⟨recorded, _⟩
  · rw [aborted]
  · rw [recorded]
    exact blind.books s _ _

theorem reportFill (fill : Fill F) (s : Desk F X) : view (reportFill fill s).2 = view s := by
  obtain ⟨emitted, reported⟩ := reportFill_run fill s
  rw [reported]
  exact blind.emitted s emitted

theorem recordFlatten (order : Order) (s : Desk F X) : view (recordFlatten order s).2 = view s := by
  refine Leads.unmoved (?_ : Leads view (fun _ _ => False) (TradingSession.recordFlatten order) s)
  unfold TradingSession.recordFlatten
  refine Leads.ite (fun _ => ?_) (fun _ => Leads.quiet rfl)
  exact Leads.bind (Leads.quiet (blind.recordFill _ s)) fun _ s₁ _ => Leads.quiet (blind.reportFill _ s₁)

end BookingBlind

/-- A view of nothing that the recording of a fill changes. -/
structure FillBlind {υ : Type} (view : Desk F X → υ) : Prop where
  books : ∀ s orderMgr calls, view { s with orderMgr, calls } = view s
  slots : ∀ s ownQuotes, view { s with quoter := { s.quoter with ownQuotes } } = view s
  risk : ∀ s riskMgr, view { s with riskMgr } = view s
  flow : ∀ s flowGuard, view { s with flowGuard } = view s
  tape : ∀ s tradeTape, view { s with tradeTape } = view s
  emitted : ∀ s emitted, view { s with emitted } = view s

namespace FillBlind

variable {υ : Type} {view : Desk F X → υ} (blind : FillBlind view)

include blind

theorem booking : BookingBlind view := ⟨blind.books, blind.emitted⟩

theorem settleFill (fill : Fill F) (s : Desk F X) : Leads view (fun _ _ => False) (settleFill fill) s := by
  unfold TradingSession.settleFill
  refine Leads.bind (Leads.quiet rfl) (fun s₀ s₁ _ => ?_)
  -- whether or not the order is forgotten first
  have settles : ∀ s : Desk F X, Leads view (fun _ _ => False) (do
      mapRisk fun risk => risk.update s₀.orderMgr s₀.session.tickers
      Eff.modify fun s =>
        { s with flowGuard := s.flowGuard.map fun guard =>
            guard.recordFill fill.marketTicker fill.side fill.quantity fill.timestamp }
      TradingSession.reportFill fill : Eff (Desk F X) String Unit) s := by
    intro s
    refine Leads.bind (Leads.quiet (blind.risk s _)) (fun _ s₂ _ => ?_)
    exact Leads.bind (Leads.quiet (blind.flow s₂ _)) fun _ s₃ _ => Leads.quiet (blind.booking.reportFill fill s₃)
  refine Leads.ite (fun _ => ?_) (fun _ => settles s₁)
  exact Leads.bind (Leads.quiet (blind.slots s₁ _)) fun _ s₂ _ => settles s₂

theorem onFill (fill : Fill F) (s : Desk F X) : view (onFill fill s).2 = view s := by
  refine Leads.unmoved (?_ : Leads view (fun _ _ => False) (TradingSession.onFill fill) s)
  unfold TradingSession.onFill
  refine Leads.bind (Leads.quiet (blind.tape s _)) (fun _ s₁ _ => ?_)
  refine Leads.bind (Leads.quiet rfl) (fun s₀ s₂ _ => ?_)
  refine Leads.ite (fun _ => ?_) (fun _ => Leads.quiet rfl)
  refine Leads.bind (Leads.quiet (blind.booking.recordFill fill s₂)) (fun new s₃ _ => ?_)
  refine Leads.ite (fun _ => ?_) (fun _ => Leads.quiet rfl)
  exact Leads.bind (blind.settleFill fill s₃) fun _ s₄ _ => Leads.quiet rfl

end FillBlind

theorem setting_blind : FillBlind (Desk.setting (F := F) (X := X)) where
  books _ _ _ := rfl
  emitted _ _ := rfl
  slots _ _ := rfl
  risk _ _ := rfl
  flow _ _ := rfl
  tape _ _ := rfl

theorem onFill_setting (fill : Fill F) (s : Desk F X) : (onFill fill s).2.setting = s.setting :=
  setting_blind.onFill fill s

theorem onFill_market (fill : Fill F) (s : Desk F X) : (onFill fill s).2.market = s.market :=
  congrArg Prod.fst (onFill_setting fill s)

theorem onFill_outside (fill : Fill F) (s : Desk F X) : (onFill fill s).2.outside = s.outside :=
  congrArg Prod.fst (onFill_market fill s)

theorem onFill_leads (fill : Fill F) (s : Desk F X) :
    Leads ledger (Does fun action => action = .fill fill ∨ action = .raise) (onFill fill) s := by
  unfold Leads
  rcases onFill_cases fill s with ⟨same, _⟩ | ⟨refilled, _⟩ | ⟨_, valid, tracked, fresh, filled⟩
  · rw [same]
  · rw [refilled]
    exact .single ⟨.fill fill, .inl rfl, .refill⟩
  · rw [filled]
    refine .tail (.single ⟨.fill fill, .inl rfl, .fill valid tracked fresh⟩) ⟨.raise, .inr rfl, ?_⟩
    refine .raise ?_
    rw [forgetFilled_riskMgr]
    exact s.riskMgr.update_raises _ _

/-- Recording a flatten that filled: its fill is booked if it passes the checks of a fill, and ends the process if it
does not. -/
theorem recordFlatten_run {order : Order} (filled : order.filledQuantity.isPositive = true) (s : Desk F X) :
    (OrderManager.checkFill (flattenFill (F := F) order) ≠ .ok () ∧
      ∃ what, recordFlatten order s = (.error (.abort what), s)) ∨
    OrderManager.checkFill (flattenFill (F := F) order) = .ok () ∧ ∃ calls emitted, recordFlatten order s =
      (.ok (), { s.withOrders (s.orderMgr.recorded (flattenFill order)).2 with calls, emitted }) := by
  unfold recordFlatten
  rw [if_pos filled, bind_apply]
  rcases OrderManager.recordFill_cases (flattenFill order) s with ⟨what, aborted, invalid⟩ | ⟨recorded, valid⟩
  · rw [aborted]
    exact .inl ⟨invalid, what, rfl⟩
  · rw [recorded, andThen_ok]
    obtain ⟨emitted, reported⟩ := reportFill_run (flattenFill order)
      ((s.called (.recordFill (flattenFill order) (s.orderMgr.recorded (flattenFill order)).1) s.outside).withOrders
        (s.orderMgr.recorded (flattenFill order)).2)
    rw [reported]
    exact .inr ⟨valid, _, emitted, rfl⟩

theorem recordFlatten_leads (order : Order) (s : Desk F X) :
    Leads ledger (Does fun action => action = .flatten (flattenFill order)) (recordFlatten order) s := by
  unfold recordFlatten
  refine Leads.ite (fun _ => Leads.bind ?_ fun _ s₁ _ => ?_) (fun _ => Leads.quiet rfl)
  · unfold Leads
    rcases OrderManager.recordFill_cases (flattenFill order) s with ⟨what, h, _⟩ | ⟨h, valid⟩
    · rw [h]
    · rw [h]
      unfold OrderManager.recorded
      by_cases seen : OrderManager.fillKey (flattenFill (F := F) order) ∈ s.orderMgr.seenFills
      · simp only [seen, ↓reduceIte]
        exact .single ⟨_, rfl, .reflatten⟩
      · simp only [seen, ↓reduceIte]
        exact .single ⟨_, rfl, .flatten valid seen⟩
  · obtain ⟨emitted, reported⟩ := reportFill_run (flattenFill order) s₁
    exact Leads.quiet (by rw [reported]; rfl)

/-! ### Sweeps, rotation and risk -/

theorem cancelAllQuotes_leads (s : Desk F X) :
    Leads ledger (Does fun action => action = .sweepAll) (cancelAllQuotes venue) s := by
  unfold Leads
  obtain ⟨cancels, x, ran, sent⟩ := cancelAllQuotes_run venue s
  rw [ran]
  exact .single ⟨_, rfl, .sweepAll sent⟩

theorem forgetTicker_ledger (ticker : Ticker) (s : Desk F X) :
    ({ s with quoter := s.quoter.forgetTicker ticker } : Desk F X).ledger =
      { s.ledger with slots := Function.update s.ledger.slots ticker fun _ => vacant } := by
  simp only [ledger, Quoter.forgetTicker, Ledger.mk.injEq, true_and, and_true]
  funext t side
  by_cases same : t = ticker
  · subst same
    simp [vacant]
  · simp [Function.update_of_ne same]

/-- Forgetting a market or an order empties slots and fills none. -/
theorem forgetTicker_cleared (ticker : Ticker) (slots : Ticker → Side → OrderId × Int) (t : Ticker) (side : Side) :
    Function.update slots ticker (fun _ => vacant) t side = slots t side ∨
      (Function.update slots ticker (fun _ => vacant) t side).1 = "" := by
  by_cases same : t = ticker
  · simp [same, vacant]
  · simp [Function.update_of_ne same]

theorem forgetOrder_cleared (ticker : Ticker) (id : OrderId) (slots : Ticker → Side → OrderId × Int) (t : Ticker)
    (side : Side) :
    Function.update slots ticker
        (fun side => if (slots ticker side).1 = id then ("", (slots ticker side).2) else slots ticker side) t side =
      slots t side ∨
    (Function.update slots ticker
      (fun side => if (slots ticker side).1 = id then ("", (slots ticker side).2) else slots ticker side) t side).1 =
        "" := by
  by_cases same : t = ticker
  · subst same
    simp only [Function.update_self]
    split <;> simp
  · simp [Function.update_of_ne same]

theorem checkFeed_leads (ticker : Ticker) (s : Desk F X) :
    Leads ledger (Does fun action => action = .sweep ticker) (checkFeed venue ticker) s := by
  unfold checkFeed
  refine Leads.bind (feedConfirmed_leads (ledger_reacts venue) ticker s) (fun confirmed s₁ _ => ?_)
  refine Leads.bind (Leads.quiet rfl) ?_
  rintro s₀ _ ⟨⟩
  refine Leads.ite (fun _ => Leads.quiet rfl) (fun _ => Leads.bind (Leads.quiet rfl) (fun _ s₂ _ => ?_))
  unfold Leads
  obtain ⟨cancels, x, ran, sent⟩ := cancelAllGuarded_run venue ticker s₂
  rw [bind_apply, ran, andThen_ok, mapQuoter, modify_apply, forgetTicker_ledger]
  exact .single ⟨_, rfl, .sweep sent⟩

theorem checkFeeds_leads (tickers : List Ticker) (s : Desk F X) :
    Leads ledger (Does fun action => ∃ ticker, action = .sweep ticker)
      (Eff.forEach tickers (checkFeed venue)) s := by
  refine Leads.forEach (P := fun _ _ => True) (fun ticker _ s' _ => ?_) (AtEach.of_forall fun _ _ _ => trivial)
  exact (checkFeed_leads venue ticker s').mono fun _ _ => Does.mono fun _ same => ⟨ticker, same⟩

theorem enforceQuoteSafety_leads (s : Desk F X) :
    Leads ledger (Does fun action => action = .sweepAll ∨ ∃ ticker, action = .sweep ticker)
      (enforceQuoteSafety venue) s := by
  unfold enforceQuoteSafety
  refine Leads.bind (Leads.quiet rfl) ?_
  rintro s₀ _ ⟨⟩
  refine Leads.ite (fun _ => ?_) (fun _ => ?_)
  · exact (cancelAllQuotes_leads venue s).mono fun _ _ => Does.mono fun _ => .inl
  · exact (checkFeeds_leads venue _ s).mono fun _ _ => Does.mono fun _ => .inr

theorem cancelPreexistingOrders_leads (orders : List Order) (s : Desk F X) :
    Leads ledger (Does fun action => ∃ order ∈ orders, action = .cancel order.id)
      (cancelPreexistingOrders venue orders) s := by
  unfold cancelPreexistingOrders
  refine Leads.forEach (P := fun _ _ => True) (fun id member s' _ => ?_) (AtEach.of_forall fun _ _ _ => trivial)
  obtain ⟨order, among, rfl⟩ := List.mem_map.mp member
  obtain ⟨success, x, ran⟩ := OrderManager.cancelBestEffort_run venue order.id s'
  unfold Leads
  rw [ran]
  exact .single ⟨_, ⟨order, among, rfl⟩, .cancel⟩

theorem addMarket_leads (snapshot : Orderbook) (s : Desk F X) :
    Leads ledger (Does fun action => action = .track snapshot.ticker ∨ action = .quote snapshot.ticker)
      (addMarket venue snapshot) s := by
  unfold addMarket
  refine Leads.bind ?_ (fun _ s₁ _ => ?_)
  · by_cases tracked : snapshot.ticker ∈ s.session.tickers
    · exact Leads.quiet (by simp [mapSession, adopt, isTracked, tracked])
    · refine Leads.single ⟨_, .inl rfl, ?_⟩
      simp only [mapSession, modify_apply, adopt, isTracked, tracked, decide_false, Bool.false_eq_true,
        ↓reduceIte]
      exact .track tracked
  · exact (seedOrderbook_leads (ledger_reacts venue) snapshot s₁).mono fun _ _ step => ⟨_, .inr rfl, .quote step⟩

/-- Dropping a market needs it tracked, flat and without resting orders. -/
theorem removeMarketIfIdle_leads (ticker : Ticker) (s : Desk F X) :
    Leads ledger (Does fun action => action = .untrack ticker) (removeMarketIfIdle ticker) s := by
  unfold removeMarketIfIdle
  refine Leads.bind (Leads.quiet rfl) ?_
  rintro s₀ _ ⟨⟩
  refine Leads.ite (fun idle => ?_) (fun _ => Leads.quiet rfl)
  simp only [removable, isTracked, Bool.and_eq_true, decide_eq_true_eq, List.isEmpty_iff] at idle
  exact Leads.single ⟨_, rfl, .untrack idle.1.1 idle.1.2 idle.2⟩

theorem feedPortfolio_leads (snapshot : PortfolioSnapshot F) (s : Desk F X) :
    Leads ledger (Does fun action => action = .raise) (feedPortfolio snapshot) s := by
  unfold feedPortfolio
  refine Leads.bind (Leads.quiet rfl) ?_
  rintro s₀ _ ⟨⟩
  refine Leads.bind (Leads.single ⟨_, rfl, ?_⟩) (fun _ s₁ _ => ?_)
  · exact .raise (s.riskMgr.updatePortfolio_raises snapshot)
  · cases (s.riskMgr.updatePortfolio snapshot).1 <;> exact Leads.quiet rfl

end TradingSession

/-! ### Events -/

def Event.permits : Event F → Action F → Prop
  | .snapshot _, _ | .trade _, _ | .setReduceOnly _, _ => False
  | .delta ticker _ _ _, action => action = .quote ticker
  | .fill newFill, action => action = .fill newFill ∨ action = .raise
  | .disconnect, action | .cancelAllQuotes, action => action = .sweepAll
  | .addMarket seed, action => action = .track seed.ticker ∨ action = .quote seed.ticker
  | .removeMarketIfIdle ticker, action => action = .untrack ticker
  | .requoteIdleMarkets, action => ∃ ticker, action = .quote ticker
  | .enforceQuoteSafety, action => action = .sweepAll ∨ ∃ ticker, action = .sweep ticker
  | .seedOrderbook seed, action => action = .quote seed.ticker
  | .cancelPreexistingOrders orders, action => ∃ order ∈ orders, action = .cancel order.id
  | .recordFlatten order, action => action = .flatten (TradingSession.flattenFill order)
  | .resetQuotes, action | .forgetTicker _, action | .forgetOrder _ _, action => action = .forget
  | .runPortfolioRisk, action | .riskUpdate _, action | .updatePortfolio _, action
  | .setConstraint _, action | .halt, action => action = .raise
  | .clearConstraint bit, action => action = .clear bit
  | .resume, action => action = .resume

open TradingSession

variable (venue : Venue X)

/-- The quoting branches an event can take are those of allowed markets. -/
def Event.QuotesOnly (allowed : Ticker → Prop) (s : Desk F X) : Event F → Prop
  | .delta ticker _ _ _ => ticker ∈ s.session.tickers → allowed ticker
  | .addMarket seed | .seedOrderbook seed => allowed seed.ticker
  | .requoteIdleMarkets => RequotesOnly venue allowed s
  | _ => True

theorem handle_quotes {allowed : Ticker → Prop} {event : Event F} {s : Desk F X}
    (only : event.QuotesOnly venue allowed s) :
    Leads ledger (Does fun action => event.permits action ∧ ∀ ticker, action = .quote ticker → allowed ticker)
      (handle venue event) s := by
  have quoteless : ∀ {action : Action F}, event.permits action → (∀ ticker, action ≠ .quote ticker) →
      event.permits action ∧ ∀ ticker, action = .quote ticker → allowed ticker :=
    fun permitted other => ⟨permitted, fun ticker quote => absurd quote (other ticker)⟩
  have quoting : ∀ {ticker : Ticker}, event.permits (.quote ticker) → allowed ticker →
      event.permits (.quote ticker) ∧ ∀ other, Action.quote (F := F) ticker = .quote other → allowed other := by
    intro ticker permitted here
    refine ⟨permitted, ?_⟩
    rintro _ ⟨⟩
    exact here
  -- every event by the lemma of its handler; only those that quote need the markets they may quote
  cases event with
  | snapshot snapshot => exact markTicked_leads (ledger_reacts venue) _ _ s
  | delta ticker side priceCents qty =>
    refine (onDelta_leads (ledger_reacts venue) ticker side priceCents qty s).mono ?_
    exact fun _ _ ⟨tracked, step⟩ => ⟨_, quoting rfl (only tracked), .quote step⟩
  | fill fill =>
    refine Leads.bind ((onFill_leads fill s).mono fun _ _ => Does.mono ?_) fun _ s' _ => Leads.quiet rfl
    rintro _ (rfl | rfl)
    · exact quoteless (.inl rfl) nofun
    · exact quoteless (.inr rfl) nofun
  | trade trade => exact Leads.quiet rfl
  | disconnect | cancelAllQuotes =>
    refine (cancelAllQuotes_leads venue s).mono fun _ _ => Does.mono ?_
    rintro _ rfl
    exact quoteless rfl nofun
  | addMarket snapshot =>
    refine (addMarket_leads venue snapshot s).mono fun _ _ => Does.mono ?_
    rintro _ (rfl | rfl)
    · exact quoteless (.inl rfl) nofun
    · exact quoting (.inr rfl) only
  | removeMarketIfIdle ticker =>
    refine Leads.bind ((removeMarketIfIdle_leads ticker s).mono fun _ _ => Does.mono ?_) fun _ s' _ =>
      Leads.quiet rfl
    rintro _ rfl
    exact quoteless rfl nofun
  | requoteIdleMarkets =>
    refine (requoteIdleMarkets_leads (ledger_reacts venue) only).mono ?_
    exact fun _ _ ⟨ticker, here, step⟩ => ⟨_, quoting ⟨ticker, rfl⟩ here, .quote step⟩
  | enforceQuoteSafety =>
    refine (enforceQuoteSafety_leads venue s).mono fun _ _ => Does.mono ?_
    rintro _ (rfl | ⟨ticker, rfl⟩)
    · exact quoteless (.inl rfl) nofun
    · exact quoteless (.inr ⟨ticker, rfl⟩) nofun
  | runPortfolioRisk =>
    refine Leads.bind (Leads.quiet rfl) fun _ s' _ => (feedPortfolio_leads _ s').mono fun _ _ => Does.mono ?_
    rintro _ rfl
    exact quoteless rfl nofun
  | seedOrderbook snapshot =>
    exact (seedOrderbook_leads (ledger_reacts venue) snapshot s).mono fun _ _ step =>
      ⟨_, quoting rfl only, .quote step⟩
  | cancelPreexistingOrders orders =>
    refine (cancelPreexistingOrders_leads venue orders s).mono fun _ _ => Does.mono ?_
    rintro _ ⟨order, among, rfl⟩
    exact quoteless ⟨order, among, rfl⟩ nofun
  | recordFlatten order =>
    refine (recordFlatten_leads order s).mono fun _ _ => Does.mono ?_
    rintro _ rfl
    exact quoteless rfl nofun
  | setReduceOnly reduceOnly => exact Leads.quiet rfl
  | resetQuotes => exact Leads.single ⟨_, quoteless rfl nofun, .forget fun _ _ => .inr rfl⟩
  | forgetTicker ticker =>
    refine Leads.single ⟨_, quoteless rfl nofun, ?_⟩
    change Step s.ledger .forget ({ s with quoter := s.quoter.forgetTicker ticker } : Desk F X).ledger
    rw [forgetTicker_ledger]
    exact .forget (forgetTicker_cleared ticker s.ledger.slots)
  | forgetOrder ticker orderId =>
    refine Leads.single ⟨_, quoteless rfl nofun, ?_⟩
    change Step s.ledger .forget ({ s with quoter := s.quoter.forgetOrder ticker orderId } : Desk F X).ledger
    rw [forgetOrder_ledger]
    exact .forget (forgetOrder_cleared ticker orderId s.ledger.slots)
  | riskUpdate tickers =>
    exact Leads.single ⟨_, quoteless rfl nofun, .raise (s.riskMgr.update_raises _ _)⟩
  | updatePortfolio snapshot =>
    refine (feedPortfolio_leads snapshot s).mono fun _ _ => Does.mono ?_
    rintro _ rfl
    exact quoteless rfl nofun
  | setConstraint bit => exact Leads.single ⟨_, quoteless rfl nofun, .raise (s.riskMgr.set_raises bit)⟩
  | clearConstraint bit => exact Leads.single ⟨_, quoteless rfl nofun, .clear⟩
  | halt => exact Leads.single ⟨_, quoteless rfl nofun, .raise (s.riskMgr.set_raises .kManualHalt)⟩
  | resume => exact Leads.single ⟨_, quoteless rfl nofun, .resume⟩

theorem handle_leads (event : Event F) (s : Desk F X) :
    Leads ledger (Does event.permits) (handle venue event) s := by
  have any : event.QuotesOnly venue (fun _ => True) s := by
    cases event with
    | requoteIdleMarkets => exact .inr (AtEach.of_forall fun _ _ _ _ => trivial)
    | delta _ _ _ _ => exact fun _ => trivial
    | _ => trivial
  exact (handle_quotes venue any).mono fun _ _ => Does.mono fun _ => And.left

theorem dispatch_dead {p : Process F X} (dead : p.alive = false) (event : Event F) : p.dispatch venue event = p := by
  unfold Process.dispatch
  rw [dead]
  rfl

/-- A live process handles the event, and sweeps if that ended it. -/
theorem dispatch_alive {p : Process F X} (alive : p.alive = true) (event : Event F) :
    p.dispatch venue event = { desk := (handle venue event p.desk).2 } ∨
    (∃ what, (handle venue event p.desk).1 = .error (.abort what)) ∧
      p.dispatch venue event =
        { desk := (cancelAllQuotes venue (handle venue event p.desk).2).2, alive := false } := by
  unfold Process.dispatch
  rw [alive, if_pos rfl]
  cases handle venue event p.desk with
  | mk r desk =>
    rcases r with (_ | _) | _
    · exact .inl rfl
    · exact .inr ⟨⟨_, rfl⟩, rfl⟩
    · exact .inl rfl

theorem dispatch_cases (p : Process F X) (event : Event F) :
    p.dispatch venue event = p ∨
    (p.alive = true ∧ p.dispatch venue event = { desk := (handle venue event p.desk).2 }) ∨
    (p.alive = true ∧ (∃ what, (handle venue event p.desk).1 = .error (.abort what)) ∧
      p.dispatch venue event =
        { desk := (cancelAllQuotes venue (handle venue event p.desk).2).2, alive := false }) := by
  cases alive : p.alive with
  | false => exact .inl (dispatch_dead venue alive event)
  | true => exact .inr ((dispatch_alive venue alive event).imp (⟨rfl, ·⟩) (⟨rfl, ·⟩))

/-- Every event moves the ledger by steps it permits, and by a last sweep where it ends the
process. -/
theorem dispatch_leads (p : Process F X) (event : Event F) :
    ReflTransGen (Does fun action => event.permits action ∨ action = .sweepAll) p.desk.ledger
      (p.dispatch venue event).desk.ledger := by
  have handled : ReflTransGen (Does fun action => event.permits action ∨ action = .sweepAll)
      p.desk.ledger (handle venue event p.desk).2.ledger :=
    (handle_leads venue event p.desk).mono fun _ _ => Does.mono fun _ => .inl
  rcases dispatch_cases venue p event with same | ⟨_, done⟩ | ⟨_, _, ended⟩
  · rw [same]
  · rw [done]
    exact handled
  · rw [ended]
    refine handled.trans ?_
    exact (cancelAllQuotes_leads venue _).mono fun _ _ => Does.mono fun _ => .inr

end Kalshi
