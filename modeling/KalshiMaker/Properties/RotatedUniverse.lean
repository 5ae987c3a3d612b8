import KalshiMaker.App.RotateMarkets
import KalshiMaker.Engine.Steps
import KalshiMaker.Net.ScriptedHost
import KalshiMaker.Properties.BookSync

/-! A rotation trades what the scan picked and what it still holds, and nothing else. -/
namespace Kalshi

open Effect Eff Relation Desk TradingSession

variable {F X : Type} [Floating F]

/-- A position or a resting order keeps a market. -/
def Desk.Busy (s : Desk F X) (ticker : Ticker) : Prop :=
  ¬ ((s.orderMgr.netPosition ticker).isZero = true ∧ s.orderMgr.openOn ticker = [])

instance (s : Desk F X) (ticker : Ticker) : Decidable (s.Busy ticker) := inferInstanceAs (Decidable (¬ _))

/-! ### The first section -/

theorem removable_iff (s : Desk F X) (ticker : Ticker) :
    removable s ticker = true ↔ ticker ∈ s.session.tickers ∧ ¬ s.Busy ticker := by
  unfold removable isTracked Desk.Busy
  simp [and_assoc]

theorem removeMarketIfIdle_run (ticker : Ticker) (s : Desk F X) :
    ∃ session, removeMarketIfIdle ticker s = (.ok (removable s ticker), { s with session }) ∧
      session.tickers = s.session.tickers.filter fun other =>
        !(decide (other = ticker) && decide (¬ s.Busy ticker)) := by
  unfold removeMarketIfIdle
  rw [bind_apply, get_apply, andThen_ok]
  cases idle : removable s ticker with
  | true =>
    refine ⟨s.session.dropMarket ticker, rfl, ?_⟩
    have still := ((removable_iff s ticker).mp idle).2
    unfold dropMarket
    refine List.filter_congr fun other _ => ?_
    simp only [still, not_false_eq_true, decide_true, Bool.and_true]
    by_cases same : other = ticker <;> simp [same]
  | false =>
    refine ⟨s.session, rfl, ?_⟩
    rw [List.filter_eq_self.mpr]
    intro other tracked
    by_contra dropped
    simp only [Bool.not_eq_true, Bool.not_eq_false', Bool.and_eq_true, decide_eq_true_eq] at dropped
    obtain ⟨rfl, still⟩ := dropped
    rw [(removable_iff s other).mpr ⟨tracked, still⟩] at idle
    cases idle

theorem dropEach_run (picks tickers : List Ticker) (s : Desk F X) :
    ∃ session, forEach tickers (fun ticker =>
        if ticker ∈ picks then pure () else do let _ ← removeMarketIfIdle ticker) s = (.ok (), { s with session }) ∧
      session.tickers = s.session.tickers.filter fun other =>
        !(decide (other ∈ tickers ∧ other ∉ picks) && decide (¬ s.Busy other)) := by
  induction tickers generalizing s with
  | nil => exact ⟨s.session, rfl, by simp⟩
  | cons ticker tickers ih =>
    by_cases picked : ticker ∈ picks
    · obtain ⟨session, ran, kept⟩ := ih s
      refine ⟨session, ?_, ?_⟩
      · rw [forEach, if_pos picked, bind_apply, pure_apply, andThen_ok]
        exact ran
      · rw [kept]
        refine List.filter_congr fun other _ => ?_
        by_cases same : other = ticker
        · subst same
          simp [picked]
        · simp [same]
    · obtain ⟨dropped, removed, fewer⟩ := removeMarketIfIdle_run ticker s
      obtain ⟨session, ran, kept⟩ := ih { s with session := dropped }
      refine ⟨session, ?_, ?_⟩
      · rw [forEach, if_neg picked, bind_apply, bind_apply, removed, andThen_ok, pure_apply, andThen_ok]
        exact ran
      · -- what is held does not depend on the markets dropped before
        have busy : ∀ other, Desk.Busy { s with session := dropped } other ↔ s.Busy other := fun _ => Iff.rfl
        rw [kept]
        simp only [busy, fewer, List.filter_filter]
        refine List.filter_congr fun other _ => ?_
        by_cases same : other = ticker
        · subst same
          by_cases held : s.Busy other <;> simp [picked, held]
        · simp [same]

theorem dropStale_run (picks : List Ticker) (s : Desk F X) :
    ∃ session, dropStale picks s = (.ok (), { s with session }) ∧
      session.tickers = s.session.tickers.filter fun ticker => decide (ticker ∈ picks ∨ s.Busy ticker) := by
  obtain ⟨session, ran, kept⟩ := dropEach_run picks s.session.tickers s
  refine ⟨session, ?_, ?_⟩
  · unfold dropStale
    rw [bind_apply, get_apply, andThen_ok]
    exact ran
  · rw [kept]
    refine List.filter_congr fun ticker tracked => ?_
    by_cases picked : ticker ∈ picks <;> by_cases busy : s.Busy ticker <;> simp [tracked, picked, busy]

/-! ### What the feed does meanwhile -/

/-- The rotation alone tracks markets and gives them up. -/
def Event.keepsUniverse : Event F → Bool
  | .addMarket _ | .removeMarketIfIdle _ => false
  | _ => true

theorem Ledger.step_tickers {L L' : Ledger F} {action : Action F} (step : Ledger.Step L action L')
    (tracks : ∀ ticker, action ≠ .track ticker) (untracks : ∀ ticker, action ≠ .untrack ticker) :
    L'.tickers = L.tickers := by
  cases step with
  | quote step => exact Ledger.quoteStep_tickers step
  | fill _ _ _ => exact Ledger.forgetFilled_tickers _ _ _
  | track _ => exact absurd rfl (tracks _)
  | untrack _ _ _ => exact absurd rfl (untracks _)
  | refill | flatten _ _ | reflatten | sweepAll _ | sweep _ | cancel | raise _ | clear | resume | forget _ => rfl

variable (venue : Venue X)

theorem dispatch_universe {event : Event F} (keeps : event.keepsUniverse = true) (p : Process F X) :
    (p.dispatch venue event).desk.session.tickers = p.desk.session.tickers := by
  refine chain_invariant (fun L : Ledger F => L.tickers = p.desk.session.tickers) ?_ (dispatch_leads venue p event) rfl
  rintro L L' ⟨action, permitted, step⟩ same
  rw [Ledger.step_tickers step, same]
  · rintro ticker rfl
    cases event <;> simp_all [Event.permits, Event.keepsUniverse]
  · rintro ticker rfl
    cases event <;> simp_all [Event.permits, Event.keepsUniverse]

theorem run_universe {events : List (Event F)} (keep : ∀ event ∈ events, event.keepsUniverse = true)
    (p : Process F X) :
    (p.run venue events).desk.session.tickers = p.desk.session.tickers := by
  induction events generalizing p with
  | nil => rfl
  | cons event events ih =>
    rw [Process.run_cons, ih (fun later member => keep later (List.mem_cons_of_mem _ member)),
      dispatch_universe venue (keep event List.mem_cons_self)]

theorem dispatch_was_alive {p : Process F X} {event : Event F} (alive : (p.dispatch venue event).alive = true) :
    p.alive = true := by
  by_contra dead
  rw [dispatch_dead venue (Bool.not_eq_true _ ▸ dead)] at alive
  exact dead alive

theorem run_was_alive {p : Process F X} {events : List (Event F)} (alive : (p.run venue events).alive = true) :
    p.alive = true := by
  induction events generalizing p with
  | nil => exact alive
  | cons event events ih => exact dispatch_was_alive venue (ih alive)

/-- Adding a market that is not tracked lists it behind the others. -/
theorem dispatch_addMarket {p : Process F X} {snapshot : Orderbook}
    (alive : (p.dispatch venue (.addMarket snapshot)).alive = true) :
    (p.dispatch venue (.addMarket snapshot)).desk.session.tickers =
      (p.desk.session.adopt snapshot.ticker).tickers := by
  rcases dispatch_alive venue (dispatch_was_alive venue alive) (.addMarket snapshot) with done | ⟨_, ended⟩
  · rw [done]
    exact Rotation.addMarket_tickers venue snapshot p.desk
  · rw [ended] at alive
    cases alive

/-! ### The adoptions -/

theorem mem_subscribe (client : WebSocketClient) (ticker : Ticker) :
    ticker ∈ (client.subscribe ticker).subscribedTickers ∧
      client.subscribedTickers ⊆ (client.subscribe ticker).subscribedTickers := by
  unfold WebSocketClient.subscribe
  split
  next listed => exact ⟨listed, fun _ => id⟩
  next =>
    split
    · exact ⟨List.mem_append_right _ (List.mem_singleton_self ticker), List.subset_append_left _ _⟩
    · exact ⟨List.mem_append_right _ (List.mem_singleton_self ticker), List.subset_append_left _ _⟩

namespace RotationPass

variable (fetch : Ticker → FetchedBook) (meanwhile : Ticker → List (Event F))

theorem adopt_was_alive {pass : RotationPass F X} {ticker : Ticker}
    (alive : (pass.adopt venue fetch meanwhile ticker).process.alive = true) : pass.process.alive = true := by
  unfold adopt at alive
  split at alive
  · exact run_was_alive venue alive
  · exact run_was_alive venue (dispatch_was_alive venue alive)

theorem adoptAll_was_alive {tickers : List Ticker} {pass : RotationPass F X}
    (alive : (tickers.foldl (adopt venue fetch meanwhile) pass).process.alive = true) : pass.process.alive = true := by
  induction tickers generalizing pass with
  | nil => exact alive
  | cons ticker tickers ih => exact adopt_was_alive venue fetch meanwhile (ih alive)

variable {venue fetch meanwhile}

/-- One adoption tracks and subscribes the market it could fetch. -/
theorem adopt_universe (keep : ∀ ticker, ∀ event ∈ meanwhile ticker, event.keepsUniverse = true)
    {pass : RotationPass F X} {ticker : Ticker}
    (alive : (pass.adopt venue fetch meanwhile ticker).process.alive = true) :
    (pass.adopt venue fetch meanwhile ticker).process.desk.session.tickers =
        (if (fetch ticker).isSome then (pass.process.desk.session.adopt ticker).tickers
          else pass.process.desk.session.tickers) ∧
      ((fetch ticker).isSome → ticker ∈ (pass.adopt venue fetch meanwhile ticker).client.subscribedTickers) ∧
      pass.client.subscribedTickers ⊆ (pass.adopt venue fetch meanwhile ticker).client.subscribedTickers := by
  have same := run_universe venue (keep ticker) pass.process
  unfold adopt at alive ⊢
  cases answer : fetch ticker with
  | none => exact ⟨same, nofun, fun _ => id⟩
  | some sides =>
    obtain ⟨yes, no⟩ := sides
    rw [answer] at alive
    dsimp only at alive ⊢
    obtain ⟨listed, kept⟩ := mem_subscribe pass.client ticker
    rw [if_pos alive, dispatch_addMarket venue alive]
    refine ⟨?_, fun _ => listed, kept⟩
    unfold TradingSession.adopt isTracked
    simp only [same, Option.isSome_some, if_true]
    split <;> simp [same]

/-- The adoptions one after the other, each of a market that is not tracked yet. -/
theorem adoptAll_universe (keep : ∀ ticker, ∀ event ∈ meanwhile ticker, event.keepsUniverse = true)
    {tickers : List Ticker} {pass : RotationPass F X}
    (alive : (tickers.foldl (adopt venue fetch meanwhile) pass).process.alive = true) :
    let after := tickers.foldl (adopt venue fetch meanwhile) pass
    (∀ ticker, ticker ∈ after.process.desk.session.tickers ↔
      ticker ∈ pass.process.desk.session.tickers ∨ ticker ∈ tickers ∧ (fetch ticker).isSome = true) ∧
    (pass.process.desk.session.tickers.Nodup → after.process.desk.session.tickers.Nodup) ∧
    pass.client.subscribedTickers ⊆ after.client.subscribedTickers ∧
    ∀ ticker ∈ tickers, (fetch ticker).isSome = true → ticker ∈ after.client.subscribedTickers := by
  induction tickers generalizing pass with
  | nil => exact ⟨by simp, id, fun _ => id, by simp⟩
  | cons first tickers ih =>
    rw [List.foldl_cons] at alive
    obtain ⟨listing, asked, kept⟩ := adopt_universe keep (adoptAll_was_alive venue fetch meanwhile alive)
    obtain ⟨members, distinct, further, rest⟩ := ih alive
    simp only [List.foldl_cons]
    have adopted : ∀ ticker, ticker ∈ (pass.process.desk.session.adopt first).tickers ↔
        ticker ∈ pass.process.desk.session.tickers ∨ ticker = first := by
      intro ticker
      unfold TradingSession.adopt isTracked
      by_cases tracked : first ∈ pass.process.desk.session.tickers
      · simp only [tracked, decide_true, if_true]
        exact ⟨.inl, fun either => either.elim id fun same => same ▸ tracked⟩
      · simp [tracked]
    refine ⟨fun ticker => ?_, fun before => distinct ?_, List.Subset.trans kept further, fun ticker member some => ?_⟩
    · rw [members, listing]
      cases answer : (fetch first).isSome with
      | true =>
        simp only [if_true, adopted, List.mem_cons]
        by_cases same : ticker = first
        · subst same
          simp [answer]
        · simp [same]
      | false =>
        simp only [Bool.false_eq_true, if_false, List.mem_cons]
        by_cases same : ticker = first
        · subst same
          simp [answer]
        · simp [same]
    · rw [listing]
      split
      next =>
        unfold TradingSession.adopt isTracked
        by_cases tracked : first ∈ pass.process.desk.session.tickers
        · simpa [tracked] using before
        · simp only [tracked, decide_false, Bool.false_eq_true, if_false]
          exact List.Nodup.append before (List.nodup_singleton first) (by simpa using tracked)
      next => exact before
    · rcases List.mem_cons.mp member with rfl | later
      · exact further (asked some)
      · exact rest ticker later some

end RotationPass

/-- Whatever the feed does during a rotation that the process survives, the session then tracks exactly the picks it
could fetch or had already, and what is busy at the rotation's lock. Each market it took up is subscribed. -/
theorem rotation_tracks_picks_and_held {fetch : Ticker → FetchedBook} {meanwhile : Ticker → List (Event F)}
    (keep : ∀ ticker, ∀ event ∈ meanwhile ticker, event.keepsUniverse = true) (picks : List Ticker)
    (pass : RotationPass F X) (alive : (pass.rotateMarkets venue fetch meanwhile (some picks)).process.alive = true) :
    let before := pass.process.desk
    let after := pass.rotateMarkets venue fetch meanwhile (some picks)
    (∀ ticker, ticker ∈ after.process.desk.session.tickers ↔
      ticker ∈ before.session.tickers ∧ (ticker ∈ picks ∨ before.Busy ticker) ∨
        ticker ∈ picks ∧ (fetch ticker).isSome = true) ∧
    (before.session.tickers.Nodup → after.process.desk.session.tickers.Nodup) ∧
    ∀ ticker ∈ after.process.desk.session.tickers, ticker ∈ before.session.tickers ∨
      ticker ∈ after.client.subscribedTickers := by
  obtain ⟨session, swept, left⟩ := dropStale_run picks pass.process.desk
  intro before after
  have kept : (dropStale picks pass.process.desk).2 = { pass.process.desk with session } := by rw [swept]
  obtain ⟨members, distinct, _, asked⟩ := RotationPass.adoptAll_universe keep alive
  have adds : ∀ ticker, ticker ∈ toAdd picks (dropStale picks pass.process.desk).2 ↔
      ticker ∈ picks ∧ ticker ∉ session.tickers := by
    intro ticker
    rw [kept]
    simp [toAdd, isTracked]
  have stays : ∀ ticker, ticker ∈ session.tickers ↔
      ticker ∈ before.session.tickers ∧ (ticker ∈ picks ∨ before.Busy ticker) := by
    intro ticker
    rw [left, List.mem_filter, decide_eq_true_eq]
  have listing : ∀ ticker, ticker ∈ after.process.desk.session.tickers ↔
      ticker ∈ session.tickers ∨ (ticker ∈ picks ∧ ticker ∉ session.tickers) ∧ (fetch ticker).isSome = true := by
    intro ticker
    rw [← adds]
    refine (members ticker).trans ?_
    simp only [kept]
  refine ⟨fun ticker => ?_, fun once => ?_, fun ticker tracked => ?_⟩
  · rw [listing, ← stays]
    by_cases tracked : ticker ∈ session.tickers <;> simp [tracked]
  · refine distinct ?_
    simp only [kept, left]
    exact once.filter _
  · rcases (listing ticker).mp tracked with stayed | ⟨new, answered⟩
    · exact .inl ((stays ticker).mp stayed).1
    · exact .inr (asked ticker ((adds ticker).mpr new) answered)

def heldBook : Orderbook := { ticker := "HELD", yes := [⟨40, ⟨1000⟩⟩], no := [⟨40, ⟨1000⟩⟩] }

def heldVenue : Venue Script := ⟨⟨"exchange"⟩, Script.host⟩

/-- Two markets, one of them quoted. -/
def heldPass : RotationPass ℚ Script :=
  ⟨(Process.start { tickers := ["HELD", "IDLE"] } {} {} {} none none false false).run heldVenue
    [.snapshot heldBook, .requoteIdleMarkets], {}⟩

def heldFetch (ticker : Ticker) : FetchedBook := if ticker = "NEW" then some (heldBook.yes, heldBook.no) else none

/-- The quoted market stays and the other makes room; of two picks one cannot be fetched. The feed speaks between the
sections. -/
theorem rotation_tracks_picks_and_held_two :
    let after := heldPass.rotateMarkets heldVenue heldFetch (fun _ => [.delta "HELD" .yes 40 ⟨100⟩])
      (some ["NEW", "GONE"])
    after.process.alive = true ∧ "HELD" ∈ after.process.desk.session.tickers ∧
      "IDLE" ∉ after.process.desk.session.tickers ∧ "NEW" ∈ after.client.subscribedTickers := by
  have before : heldPass.process.desk.session.tickers = ["HELD", "IDLE"] := by decide +kernel
  have busy : heldPass.process.desk.Busy "HELD" := by decide +kernel
  have idle : ¬ heldPass.process.desk.Busy "IDLE" := by decide +kernel
  have alive : (heldPass.rotateMarkets heldVenue heldFetch (fun _ => [.delta "HELD" .yes 40 ⟨100⟩])
      (some ["NEW", "GONE"])).process.alive = true := by decide +kernel
  have keep : ∀ ticker : Ticker, ∀ event ∈ [Event.delta (F := ℚ) "HELD" .yes 40 ⟨100⟩],
      event.keepsUniverse = true := by
    intro ticker event member
    rw [List.mem_singleton.mp member]
    rfl
  obtain ⟨listed, _, asked⟩ := rotation_tracks_picks_and_held heldVenue keep ["NEW", "GONE"] heldPass alive
  have held : "HELD" ∈ heldPass.process.desk.session.tickers := before ▸ List.mem_cons_self
  have new := (listed "NEW").mpr (.inr ⟨List.mem_cons_self, rfl⟩)
  refine ⟨alive, (listed "HELD").mpr (.inl ⟨held, .inr busy⟩), fun still => ?_,
    (asked "NEW" new).resolve_left fun old => ?_⟩
  · rcases (listed "IDLE").mp still with ⟨_, picked | kept⟩ | ⟨picked, _⟩
    · exact absurd picked (by decide)
    · exact idle kept
    · exact absurd picked (by decide)
  · rw [before] at old
    exact absurd old (by decide)

end Kalshi
