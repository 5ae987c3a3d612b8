import KalshiMaker.Properties.QuotedEdge

/-! The side of the quote that adds to the position, once the inventory brake is on. -/
namespace Kalshi

open Effect Eff Desk Quoter

variable {F X : Type} [Floating F]

/-- A cancel that was rejected or thrown. -/
def Call.unheeded : Call F → Bool
  | .cancel _ success => !success
  | .place .. | .amend .. | .recordFill .. => false

/-- The cancels sent in between were all accepted. -/
def Desk.CancelsAccepted (before after : Desk F X) : Prop :=
  ∀ entry ∈ before.callsSince after, entry.call.unheeded = false

instance (before after : Desk F X) : Decidable (before.CancelsAccepted after) :=
  inferInstanceAs (Decidable (∀ entry ∈ _, _))

/-- No cancel in between went unheeded. -/
theorem Desk.CancelsAccepted.heeded {s t u v : Desk F X} (accepted : s.CancelsAccepted t)
    (before : s.calls <+: u.calls)
    {id : OrderId} {tickers : List Ticker} (added : v.calls = u.calls ++ [⟨.cancel id false, tickers⟩])
    (later : v.calls <+: t.calls) : False := by
  obtain ⟨earlier, calls⟩ := before
  obtain ⟨rest, grown⟩ := later
  have since : s.callsSince t = earlier ++ ⟨.cancel id false, tickers⟩ :: rest := by
    apply s.callsSince_of_append
    rw [← grown, added, ← calls]
    simp
  have spared := accepted ⟨.cancel id false, tickers⟩ (by rw [since]; simp)
  cases spared

/-- The side buys more of what is held, which has reached the cap or is only to be reduced. -/
def Quoter.Braked (quoter : Quoter F) (inventory : F) : Side → Prop
  | .yes => 0 ≤ inventory ∧ (quoter.inventoryCap ≤ inventory ∨ quoter.reduceOnly = true)
  | .no => inventory ≤ 0 ∧ (inventory ≤ -quoter.inventoryCap ∨ quoter.reduceOnly = true)

namespace Quoter

theorem Braked.suppressed {quoter : Quoter F} {inventory : F} {side : Side} (braked : quoter.Braked inventory side) :
    quoter.suppressed inventory side = true := by
  cases side with
  | yes | no =>
    obtain ⟨adds, reached | reduceOnly⟩ := braked
    · simp [Quoter.suppressed, reached]
    · simp [Quoter.suppressed, reduceOnly, adds]

section

variable {venue : Venue X} {ticker : Ticker}

variable (venue ticker) in
/-- A release that does not empty its slot ends with a cancel that is not heeded. -/
theorem releaseSlot_kept (side : Side) (s : Desk F X) (kept : (releaseSlot venue ticker side s).1 ≠ .ok true) :
    ∃ id, (releaseSlot venue ticker side s).2.calls = s.calls ++ [⟨.cancel id false, s.session.tickers⟩] := by
  have unfolded : releaseSlot venue ticker side s = andThen (fun released => do
      if released then do
        clearSlot ticker side
        pure true
      else pure false) (releaseOrder venue (s.quoter.ownQuotes ticker side).orderId s) := rfl
  refine ⟨(s.quoter.ownQuotes ticker side).orderId, ?_⟩
  unfold releaseOrder at unfolded
  rw [bind_apply] at unfolded
  rcases OrderManager.cancel_cases venue (s.quoter.ownQuotes ticker side).orderId s
    with ⟨x, cancelled⟩ | ⟨x, cancelled⟩ | ⟨what, x, cancelled⟩
  · rw [unfolded, cancelled] at kept
    exact absurd rfl kept
  · rw [unfolded, cancelled] at kept ⊢
    simp only [andThen_ok, Bool.false_eq_true, ↓reduceIte, bind_apply, get_apply, pure_apply] at kept ⊢
    split at kept
    · exact absurd rfl kept
    · rename_i tracked
      rw [if_neg tracked]
      rfl
  · rw [unfolded, cancelled]
    rfl

variable (venue ticker) in
/-- Pulling the quotes of a side that must not trade empties its slot, unless a cancel is not heeded. -/
theorem releaseSuppressed_heeded (side : Side) (suppressed : Bool) (s : Desk F X) :
    ((releaseSuppressed venue (legOf side) ticker suppressed s).1 = .ok () ∧ (suppressed = true →
      ((releaseSuppressed venue (legOf side) ticker suppressed s).2.quoter.ownQuotes ticker side).orderId = "")) ∨
    ∃ id, (releaseSuppressed venue (legOf side) ticker suppressed s).2.calls =
      s.calls ++ [⟨.cancel id false, s.session.tickers⟩] := by
  unfold releaseSuppressed
  rw [bind_apply, get_apply, andThen_ok, legOf_side]
  split
  next pulls =>
    rw [bind_apply]
    have kept := releaseSlot_kept venue ticker side s
    cases ran : releaseSlot venue ticker side s with
    | mk r t =>
      rw [ran] at kept
      rcases r with stop | (_ | _)
      · exact .inr (kept nofun)
      · exact .inr (kept fun same => by cases same)
      · exact .inl ⟨rfl, fun _ => releaseSlot_vacant venue ran⟩
  next idle =>
    refine .inl ⟨rfl, fun suppressed => ?_⟩
    simpa [suppressed] using idle

theorem releaseSuppressed_grows (venue : Venue X) (ticker : Ticker) (side : Side) (suppressed : Bool) (s : Desk F X) :
    s.calls <+: (releaseSuppressed venue (legOf side) ticker suppressed s).2.calls := by
  have leads := releaseSuppressed_leads (posture_guided venue ticker fun _ => none) side suppressed s
  obtain ⟨_, later, calls, _⟩ := requests_send (leads.mono fun _ _ request => ⟨side, request⟩)
  exact ⟨later, calls.symm⟩

theorem refreshUnless_grows (venue : Venue X) (ticker : Ticker) (suppressed : Bool) (side : Side)
    (target : Option Int) (now : TimePoint) (s : Desk F X) :
    s.calls <+: (refreshUnless venue suppressed (legOf side) ticker target now s).2.calls := by
  have leads := refreshUnless_leads (posture_guided venue ticker fun _ => target) suppressed side target now s
    fun desired _ wanted clear => ⟨wanted, Posture.apart_of_wouldCross clear⟩
  obtain ⟨_, later, calls, _⟩ := requests_send (leads.mono fun _ _ request => ⟨side, request⟩)
  exact ⟨later, calls.symm⟩

theorem refreshUnless_suppressed (side : Side) (target : Option Int) (now : TimePoint) (s : Desk F X) :
    refreshUnless venue true (legOf side) ticker target now s = (.ok (), s) := by
  cases target <;> rfl

/-- The quote of a side, and the calls so far. -/
def slotAndCalls (ticker : Ticker) (side : Side) (s : Desk F X) : QuoteSlot × List (Entry F) :=
  (s.quoter.ownQuotes ticker side, s.calls)

/-- The quote stays, and the calls grow. -/
def Passes (u v : QuoteSlot × List (Entry F)) : Prop := v.1 = u.1 ∧ u.2 <+: v.2

omit [Floating F] in
theorem passes_of_chain {u v : QuoteSlot × List (Entry F)} (chain : Relation.ReflTransGen Passes u v) :
    Passes u v := by
  induction chain with
  | refl => exact ⟨rfl, List.prefix_rfl⟩
  | tail _ step ih => exact ⟨step.1.trans ih.1, ih.2.trans step.2⟩

theorem releaseSuppressed_passes {side other : Side} (apart : side ≠ other) (suppressed : Bool) (s : Desk F X) :
    Leads (slotAndCalls ticker side) Passes (releaseSuppressed venue (legOf other) ticker suppressed) s := by
  refine Leads.single ⟨?_, releaseSuppressed_grows venue ticker other suppressed s⟩
  exact congrArg Prod.snd ((ownView_beside ticker apart).releaseSuppressed venue suppressed s).unmoved

theorem refreshUnless_passes {side other : Side} (apart : side ≠ other) (suppressed : Bool) (target : Option Int)
    (now : TimePoint) (s : Desk F X) :
    Leads (slotAndCalls ticker side) Passes (refreshUnless venue suppressed (legOf other) ticker target now) s := by
  refine Leads.single ⟨?_, refreshUnless_grows venue ticker suppressed other target now s⟩
  exact congrArg Prod.snd ((ownView_beside ticker apart).refreshUnless venue suppressed target now s).unmoved

/-- A side that is pulled stays empty where what follows leaves it alone, unless a cancel was not heeded. -/
theorem pulled_vacant {side : Side} {rest : Eff (Desk F X) String Unit} {s u : Desk F X}
    (passes : ∀ t, Leads (slotAndCalls ticker side) Passes rest t) (before : s.calls <+: u.calls)
    (accepted : s.CancelsAccepted (andThen (fun _ => rest) (releaseSuppressed venue (legOf side) ticker true u)).2) :
    ((andThen (fun _ => rest) (releaseSuppressed venue (legOf side) ticker true u)).2.quoter.ownQuotes
      ticker side).orderId = "" := by
  have pulled := releaseSuppressed_heeded venue ticker side true u
  cases ran : releaseSuppressed venue (legOf side) ticker true u with
  | mk r t =>
    rw [ran] at accepted pulled
    cases r with
    | error stop =>
      obtain ⟨_, added⟩ := pulled.resolve_left fun ⟨returned, _⟩ => by cases returned
      exact (accepted.heeded before added List.prefix_rfl).elim
    | ok _ =>
      rw [andThen_ok] at accepted ⊢
      obtain ⟨same, grown⟩ := passes_of_chain (passes t)
      obtain ⟨_, empty⟩ := pulled.resolve_right fun ⟨_, added⟩ => accepted.heeded before added grown
      have stays : (rest t).2.quoter.ownQuotes ticker side = t.quoter.ownQuotes ticker side := same
      rw [stays]
      exact empty rfl

/-- Once the quotes are applied, a side that must not trade has an empty slot, unless a cancel was not heeded. -/
theorem applyQuotes_vacant {inventory : F} {desiredBid desiredAsk : Option Int} {side : Side} {s : Desk F X}
    (suppressed : s.quoter.suppressed inventory side = true)
    (accepted : s.CancelsAccepted (applyQuotes venue ticker inventory desiredBid desiredAsk s).2) :
    ((applyQuotes venue ticker inventory desiredBid desiredAsk s).2.quoter.ownQuotes ticker side).orderId = "" := by
  rw [applyQuotes_at] at accepted ⊢
  cases side with
  | yes =>
    rw [suppressed, bind_apply] at accepted ⊢
    refine pulled_vacant (fun t => ?_) List.prefix_rfl accepted
    refine Leads.bind (releaseSuppressed_passes (by decide) _ t) fun _ t₁ _ => ?_
    refine Leads.bind (Leads.quiet (by rw [refreshUnless_suppressed])) fun _ t₂ _ => ?_
    exact refreshUnless_passes (by decide) _ _ _ t₂
  | no =>
    rw [suppressed, bind_apply] at accepted ⊢
    have first := releaseSuppressed_heeded venue ticker .yes (s.quoter.suppressed inventory .yes)
      { s with outside := (venue.host.steadyNow s.outside).2 }
    have grows := releaseSuppressed_grows venue ticker .yes (s.quoter.suppressed inventory .yes)
      { s with outside := (venue.host.steadyNow s.outside).2 }
    cases ran : releaseSuppressed venue (legOf .yes) ticker (s.quoter.suppressed inventory .yes)
      { s with outside := (venue.host.steadyNow s.outside).2 } with
    | mk r t =>
      rw [ran] at accepted first grows
      cases r with
      | error stop =>
        -- the bid could not be pulled, so that the ask was not come to
        obtain ⟨_, added⟩ := first.resolve_left fun ⟨returned, _⟩ => by cases returned
        exact (accepted.heeded List.prefix_rfl added List.prefix_rfl).elim
      | ok _ =>
        rw [andThen_ok, bind_apply] at accepted ⊢
        refine pulled_vacant (fun t => ?_) grows accepted
        refine Leads.bind (refreshUnless_passes (by decide) _ _ _ t) fun _ t₁ _ => ?_
        exact Leads.quiet (by rw [refreshUnless_suppressed])

variable (venue ticker) in
/-- On a visible book with two sides apart an update empties the slot of a side that the brake is on for, unless a
cancel is not heeded or the process ends. -/
theorem update_vacant (book : LocalOrderbook) {side : Side} {s : Desk F X}
    (braked : s.quoter.Braked (s.orderMgr.netPosition ticker).contracts side)
    (apart : ¬ (s.bookWithoutOwnQuotes ticker book).Degenerate)
    (lives : ∀ what, (update venue ticker book s).1 ≠ .error (.abort what))
    (accepted : s.CancelsAccepted (update venue ticker book s).2) :
    ((update venue ticker book s).2.quoter.ownQuotes ticker side).orderId = "" := by
  unfold LocalOrderbook.Degenerate at apart
  push Not at apart
  obtain ⟨bestBid, bestAsk, bid, ask, apart⟩ := apart
  obtain ⟨outlook, x, y, pricesOff, ran⟩ := update_priced venue bid ask apart
  split at ran
  next finite =>
    rw [ran] at accepted ⊢
    obtain ⟨_, _, _, _, _, _, _, _, _, read⟩ := pricesOff.asked
    refine applyQuotes_vacant ?_ accepted
    rw [read]
    exact braked.suppressed
  next infinite =>
    rw [ran] at lives
    exact absurd rfl (lives _)

end

end Quoter

/-- An update on a visible book without two sides apart leaves the quotes as they are; on any other it pulls the side
that the brake is on for, unless a cancel is refused. -/
theorem braked_side_vacant_iff (venue : Venue X) (ticker : Ticker) (book : LocalOrderbook) (side : Side)
    {s t : Desk F X} (braked : s.quoter.Braked (s.orderMgr.netPosition ticker).contracts side)
    (returned : update venue ticker book s = (.ok (), t)) (accepted : s.CancelsAccepted t) :
    (t.quoter.ownQuotes ticker side).orderId = "" ↔
      (s.quoter.ownQuotes ticker side).orderId = "" ∨ ¬ (s.bookWithoutOwnQuotes ticker book).Degenerate := by
  by_cases degenerate : (s.bookWithoutOwnQuotes ticker book).Degenerate
  · rw [update_degenerate venue degenerate] at returned
    cases returned
    simp only [degenerate, not_true_eq_false, or_false]
    exact Iff.rfl
  · have enforced := update_vacant venue ticker book braked degenerate
    rw [returned] at enforced
    exact iff_of_true (enforced (fun _ ends => by cases ends) accepted) (.inr degenerate)

/-- At 20 contracts long, the cap, a book with a bid and an ask has the resting bid pulled. -/
theorem braked_side_vacant_iff_capped :
    let venue : Venue Script := ⟨⟨"exchange"⟩, Script.host⟩
    let bought : Fill ℚ :=
      { tradeId := "a", orderId := "order", marketTicker := "M", side := .yes, priceCents := 48, quantity := ⟨2000⟩,
        feeCents := 0, isTaker := false, timestamp := 0 }
    let book : LocalOrderbook := ⟨{ ticker := "M", yes := [⟨40, ⟨1000⟩⟩], no := [⟨40, ⟨1000⟩⟩] }⟩
    let p := Process.start { tickers := ["M"] } ({ useClearingPricing := true } : QuoterConfig ℚ) {} ({} : Script) none
      none false false
    let quoted := (update venue "M" book p.desk).2
    let s := quoted.withOrders (quoted.orderMgr.recorded bought).2
    (s.quoter.ownQuotes "M" .yes).orderId = "order-1" ∧
      ((update venue "M" book s).2.quoter.ownQuotes "M" .yes).orderId = "" := by
  intro venue bought book p quoted s
  have returned : (update venue "M" book s).1 = .ok () := by decide +kernel
  have ran : update venue "M" book s = (.ok (), (update venue "M" book s).2) := Prod.ext returned rfl
  have braked : s.quoter.Braked (s.orderMgr.netPosition "M").contracts .yes :=
    ⟨by decide +kernel, .inl (by decide +kernel)⟩
  have accepted : s.CancelsAccepted (update venue "M" book s).2 := by decide +kernel
  refine ⟨by decide +kernel, (braked_side_vacant_iff venue "M" book .yes braked ran accepted).mpr (.inr ?_)⟩
  intro degenerate
  have crossed := degenerate ⟨40, ⟨1000⟩⟩ ⟨60, ⟨1000⟩⟩ (by decide +kernel) (by decide +kernel)
  exact absurd crossed (by decide)

/-- With the asks gone from the book the bid stays, at the same 20 contracts long. -/
theorem one_sided_book_keeps_bid :
    let venue : Venue Script := ⟨⟨"exchange"⟩, Script.host⟩
    let bought : Fill ℚ :=
      { tradeId := "a", orderId := "order", marketTicker := "M", side := .yes, priceCents := 48, quantity := ⟨2000⟩,
        feeCents := 0, isTaker := false, timestamp := 0 }
    let book : LocalOrderbook := ⟨{ ticker := "M", yes := [⟨40, ⟨1000⟩⟩], no := [⟨40, ⟨1000⟩⟩] }⟩
    let oneSided : LocalOrderbook := ⟨{ ticker := "M", yes := [⟨40, ⟨1000⟩⟩], no := [] }⟩
    let p := Process.start { tickers := ["M"] } ({ useClearingPricing := true } : QuoterConfig ℚ) {} ({} : Script) none
      none false false
    let quoted := (update venue "M" book p.desk).2
    let s := quoted.withOrders (quoted.orderMgr.recorded bought).2
    s.quoter.Braked (s.orderMgr.netPosition "M").contracts .yes ∧ (update venue "M" oneSided s).1 = .ok () ∧
      s.CancelsAccepted (update venue "M" oneSided s).2 ∧
      ((update venue "M" oneSided s).2.quoter.ownQuotes "M" .yes).orderId = "order-1" := by
  intro venue bought book oneSided p quoted s
  exact ⟨⟨by decide +kernel, .inl (by decide +kernel)⟩, by decide +kernel, by decide +kernel, by decide +kernel⟩

end Kalshi
