import KalshiMaker.Properties.SessionPnl

/-! The roll-up of the markets by event: a partition of them, in step with the totals. -/
namespace Kalshi
namespace Portfolio

section

variable {F : Type} [Floating F] (om : OrderManager F) (marks : MarkMap)

theorem sumOver_append (tickers : List Ticker) (ticker : Ticker) (amount : Ticker → F) :
    sumOver (tickers ++ [ticker]) amount = sumOver tickers amount + amount ticker := by
  simp [sumOver]

theorem exposure_append (tickers : List Ticker) (ticker : Ticker) (event : String) :
    exposure om marks (tickers ++ [ticker]) event =
      if eventTickerOf ticker = event then
        addMarket (exposure om marks tickers event) (om.realizedPnl ticker) (unrealized om marks ticker)
          (om.positionCost ticker)
      else exposure om marks tickers event := by
  unfold exposure addMarket
  rw [List.filter_append]
  by_cases same : eventTickerOf ticker = event
  · simp [same, sumOver_append]
  · simp [same]

/-- An event that no market is of. -/
theorem exposure_absent {tickers : List Ticker} {event : String} (absent : event ∉ tickers.map eventTickerOf) :
    exposure om marks tickers event = { noExposure with eventTicker := event } := by
  have empty : (tickers.filter fun ticker => eventTickerOf ticker == event) = [] := by
    rw [List.filter_eq_nil_iff]
    intro ticker member same
    exact absent (List.mem_map.mpr ⟨ticker, member, by simpa using same⟩)
  unfold exposure
  simp [empty, sumOver, noExposure]

/-- What the pass holds after some tickers. -/
structure Rolled (tickers : List Ticker) (state : RollUp F) : Prop where
  realizedSum : state.totalRealizedCents = sumOver tickers om.realizedPnl
  unrealizedSum : state.totalUnrealizedCents = sumOver tickers (unrealized om marks)
  notionalSum : state.totalNotionalCents = sumOver tickers om.positionCost
  distinct : Keyed.Distinct Prod.fst state.events
  covers : ∀ event, event ∈ state.events.map Prod.fst ↔ event ∈ tickers.map eventTickerOf
  amounts : ∀ entry ∈ state.events, { entry.2 with eventTicker := entry.1 } = exposure om marks tickers entry.1

theorem add_events (state : RollUp F) (ticker : Ticker) :
    (state.add om marks ticker).events =
      Keyed.upsert Prod.fst (eventTickerOf ticker) (eventTickerOf ticker, noExposure)
        (fun entry => (entry.1, addMarket entry.2 (om.realizedPnl ticker) (unrealized om marks ticker)
          (om.positionCost ticker))) state.events := rfl

theorem Rolled.add {tickers : List Ticker} {state : RollUp F} (rolled : Rolled om marks tickers state)
    (ticker : Ticker) : Rolled om marks (tickers ++ [ticker]) (state.add om marks ticker) := by
  constructor
  case realizedSum => rw [sumOver_append, ← rolled.realizedSum, RollUp.add]
  case unrealizedSum => rw [sumOver_append, ← rolled.unrealizedSum, RollUp.add]
  case notionalSum => rw [sumOver_append, ← rolled.notionalSum, RollUp.add]
  case distinct =>
    rw [add_events]
    refine Keyed.distinct_upsert ?_ ?_ rolled.distinct
    · rfl
    · exact fun _ => rfl
  case covers =>
    intro event
    have fresh : Prod.fst (eventTickerOf ticker, (noExposure : EventExposure F)) = eventTickerOf ticker := rfl
    rw [add_events, Keyed.map_key_upsert fresh (by exact fun _ => rfl), List.map_append, List.map_singleton,
      List.mem_append, List.mem_singleton, ← rolled.covers]
    split
    next known =>
      constructor
      · exact .inl
      · rintro (earlier | rfl)
        · exact earlier
        · exact known
    next => rw [List.mem_append, List.mem_singleton]
  case amounts =>
    intro entry member
    rw [exposure_append]
    -- the entry is of another event, or was there before, or is new
    rcases Keyed.mem_upsert rolled.distinct member with
      ⟨kept, other⟩ | ⟨old, kept, same, rfl⟩ | ⟨absent, rfl⟩
    · rw [if_neg (Ne.symm other)]
      exact rolled.amounts entry kept
    · rw [if_pos same.symm, ← rolled.amounts old kept]
      rfl
    · rw [if_pos rfl, exposure_absent om marks ((rolled.covers _).not.mp absent)]
      rfl

theorem rolled_run (tickers : List Ticker) : Rolled om marks tickers (tickers.foldl (RollUp.add om marks) {}) := by
  induction tickers using List.reverseRecOn with
  | nil => exact ⟨rfl, rfl, rfl, List.nodup_nil, fun _ => Iff.rfl, fun _ member => by cases member⟩
  | append_singleton tickers ticker ih =>
    rw [List.foldl_append]
    exact ih.add om marks ticker

/-- What each market adds to an amount of its event, the events together gain. -/
theorem events_sum {M : Type} [AddCommMonoid M] {amount : EventExposure F → M} {value : Ticker → M}
    (nothing : amount noExposure = 0)
    (adds : ∀ exposure ticker, amount (addMarket exposure (om.realizedPnl ticker) (unrealized om marks ticker)
      (om.positionCost ticker)) = amount exposure + value ticker) (tickers : List Ticker) :
    ((tickers.foldl (RollUp.add om marks) {}).events.map fun entry => amount entry.2).sum =
      (tickers.map value).sum := by
  induction tickers using List.reverseRecOn with
  | nil => rfl
  | append_singleton tickers ticker ih =>
    have gained : ∀ state : RollUp F, ((state.add om marks ticker).events.map fun entry => amount entry.2).sum =
        (state.events.map fun entry => amount entry.2).sum + value ticker := by
      intro state
      rw [add_events]
      refine Keyed.sum_upsert ?_ ?_ _
      · exact fun entry => adds entry.2 ticker
      · exact nothing
    rw [List.foldl_append, List.foldl_cons, List.foldl_nil, gained, ih]
    simp

variable {walk : List (String × EventExposure F) → List (String × EventExposure F)}
  (walks : ∀ entries, (walk entries).Perm entries)

include walks

theorem byEvent_perm (tickers : List Ticker) :
    (rollUp om walk tickers marks).byEvent.Perm
      ((tickers.foldl (RollUp.add om marks) {}).events.map fun entry => { entry.2 with eventTicker := entry.1 }) :=
  (List.perm_insertionSort _ _).trans ((walks _).map _)

theorem byEvent_sum {M : Type} [AddCommMonoid M] {amount : EventExposure F → M} {value : Ticker → M}
    (unnamed : ∀ exposure event, amount { exposure with eventTicker := event } = amount exposure)
    (nothing : amount noExposure = 0)
    (adds : ∀ exposure ticker, amount (addMarket exposure (om.realizedPnl ticker) (unrealized om marks ticker)
      (om.positionCost ticker)) = amount exposure + value ticker) (tickers : List Ticker) :
    ((rollUp om walk tickers marks).byEvent.map amount).sum = (tickers.map value).sum := by
  rw [((byEvent_perm om marks walks tickers).map amount).sum_eq, List.map_map, ← events_sum om marks nothing adds]
  congr 1
  apply List.map_congr_left
  intro entry _
  exact unnamed entry.2 entry.1

/-- The pass of the source computes the snapshot by its closed forms, for some order of the events. -/
theorem rollUp_eq_snapshot (tickers : List Ticker) :
    ∃ events : List String, events.Perm (tickers.map eventTickerOf).dedup ∧
      rollUp om walk tickers marks = snapshot om (fun _ => events) tickers marks := by
  have rolled := rolled_run om marks tickers
  have read := walks (tickers.foldl (RollUp.add om marks) {}).events
  refine ⟨(walk (tickers.foldl (RollUp.add om marks) {}).events).map Prod.fst, ?_, ?_⟩
  · apply (read.map Prod.fst).trans
    apply (List.perm_ext_iff_of_nodup rolled.distinct (List.nodup_dedup _)).mpr
    intro event
    rw [rolled.covers, List.mem_dedup]
  · have same : (walk (tickers.foldl (RollUp.add om marks) {}).events).map
        (fun entry => { entry.2 with eventTicker := entry.1 }) =
        ((walk (tickers.foldl (RollUp.add om marks) {}).events).map Prod.fst).map (exposure om marks tickers) := by
      rw [List.map_map]
      apply List.map_congr_left
      intro entry member
      exact rolled.amounts entry (read.mem_iff.mp member)
    unfold rollUp snapshot
    dsimp only
    rw [rolled.realizedSum, rolled.unrealizedSum, rolled.notionalSum, same]

theorem byEvent_amounts (tickers : List Ticker) {event : EventExposure F}
    (member : event ∈ (rollUp om walk tickers marks).byEvent) :
    event = exposure om marks tickers event.eventTicker := by
  obtain ⟨entry, kept, rfl⟩ := List.mem_map.mp ((byEvent_perm om marks walks tickers).mem_iff.mp member)
  exact (rolled_run om marks tickers).amounts entry kept

theorem byEvent_names (tickers : List Ticker) :
    ((rollUp om walk tickers marks).byEvent.map EventExposure.eventTicker).Perm
      ((tickers.foldl (RollUp.add om marks) {}).events.map Prod.fst) := by
  apply ((byEvent_perm om marks walks tickers).map _).trans
  rw [List.map_map]
  exact .rfl

end

section

variable [Elementary ℚ]

theorem byNotionalDescending_iff (left right : EventExposure ℚ) :
    byNotionalDescending left right ↔ right.notionalCostCents ≤ left.notionalCostCents := not_lt

instance : Std.Total (byNotionalDescending (F := ℚ)) where
  total left right := by
    rw [byNotionalDescending_iff, byNotionalDescending_iff]
    exact le_total _ _

instance : IsTrans (EventExposure ℚ) byNotionalDescending where
  trans left middle right := by
    rw [byNotionalDescending_iff, byNotionalDescending_iff, byNotionalDescending_iff]
    exact fun first second => second.trans first

/-- The events part the markets: each event once, with the amounts of exactly its markets, and all together
what the totals say. -/
theorem rollUp_partitions (om : OrderManager ℚ)
    {walk : List (String × EventExposure ℚ) → List (String × EventExposure ℚ)}
    (walks : ∀ entries, (walk entries).Perm entries) (tickers : List Ticker) (marks : MarkMap) :
    let snap := rollUp om walk tickers marks
    (snap.byEvent.map EventExposure.eventTicker).Nodup ∧
      (∀ event, event ∈ snap.byEvent.map EventExposure.eventTicker ↔
        ∃ ticker ∈ tickers, eventTickerOf ticker = event) ∧
      (snap.byEvent.map EventExposure.marketCount).sum = tickers.length ∧
      snap.totalRealizedCents = (snap.byEvent.map EventExposure.realizedPnlCents).sum ∧
      snap.totalUnrealizedCents = (snap.byEvent.map EventExposure.unrealizedPnlCents).sum ∧
      snap.totalNotionalCents = (snap.byEvent.map EventExposure.notionalCostCents).sum ∧
      (∀ event ∈ snap.byEvent,
        let markets := tickers.filter fun ticker => eventTickerOf ticker == event.eventTicker
        event.realizedPnlCents = (markets.map om.realizedPnl).sum ∧
          event.unrealizedPnlCents = (markets.map (unrealized om marks)).sum ∧
          event.notionalCostCents = (markets.map om.positionCost).sum ∧ event.marketCount = markets.length) ∧
      snap.byEvent.Pairwise fun first second => second.notionalCostCents ≤ first.notionalCostCents := by
  intro snap
  have rolled := rolled_run om marks tickers
  have names := byEvent_names om marks walks tickers
  refine ⟨names.nodup_iff.mpr rolled.distinct, ?_, ?_, ?_, ?_, ?_, ?_, ?_⟩
  · intro event
    rw [names.mem_iff, rolled.covers, List.mem_map]
  · have counted : ∀ exposure ticker, (addMarket exposure (om.realizedPnl ticker) (unrealized om marks ticker)
        (om.positionCost ticker)).marketCount = exposure.marketCount + (fun _ : Ticker => (1 : Int)) ticker :=
      fun _ _ => rfl
    rw [byEvent_sum om marks walks (fun _ _ => rfl) rfl counted]
    simp
  -- each total is the sum over the events, as each market is added to one event
  · rw [byEvent_sum om marks walks (fun _ _ => rfl) rfl (fun _ _ => rfl)]
    exact rolled.realizedSum.trans (sumOver_eq_sum _ _)
  · rw [byEvent_sum om marks walks (fun _ _ => rfl) rfl (fun _ _ => rfl)]
    exact rolled.unrealizedSum.trans (sumOver_eq_sum _ _)
  · rw [byEvent_sum om marks walks (fun _ _ => rfl) rfl (fun _ _ => rfl)]
    exact rolled.notionalSum.trans (sumOver_eq_sum _ _)
  · intro event member markets
    rw [byEvent_amounts om marks walks tickers member]
    exact ⟨sumOver_eq_sum _ _, sumOver_eq_sum _ _, sumOver_eq_sum _ _, rfl⟩
  · apply (List.pairwise_insertionSort byNotionalDescending _).imp
    intro first second
    exact (byNotionalDescending_iff first second).mp

end

/-- Two strikes of one event, and a market that is an event of its own. -/
theorem rollUp_partitions_strikes :
    let fill : String → Ticker → Int → Int → Fill ℚ := fun id ticker price centi =>
      { tradeId := id, orderId := "o", marketTicker := ticker, side := .yes, priceCents := price, quantity := ⟨centi⟩,
        feeCents := 1, isTaker := false, timestamp := 0 }
    let om := ((OrderManager.empty.bookFill (fill "t1" "FED-T3" 40 1000)).bookFill
      (fill "t2" "FED-T4" 30 500)).bookFill
      (fill "t3" "RAIN" 60 2000)
    let snap := rollUp om List.reverse ["FED-T3", "RAIN", "FED-T4"] fun _ => some 50
    snap.byEvent.map EventExposure.eventTicker = ["RAIN", "FED"] ∧
      snap.totalNotionalCents = (snap.byEvent.map EventExposure.notionalCostCents).sum := by
  intro fill om snap
  obtain ⟨_, _, _, _, _, notional, _⟩ := rollUp_partitions om List.reverse_perm ["FED-T3", "RAIN", "FED-T4"] fun _ =>
    some 50
  exact ⟨by decide +kernel, notional⟩

end Portfolio
end Kalshi
