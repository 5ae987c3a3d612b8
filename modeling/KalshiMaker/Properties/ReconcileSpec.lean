import KalshiMaker.App.Drift

/-! What a reconciliation reports: the tickers that disagree, each once, in order. -/
namespace Kalshi

variable {F : Type}

/-! ### Baselines -/

theorem positionIn_of_mem {positions : List MarketPosition} (once : (positions.map MarketPosition.ticker).Nodup)
    {position : MarketPosition} (member : position ∈ positions) :
    positionIn positions position.ticker = position.position := by
  have alone : positions.filter (fun other => other.ticker == position.ticker) = [position] := by
    induction positions with
    | nil => cases member
    | cons head rest ih =>
      obtain ⟨fresh, apart⟩ := List.nodup_cons.mp once
      rcases List.mem_cons.mp member with rfl | later
      · have others : rest.filter (fun other => other.ticker == position.ticker) = [] := by
          rw [List.filter_eq_nil_iff]
          intro other within same
          exact fresh (List.mem_map.mpr ⟨other, within, beq_iff_eq.mp same⟩)
        rw [List.filter_cons, if_pos (beq_self_eq_true _), others]
      · have different : (head.ticker == position.ticker) = false := by
          rw [beq_eq_false_iff_ne]
          intro same
          exact fresh (same ▸ List.mem_map_of_mem later)
        rw [List.filter_cons, different, if_neg Bool.false_ne_true]
        exact ih apart later
  unfold positionIn
  rw [alone]
  rfl

/-- A ticker's baseline counts where it is not tracked. -/
theorem countedBaseline_position {tickers : List Ticker} {baseline : List MarketPosition}
    (once : (baseline.map MarketPosition.ticker).Nodup) (ticker : Ticker) :
    positionIn (countedBaseline tickers baseline) ticker =
      if ticker ∈ tickers then {} else positionIn baseline ticker := by
  split
  next tracked => exact Quantity.ext_centi (countedBaseline_tracked tracked baseline)
  next untracked =>
    have still : ((countedBaseline tickers baseline).map MarketPosition.ticker).Nodup :=
      once.sublist (List.filter_sublist.map _)
    by_cases held : ∃ position ∈ baseline, position.ticker = ticker ∧ position.position.isZero = false
    · obtain ⟨position, member, rfl, moved⟩ := held
      have counted : position ∈ countedBaseline tickers baseline :=
        List.mem_filter.mpr ⟨member, by simp [moved, untracked]⟩
      rw [positionIn_of_mem still counted, positionIn_of_mem once member]
    · -- on both sides whatever is left of the ticker is zero
      have flat : ∀ positions : List MarketPosition, (∀ position ∈ positions, position ∈ baseline) →
          (positionIn positions ticker).centi = 0 := by
        intro positions among
        by_contra nonzero
        obtain ⟨position, member, here, moved⟩ := positionIn_nonzero nonzero
        exact held ⟨position, among position member, here, moved⟩
      have counted := flat (countedBaseline tickers baseline) fun _ member => (List.mem_filter.mp member).1
      exact Quantity.ext_centi (counted.trans (flat baseline fun _ member => member).symm)

/-! ### The report -/

/-- The three values of a ticker. -/
def positionsOf (om : OrderManager F) (tickers : List Ticker) (exchange baseline : List MarketPosition)
    (ticker : Ticker) : PositionDiff where
  ticker
  localPosition := om.netPosition ticker
  exchangePosition := positionIn exchange ticker
  baselinePosition := if ticker ∈ tickers then {} else positionIn baseline ticker

def PositionDiff.Disagrees (diff : PositionDiff) : Prop :=
  diff.localPosition + diff.baselinePosition ≠ diff.exchangePosition

instance (diff : PositionDiff) : Decidable diff.Disagrees :=
  inferInstanceAs (Decidable (diff.localPosition + diff.baselinePosition ≠ diff.exchangePosition))

theorem positionDiff_iff (om : OrderManager F) {tickers : List Ticker} (exchange : List MarketPosition)
    {baseline : List MarketPosition} (once : (baseline.map MarketPosition.ticker).Nodup) (ticker : Ticker)
    (diff : PositionDiff) : positionDiff om tickers exchange baseline ticker = some diff ↔
      diff = positionsOf om tickers exchange baseline ticker ∧ diff.Disagrees := by
  have read : positionDiff om tickers exchange baseline ticker =
      if (positionsOf om tickers exchange baseline ticker).Disagrees then
        some (positionsOf om tickers exchange baseline ticker)
      else none := by
    unfold positionDiff
    rw [countedBaseline_position once]
    rfl
  rw [read]
  by_cases disagrees : (positionsOf om tickers exchange baseline ticker).Disagrees
  · rw [if_pos disagrees, Option.some_inj]
    constructor
    · rintro rfl
      exact ⟨rfl, disagrees⟩
    · rintro ⟨rfl, _⟩
      rfl
  · rw [if_neg disagrees]
    constructor
    · nofun
    · rintro ⟨rfl, still⟩
      exact absurd still disagrees

theorem positionDiff_ticker {om : OrderManager F} {tickers : List Ticker} {exchange baseline : List MarketPosition}
    {ticker : Ticker} {diff : PositionDiff} (found : positionDiff om tickers exchange baseline ticker = some diff) :
    diff.ticker = ticker := by
  unfold positionDiff at found
  dsimp only at found
  split at found
  · cases found
    rfl
  · cases found

instance : Std.Total byTicker := ⟨fun left right => le_total left.ticker right.ticker⟩

instance : IsTrans PositionDiff byTicker := ⟨fun one two three => @le_trans _ _ one.ticker two.ticker three.ticker⟩

/-- The tickers checked are distinct, so the sorted differences are strictly sorted. -/
theorem reconcile_sorted (om : OrderManager F) (tickers : List Ticker) (exchange baseline : List MarketPosition) :
    (reconcile om tickers exchange baseline).diffs.Pairwise fun left right => left.ticker < right.ticker := by
  have distinct : ((toCheck tickers exchange baseline).filterMap (positionDiff om tickers exchange baseline)).Pairwise
      fun left right => left.ticker ≠ right.ticker := by
    rw [List.pairwise_filterMap]
    refine (List.nodup_dedup _).imp ?_
    intro one other apart left found right foundRight
    rw [positionDiff_ticker found, positionDiff_ticker foundRight]
    exact apart
  have sorted := List.pairwise_insertionSort byTicker
    ((toCheck tickers exchange baseline).filterMap (positionDiff om tickers exchange baseline))
  have apart := ((List.perm_insertionSort byTicker _).pairwise_iff fun same => same.symm).mpr distinct
  refine (sorted.and apart).imp ?_
  rintro left right ⟨ordered, different⟩
  exact lt_of_le_of_ne ordered different

/-- Where local positions are zero but for tracked tickers and such with a position at the exchange or in the baseline,
the report is in sync exactly if every ticker agrees, and lists exactly the others, in order. -/
theorem reconcile_reports (om : OrderManager F) (tickers : List Ticker) (exchange baseline : List MarketPosition)
    (once : (baseline.map MarketPosition.ticker).Nodup)
    (flat : ∀ ticker, ticker ∉ tickers → positionIn exchange ticker = {} → positionIn baseline ticker = {} →
      om.netPosition ticker = {}) :
    ((reconcile om tickers exchange baseline).inSync = true ↔
      ∀ ticker, ¬ (positionsOf om tickers exchange baseline ticker).Disagrees) ∧
    (∀ diff, diff ∈ (reconcile om tickers exchange baseline).diffs ↔
      diff = positionsOf om tickers exchange baseline diff.ticker ∧ diff.Disagrees) ∧
    (reconcile om tickers exchange baseline).diffs.Pairwise fun left right => left.ticker < right.ticker := by
  -- what is not checked is flat on every side, and so agrees
  have checked : ∀ ticker, (positionsOf om tickers exchange baseline ticker).Disagrees →
      ticker ∈ toCheck tickers exchange baseline := by
    intro ticker disagrees
    by_contra unchecked
    obtain ⟨untracked, exchangeFlat, counted⟩ := unchecked_flat unchecked
    rw [countedBaseline_position once, if_neg untracked] at counted
    have exchangeFlat : positionIn exchange ticker = {} := Quantity.ext_centi exchangeFlat
    have baselineFlat : positionIn baseline ticker = {} := Quantity.ext_centi counted
    apply disagrees
    unfold positionsOf
    dsimp only
    rw [if_neg untracked, flat ticker untracked exchangeFlat baselineFlat, exchangeFlat, baselineFlat]
    rfl
  have listed : ∀ diff, diff ∈ (reconcile om tickers exchange baseline).diffs ↔
      diff = positionsOf om tickers exchange baseline diff.ticker ∧ diff.Disagrees := by
    intro diff
    rw [mem_reconcile_diffs]
    constructor
    · rintro ⟨ticker, _, found⟩
      obtain ⟨read, disagrees⟩ := (positionDiff_iff om exchange once ticker diff).mp found
      rw [positionDiff_ticker found]
      exact ⟨read, disagrees⟩
    · rintro ⟨read, disagrees⟩
      refine ⟨diff.ticker, checked _ ?_, (positionDiff_iff om exchange once diff.ticker diff).mpr ⟨read, disagrees⟩⟩
      rw [← read]
      exact disagrees
  refine ⟨?_, listed, reconcile_sorted om tickers exchange baseline⟩
  have empty : (reconcile om tickers exchange baseline).inSync = true ↔
      (reconcile om tickers exchange baseline).diffs = [] := List.isEmpty_iff
  rw [empty, List.eq_nil_iff_forall_not_mem]
  constructor
  · intro absent ticker disagrees
    exact absent _ ((listed _).mpr ⟨rfl, disagrees⟩)
  · intro agree diff member
    obtain ⟨read, disagrees⟩ := (listed diff).mp member
    exact agree diff.ticker (read ▸ disagrees)

theorem reconcile_reports_external :
    let om : OrderManager ℚ := { OrderManager.empty with
      netPosition := fun ticker => if ticker = "M" then ⟨500⟩ else {} }
    let exchange : List MarketPosition := [⟨"N", ⟨300⟩⟩, ⟨"M", ⟨400⟩⟩]
    let baseline : List MarketPosition := [⟨"N", ⟨200⟩⟩]
    ((reconcile om ["M"] exchange baseline).inSync = true ↔
      ∀ ticker, ¬ (positionsOf om ["M"] exchange baseline ticker).Disagrees) ∧
    (∀ diff, diff ∈ (reconcile om ["M"] exchange baseline).diffs ↔
      diff = positionsOf om ["M"] exchange baseline diff.ticker ∧ diff.Disagrees) ∧
    (reconcile om ["M"] exchange baseline).diffs.Pairwise fun left right => left.ticker < right.ticker := by
  intro om exchange baseline
  refine reconcile_reports om ["M"] exchange baseline (by decide) fun ticker untracked _ _ => ?_
  exact if_neg fun same => untracked (List.mem_singleton.mpr same)

/-- A local position on a market that the exchange lists at zero is not looked at. -/
theorem zero_report_hides_position :
    let om : OrderManager ℚ := { OrderManager.empty with
      netPosition := fun ticker => if ticker = "M" then ⟨500⟩ else {} }
    let exchange : List MarketPosition := [⟨"M", {}⟩]
    (exchange.map MarketPosition.ticker).Nodup ∧ (∀ ticker ∉ exchange.map MarketPosition.ticker,
        om.netPosition ticker = {}) ∧
      (reconcile om [] exchange []).inSync = true ∧ (positionsOf om [] exchange [] "M").Disagrees := by
  intro om exchange
  refine ⟨by decide, fun ticker unreported => ?_, by decide +kernel, by decide +kernel⟩
  exact if_neg fun same => unreported (List.mem_singleton.mpr same)

end Kalshi
