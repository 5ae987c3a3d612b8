import Mathlib.Data.List.Induction
import Mathlib.Tactic.LinearCombination
import KalshiMaker.Core.Floating
import KalshiMaker.Tooling.PnlAttribution

/-! Edge, drift and exit cost add up to the gain at the last mids. -/
namespace Kalshi
namespace PnlAttribution

section

variable [Elementary ℚ] (log : List (LogEvent ℚ))

/-- What fills have gained in dollars, each contract worth what its ticker's mark says. -/
def markedGain (marks : Ticker → ℚ) (fills : List (FillEvent ℚ)) : ℚ :=
  (fills.map fun fill => fill.qty * (native (marks fill.ticker) fill.side - (fill.price : ℚ)) / 100).sum

def signedOf (ticker : Ticker) (fills : List (FillEvent ℚ)) : ℚ :=
  ((fills.filter fun fill => fill.ticker = ticker).map FillEvent.signed).sum

/-- The mid at the last fill of a ticker. -/
def lastMid (fills : List (FillEvent ℚ)) (ticker : Ticker) : Option ℚ :=
  (fills.filter fun fill => fill.ticker = ticker).getLast?.bind (midAt log)

theorem native_sub (fill : FillEvent ℚ) (mid entered : ℚ) :
    fill.qty * (native mid fill.side - native entered fill.side) = fill.signed * (mid - entered) := by
  unfold FillEvent.signed native
  cases fill.side
  · rfl
  · dsimp only
    ring

/-- A new mark moves the gain of the contracts held by its distance. -/
theorem markedGain_update (marks : Ticker → ℚ) (ticker : Ticker) (mid : ℚ) (fills : List (FillEvent ℚ)) :
    markedGain (Function.update marks ticker mid) fills =
      markedGain marks fills + signedOf ticker fills * (mid - marks ticker) / 100 := by
  induction fills with
  | nil => simp [markedGain, signedOf]
  | cons fill fills ih =>
    unfold markedGain signedOf at ih ⊢
    rw [List.map_cons, List.map_cons, List.sum_cons, List.sum_cons, ih]
    by_cases same : fill.ticker = ticker
    · have moved := native_sub fill mid (marks ticker)
      rw [List.filter_cons_of_pos (by simpa using same), List.map_cons, List.sum_cons, same, Function.update_self]
      linear_combination moved / 100
    · rw [List.filter_cons_of_neg (by simpa using same), Function.update_of_ne same]
      ring

/-- What the attribution holds after some fills. -/
structure Settled (fills : List (FillEvent ℚ)) (state : Attribution ℚ) : Prop where
  inventory : ∀ ticker, state.inventory ticker = signedOf ticker fills
  entryMid : state.entryMid = lastMid log fills
  total : state.totals.total = markedGain (fun ticker => (lastMid log fills ticker).getD 0) fills

theorem signedOf_append (ticker : Ticker) (fills : List (FillEvent ℚ)) (fill : FillEvent ℚ) :
    signedOf ticker (fills ++ [fill]) = signedOf ticker fills + if fill.ticker = ticker then fill.signed else 0 := by
  unfold signedOf
  by_cases same : fill.ticker = ticker <;> simp [same]

theorem lastMid_append (fills : List (FillEvent ℚ)) (fill : FillEvent ℚ) :
    lastMid log (fills ++ [fill]) = Function.update (lastMid log fills) fill.ticker (midAt log fill) := by
  funext ticker
  unfold lastMid
  by_cases same : fill.ticker = ticker
  · subst same
    simp
  · rw [Function.update_of_ne (Ne.symm same)]
    simp [same]

/-- A ticker without a last mid has not been filled. -/
theorem signedOf_unfilled {fills : List (FillEvent ℚ)} (priced : ∀ fill ∈ fills, midAt log fill ≠ none)
    {ticker : Ticker}
    (absent : lastMid log fills ticker = none) : signedOf ticker fills = 0 := by
  unfold lastMid at absent
  unfold signedOf
  cases last : (fills.filter fun fill => fill.ticker = ticker).getLast? with
  | none => rw [List.getLast?_eq_none_iff.mp last, List.map_nil, List.sum_nil]
  | some fill =>
    rw [last] at absent
    have member := List.mem_of_mem_filter (List.mem_of_getLast? last)
    exact absurd absent (priced fill member)

theorem total_addEdge (totals : Totals ℚ) (fill : FillEvent ℚ) (edge : ℚ) :
    (totals.addEdge fill (some edge)).total = totals.total + edge * fill.qty / 100 := by
  unfold Totals.addEdge Totals.total
  cases fill.isTaker
  · change totals.entryEdge + edge * fill.qty / 100 + totals.drift + totals.exitCost = _
    ring
  · change totals.entryEdge + totals.drift + (totals.exitCost + edge * fill.qty / 100) = _
    ring

theorem total_addDrift (totals : Totals ℚ) {inventory : ℚ} {entered : Option ℚ} (mid : ℚ)
    (flat : entered = none → inventory = 0) :
    (totals.addDrift inventory entered (some mid)).total =
      totals.total + inventory * (mid - entered.getD 0) / 100 := by
  unfold Totals.addDrift
  cases entered with
  | none => simp [flat rfl]
  | some entered =>
    dsimp only [Option.getD_some]
    by_cases held : inventory = 0
    · subst held
      simp
    · rw [if_pos (by simpa using held)]
      unfold Totals.total
      change totals.entryEdge + (totals.drift + inventory * (mid - entered) / 100) + _ = _
      ring

/-- One fill: the drift of what is held so far, the edge of what is new. -/
theorem Settled.fill {fills : List (FillEvent ℚ)} {state : Attribution ℚ} (settled : Settled log fills state)
    (priced : ∀ fill ∈ fills, midAt log fill ≠ none) {fill : FillEvent ℚ} {mid : ℚ} (here : midAt log fill = some mid)
    (present : mid ≠ 0) : Settled log (fills ++ [fill]) (attributeFill log state fill) := by
  have edged : edge log fill = some (native mid fill.side - (fill.price : ℚ)) := by
    simp [edge, here, present]
  constructor
  case inventory =>
    intro ticker
    rw [signedOf_append]
    dsimp only [attributeFill]
    by_cases same : fill.ticker = ticker
    · subst same
      rw [Function.update_self, settled.inventory, if_pos rfl]
    · rw [Function.update_of_ne (Ne.symm same), settled.inventory, if_neg same, add_zero]
  case entryMid =>
    rw [lastMid_append, ← settled.entryMid]
    simp [attributeFill, here]
  case total =>
    -- a ticker without an entry mid was never filled, so nothing of it drifts
    have flat : state.entryMid fill.ticker = none → state.inventory fill.ticker = 0 := by
      intro absent
      rw [settled.inventory]
      exact signedOf_unfilled log priced (settled.entryMid ▸ absent)
    have marks : (fun ticker => (lastMid log (fills ++ [fill]) ticker).getD 0) =
        Function.update (fun ticker => (lastMid log fills ticker).getD 0) fill.ticker mid := by
      rw [lastMid_append]
      funext ticker
      by_cases same : ticker = fill.ticker
      · subst same
        simp [here]
      · simp [Function.update_of_ne same]
    calc (attributeFill log state fill).totals.total
        = state.totals.total + (native mid fill.side - (fill.price : ℚ)) * fill.qty / 100 +
            state.inventory fill.ticker * (mid - (state.entryMid fill.ticker).getD 0) / 100 := by
          dsimp only [attributeFill]
          rw [here, total_addDrift _ mid flat, edged, total_addEdge]
      _ = markedGain (Function.update (fun ticker => (lastMid log fills ticker).getD 0) fill.ticker mid) fills +
            fill.qty * (native mid fill.side - (fill.price : ℚ)) / 100 := by
          rw [markedGain_update, settled.total, settled.inventory, settled.entryMid]
          ring
      _ = _ := by
          rw [marks]
          simp [markedGain]

theorem settled_run (fills : List (FillEvent ℚ))
    (priced : ∀ fill ∈ fills, ∃ mid, midAt log fill = some mid ∧ mid ≠ 0) :
    Settled log fills (fills.foldl (attributeFill log) {}) := by
  induction fills using List.reverseRecOn with
  | nil =>
    refine ⟨fun _ => rfl, rfl, ?_⟩
    change (0 + 0 + 0 : ℚ) = 0
    norm_num
  | append_singleton fills fill ih =>
    rw [List.foldl_append]
    have earlier : ∀ fill ∈ fills, ∃ mid, midAt log fill = some mid ∧ mid ≠ 0 :=
      fun fill member => priced fill (List.mem_append_left _ member)
    obtain ⟨mid, here, present⟩ := priced fill (List.mem_append_right _ List.mem_cons_self)
    apply (ih earlier).fill log _ here present
    intro fill member
    obtain ⟨mid, here, _⟩ := earlier fill member
    simp [here]

/-- The three causes add up to the gain of all fills at the mid of each ticker's last. -/
theorem attribution_adds_up (priced : ∀ fill ∈ fills log, ∃ mid, midAt log fill = some mid ∧ mid ≠ 0) :
    (attribution log).totals.entryEdge + (attribution log).totals.drift + (attribution log).totals.exitCost =
      ((fills log).map fun fill =>
        fill.qty * (native ((lastMid log (fills log) fill.ticker).getD 0) fill.side - (fill.price : ℚ)) / 100).sum :=
  (settled_run log (fills log) priced).total

end

/-- Bought at 48 and held through a move of the mid, sold as a taker, and a fill of another market that has
only a quote to be measured against. -/
theorem attribution_adds_up_exit :
    let log : List (LogEvent ℚ) :=
      [.quote "N" ⟨1000, 30, 31⟩, .fill ⟨"M", 2000, .yes, 48, 5, false, some 50⟩,
        .fill ⟨"N", 3000, .no, 68, 2, false, none⟩,
        .fill ⟨"M", 9000, .no, 55, 5, true, some 46⟩]
    (attribution log).totals.entryEdge + (attribution log).totals.drift + (attribution log).totals.exitCost =
      -11 / 100 := by
  intro log
  have evaluated : ∀ fill ∈ fills log, midAt log fill ≠ none ∧ midAt log fill ≠ some 0 := by decide +kernel
  have priced : ∀ fill ∈ fills log, ∃ mid, midAt log fill = some mid ∧ mid ≠ 0 := by
    intro fill member
    obtain ⟨found, apart⟩ := evaluated fill member
    obtain ⟨mid, here⟩ := Option.ne_none_iff_exists'.mp found
    refine ⟨mid, here, ?_⟩
    rintro rfl
    exact apart here
  rw [attribution_adds_up log priced]
  decide +kernel

end PnlAttribution
end Kalshi
