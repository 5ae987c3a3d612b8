import KalshiMaker.Properties.FifoMatching

/-! The reporting functions of the order manager agree with each other and with the fills. -/
namespace Kalshi

open Fifo

namespace OrderManager

section

variable {F : Type}

/-- A YES mark seen from each side. -/
def nativeMark (yesMark : Int) : Side → Int
  | .yes => yesMark
  | .no => kContractMaxCents - yesMark

/-- What a contract of each side pays once `winner` has won. -/
def settlement (winner side : Side) : Int := if side = winner then kContractMaxCents else 0

def fillsOn (fills : List (Fill F)) (ticker : Ticker) : List (Fill F) :=
  fills.filter fun fill => decide (fill.marketTicker = ticker)

end

variable [Elementary ℚ]

def totalFees (fills : List (Fill ℚ)) (ticker : Ticker) : ℚ := ((fillsOn fills ticker).map Fill.feeCents).sum

/-- The fills of a market, each at the mark of its side. -/
def markedPnl (fills : List (Fill ℚ)) (ticker : Ticker) (mark : Side → Int) : ℚ :=
  ((fillsOn fills ticker).map fun fill =>
    (fill.quantity.contracts : ℚ) * ((mark fill.side : ℚ) - fill.priceCents)).sum

/-- The side a market is held on. -/
def heldSide (om : OrderManager ℚ) (ticker : Ticker) : Side :=
  if (om.netPosition ticker).centi < 0 then .no else .yes

/-- The worth of some lots at a mark, over their cost. -/
def markedLots (mark : Int) (lots : List Lot) : ℚ := (mark : ℚ) * ((total lots : Int) / 100) - worth lotCost lots

theorem markedLots_nil (mark : Int) : markedLots mark [] = 0 := by simp [markedLots]

theorem markedLots_append (mark : Int) (xs ys : List Lot) :
    markedLots mark (xs ++ ys) = markedLots mark xs + markedLots mark ys := by
  simp only [markedLots, total_append, worth_append]
  push_cast
  ring

theorem markedLots_lot (mark : Int) (lot : Lot) :
    markedLots mark [lot] = (lot.remaining.contracts : ℚ) * ((mark : ℚ) - lot.priceCents) := by
  simp only [markedLots, total_cons, total_nil, worth_cons, worth_nil, add_zero, lotCost, amount_lot, contracts_eq]
  ring

theorem markLots_eq (mark : Int) (lots : List Lot) (unrealized : ℚ) :
    markLots mark lots unrealized = unrealized + markedLots mark lots := by
  induction lots generalizing unrealized with
  | nil => simp [markLots, markedLots]
  | cons lot lots ih =>
    have first : ((mark - lot.priceCents : Int) : ℚ) * lot.remaining.contracts = markedLots mark [lot] := by
      rw [markedLots_lot]
      push_cast
      ring
    refine (ih _).trans ((congrArg (unrealized + · + markedLots mark lots) first).trans ?_)
    rw [add_assoc, ← markedLots_append]
    rfl

theorem unrealizedPnl_eq (om : OrderManager ℚ) (ticker : Ticker) (yesMark : Int) :
    om.unrealizedPnl ticker yesMark = markedLots (nativeMark yesMark .yes) (om.lots .yes ticker) +
      markedLots (nativeMark yesMark .no) (om.lots .no ticker) := by
  rw [unrealizedPnl, markLots_eq, markLots_eq, zero_add]
  rfl

omit [Elementary ℚ] in
theorem sumQuantity_eq (lots : List Lot) : sumQuantity lots = ⟨total lots⟩ := by
  have walk : ∀ start : Quantity,
      (lots.foldl (fun sum lot => sum + lot.remaining) start) = ⟨start.centi + total lots⟩ := by
    induction lots with
    | nil => exact fun start => Quantity.ext_centi (by simp)
    | cons lot lots ih =>
      intro start
      rw [List.foldl_cons, ih, total_cons, ← add_assoc]
      rfl
  exact (walk {}).trans (Quantity.ext_centi (zero_add _))

/-- The marked fills of a market, from its arrivals. -/
theorem markedPnl_eq (fills : List (Fill ℚ)) (ticker : Ticker) (mark : Side → Int) :
    markedPnl fills ticker mark = markedLots (mark .yes) (arrivals fills .yes ticker) +
      markedLots (mark .no) (arrivals fills .no ticker) := by
  induction fills using List.reverseRecOn with
  | nil => simp [markedPnl, fillsOn, markedLots, arrivals]
  | append_singleton fills fill ih =>
    have split : markedPnl (fills ++ [fill]) ticker mark = markedPnl fills ticker mark +
        (if fill.marketTicker = ticker then
          (fill.quantity.contracts : ℚ) * ((mark fill.side : ℚ) - fill.priceCents) else 0) := by
      unfold markedPnl fillsOn
      rw [List.filter_append, List.map_append, List.sum_append]
      by_cases here : fill.marketTicker = ticker <;> simp [here]
    rw [split, ih, arrivals_append, arrivals_append, markedLots_append, markedLots_append]
    have own : markedLots (mark fill.side) [fill.lot] =
        (fill.quantity.contracts : ℚ) * ((mark fill.side : ℚ) - fill.priceCents) :=
      markedLots_lot (mark fill.side) fill.lot
    by_cases here : fill.marketTicker = ticker
    · rw [if_pos here, ← own]
      cases fill.side <;> simp [here, markedLots_nil] <;> ring
    · simp [here, markedLots_nil]

omit [Elementary ℚ] in
theorem total_arrivals_sub (fills : List (Fill ℚ)) (ticker : Ticker) :
    (total (arrivals fills .yes ticker) - total (arrivals fills .no ticker) : Int) =
      ((fillsOn fills ticker).map fun fill => fill.side.toward fill.quantity.centi).sum := by
  induction fills using List.reverseRecOn with
  | nil => rfl
  | append_singleton fills fill ih =>
    have split : ((fillsOn (fills ++ [fill]) ticker).map fun fill => fill.side.toward fill.quantity.centi).sum =
        ((fillsOn fills ticker).map fun fill => fill.side.toward fill.quantity.centi).sum +
          if fill.marketTicker = ticker then fill.side.toward fill.quantity.centi else 0 := by
      unfold fillsOn
      rw [List.filter_append, List.map_append, List.sum_append]
      by_cases here : fill.marketTicker = ticker <;> simp [here]
    rw [split, ← ih, arrivals_append, arrivals_append, total_append, total_append]
    by_cases here : fill.marketTicker = ticker
    · cases fill.side <;> simp [here, Fill.lot, Side.toward] <;> omega
    · simp [here]

/-- Realized and unrealized PnL together are the marked fills less the fees: what was paired paid its
100 cents whatever the mark. -/
theorem Netted.marked {om : OrderManager ℚ} {fills : List (Fill ℚ)} (netted : om.Netted fills)
    (positive : ∀ fill ∈ fills, 0 < fill.quantity.centi) (ticker : Ticker) (yesMark : Int) :
    om.realizedPnl ticker + om.unrealizedPnl ticker yesMark =
      markedPnl fills ticker (nativeMark yesMark) - totalFees fills ticker := by
  have nonneg : ∀ side, 0 ≤ total (arrivals fills side ticker) := fun side =>
    total_nonneg (positive_arrivals positive side ticker)
  have left : ∀ side, total (om.lots side ticker) =
      total (arrivals fills side ticker) - pairedUnits fills ticker := by
    intro side
    rw [netted.lots]
    refine total_drop (positive_arrivals positive side ticker) (le_min (nonneg _) (nonneg _)) ?_
    rw [pairedUnits_side _ _ side]
    exact min_le_right _ _
  have fees : om.feesPaid ticker = totalFees fills ticker := netted.fees ticker
  have realized : om.realizedPnl ticker = om.realizedSpread ticker - om.feesPaid ticker := rfl
  rw [realized, netted.spread, fees, unrealizedPnl_eq, markedPnl_eq]
  simp only [markedLots, pairedCost, left, ← netted.lots]
  simp only [nativeMark, kContractMaxCents]
  push_cast
  ring

/-- Held on YES only, a market is worth its YES lots at 100 if it wins and at 0 if it loses. -/
theorem exposure_yes {om : OrderManager ℚ} {ticker : Ticker} (alone : om.lots .no ticker = [])
    (positive : Positive (om.lots .yes ticker)) :
    (om.exposureDecomposition ticker).eWinCents = om.unrealizedPnl ticker kContractMaxCents ∧
      (om.exposureDecomposition ticker).eLossCents = om.unrealizedPnl ticker 0 ∧
      om.positionCost ticker = -(om.exposureDecomposition ticker).eLossCents := by
  have longer : sumQuantity (om.lots .no ticker) ≤ sumQuantity (om.lots .yes ticker) := by
    rw [alone, sumQuantity_eq, sumQuantity_eq]
    exact total_nonneg positive
  have win : (om.exposureDecomposition ticker).eWinCents =
      (sumQuantity (om.lots .yes ticker)).contracts * ((kContractMaxCents : Int) : ℚ) -
        costLots (om.lots .yes ticker) 0 := by
    simp only [exposureDecomposition, if_pos longer]
  have loss : (om.exposureDecomposition ticker).eLossCents = -costLots (om.lots .yes ticker) 0 := by
    simp only [exposureDecomposition, if_pos longer]
  have cost : om.positionCost ticker = costLots (om.lots .yes ticker) 0 := by
    rw [positionCost, alone]
    rfl
  rw [win, loss, cost, unrealizedPnl_eq, unrealizedPnl_eq, alone, markedLots_nil, markedLots_nil, costLots_eq,
    sumQuantity_eq, contracts_eq]
  simp only [markedLots, nativeMark, kContractMaxCents]
  refine ⟨by push_cast; ring, by push_cast; ring, by ring⟩

/-- Held on NO only, it is worth its NO lots at 100 if it wins and at 0 if it loses. -/
theorem exposure_no {om : OrderManager ℚ} {ticker : Ticker} (alone : om.lots .yes ticker = [])
    (held : 0 < total (om.lots .no ticker)) :
    (om.exposureDecomposition ticker).eWinCents = om.unrealizedPnl ticker 0 ∧
      (om.exposureDecomposition ticker).eLossCents = om.unrealizedPnl ticker kContractMaxCents ∧
      om.positionCost ticker = -(om.exposureDecomposition ticker).eLossCents := by
  have longer : ¬ sumQuantity (om.lots .no ticker) ≤ sumQuantity (om.lots .yes ticker) := by
    rw [alone, sumQuantity_eq, sumQuantity_eq]
    exact held.not_ge
  have win : (om.exposureDecomposition ticker).eWinCents =
      (sumQuantity (om.lots .no ticker)).contracts * ((kContractMaxCents : Int) : ℚ) -
        costLots (om.lots .no ticker) 0 := by
    simp only [exposureDecomposition, if_neg longer]
  have loss : (om.exposureDecomposition ticker).eLossCents = -costLots (om.lots .no ticker) 0 := by
    simp only [exposureDecomposition, if_neg longer]
  have cost : om.positionCost ticker = costLots (om.lots .no ticker) 0 := by
    rw [positionCost, alone]
    rfl
  rw [win, loss, cost, unrealizedPnl_eq, unrealizedPnl_eq, alone, markedLots_nil, markedLots_nil, costLots_eq,
    sumQuantity_eq, contracts_eq]
  simp only [markedLots, nativeMark, kContractMaxCents]
  refine ⟨by push_cast; ring, by push_cast; ring, by ring⟩

/-- What a market's reports come to, in terms of its fills. -/
structure Reconciles (om : OrderManager ℚ) (fills : List (Fill ℚ)) (ticker : Ticker) : Prop where
  marked : ∀ yesMark : Int, om.realizedPnl ticker + om.unrealizedPnl ticker yesMark =
    markedPnl fills ticker (nativeMark yesMark) - totalFees fills ticker
  won : om.realizedPnl ticker + (om.exposureDecomposition ticker).eWinCents =
    markedPnl fills ticker (settlement (om.heldSide ticker)) - totalFees fills ticker
  lost : om.realizedPnl ticker + (om.exposureDecomposition ticker).eLossCents =
    markedPnl fills ticker (settlement (om.heldSide ticker).opposite) - totalFees fills ticker
  cost : om.positionCost ticker = -(om.exposureDecomposition ticker).eLossCents
  inventory : (om.exposureDecomposition ticker).netInventory = om.netPosition ticker

omit [Elementary ℚ] in
theorem settlement_yes : settlement .yes = nativeMark kContractMaxCents := by
  funext side
  cases side <;> rfl

omit [Elementary ℚ] in
theorem settlement_no : settlement .no = nativeMark 0 := by
  funext side
  cases side <;> rfl

theorem Netted.reconciles {om : OrderManager ℚ} {fills : List (Fill ℚ)} (netted : om.Netted fills)
    (positive : ∀ fill ∈ fills, 0 < fill.quantity.centi) (ticker : Ticker) : om.Reconciles fills ticker := by
  have closed := netted.closedForm positive ticker
  have marked := netted.marked positive ticker
  -- at most one of the two queues holds lots, the one of the held side
  have inventory : (om.exposureDecomposition ticker).netInventory = om.netPosition ticker := by
    have net : (om.exposureDecomposition ticker).netInventory =
        sumQuantity (om.lots .yes ticker) - sumQuantity (om.lots .no ticker) := rfl
    refine Quantity.ext_centi ?_
    rw [net, sumQuantity_eq, sumQuantity_eq, closed.position, Quantity.sub_centi]
    rcases le_total (total (arrivals fills .no ticker)) (total (arrivals fills .yes ticker)) with long | short
    · obtain ⟨none, rest⟩ := closed.yesOnly long
      simp [none, rest]
    · obtain ⟨none, rest⟩ := closed.noOnly short
      simp [none, rest]
  by_cases short : (om.netPosition ticker).centi < 0
  · have held : om.heldSide ticker = .no := if_pos short
    have less : total (arrivals fills .yes ticker) < total (arrivals fills .no ticker) := by
      rw [closed.position] at short
      exact sub_neg.mp short
    obtain ⟨alone, rest⟩ := closed.noOnly less.le
    obtain ⟨win, loss, cost⟩ := exposure_no alone (rest ▸ sub_pos.mpr less)
    refine ⟨marked, ?_, ?_, cost, inventory⟩
    · rw [win, held, settlement_no]
      exact marked 0
    · rw [loss, held, show Side.no.opposite = .yes from rfl, settlement_yes]
      exact marked kContractMaxCents
  · have held : om.heldSide ticker = .yes := if_neg short
    have more : total (arrivals fills .no ticker) ≤ total (arrivals fills .yes ticker) := by
      rw [closed.position] at short
      exact sub_nonneg.mp (not_lt.mp short)
    obtain ⟨win, loss, cost⟩ := exposure_yes (closed.yesOnly more).1 (closed.positive .yes)
    refine ⟨marked, ?_, ?_, cost, inventory⟩
    · rw [win, held, settlement_yes]
      exact marked kContractMaxCents
    · rw [loss, held, show Side.yes.opposite = .no from rfl, settlement_no]
      exact marked 0

/-- The reports of a market agree with its fills and with each other; and what it is worth at a mark
does not depend on the order of the fills. -/
theorem reports_reconcile (fills : List (Fill ℚ)) (valid : ∀ fill ∈ fills, checkFill fill = .ok ())
    (distinct : (fills.map fillKey).Nodup) (ticker : Ticker) :
    ((empty : OrderManager ℚ).recordAll fills).Reconciles fills ticker ∧
    ∀ fills' : List (Fill ℚ), fills'.Perm fills → ∀ yesMark : Int,
      ((empty : OrderManager ℚ).recordAll fills').realizedPnl ticker +
          ((empty : OrderManager ℚ).recordAll fills').unrealizedPnl ticker yesMark =
        ((empty : OrderManager ℚ).recordAll fills).realizedPnl ticker +
          ((empty : OrderManager ℚ).recordAll fills).unrealizedPnl ticker yesMark := by
  have reconciles : ∀ fills : List (Fill ℚ), (∀ fill ∈ fills, checkFill fill = .ok ()) →
      (fills.map fillKey).Nodup → ((empty : OrderManager ℚ).recordAll fills).Reconciles fills ticker :=
    fun fills valid distinct => (recordAll_netted valid distinct).reconciles
      (fun fill among => positive_of_checkFill (valid fill among)) ticker
  refine ⟨reconciles fills valid distinct, fun fills' shuffled yesMark => ?_⟩
  have there := (reconciles fills' (fun fill among => valid fill (shuffled.mem_iff.mp among))
    ((shuffled.map fillKey).nodup_iff.mpr distinct)).marked yesMark
  rw [there, (reconciles fills valid distinct).marked]
  have onMarket := shuffled.filter fun fill => decide (fill.marketTicker = ticker)
  exact congrArg₂ (· - ·) (onMarket.map _).sum_eq (onMarket.map _).sum_eq

end OrderManager

open OrderManager in
/-- A YES position cut by a NO fill, with a fee. -/
theorem reports_reconcile_cut :
    let fill (trade : String) (side : Side) (priceCents centi : Int) : Fill ℚ :=
      { tradeId := trade, orderId := "order", marketTicker := "M", side, priceCents, quantity := ⟨centi⟩,
        feeCents := 1, isTaker := false, timestamp := 0 }
    let fills := [fill "a" .yes 40 200, fill "b" .no 55 150]
    ((empty : OrderManager ℚ).recordAll fills).Reconciles fills "M" := by
  intro fill fills
  exact (reports_reconcile fills (by decide +kernel) (by decide +kernel) "M").1

end Kalshi
