import KalshiMaker.Exchange.LotMatching
import Mathlib.Data.List.Induction

/-! What a sequence of fills leaves of a market, in closed form: the first units of both sides are
paired off, and the rest of the longer side is the inventory. -/
namespace Kalshi

open Fifo

variable {F : Type}

/-- The lots filled on one side of a market, in order of arrival. -/
def arrivals (fills : List (Fill F)) (side : Side) (ticker : Ticker) : List Lot :=
  (fills.filter fun fill => decide (fill.marketTicker = ticker ∧ fill.side = side)).map Fill.lot

/-- The centi-contracts filled on both sides. -/
def pairedUnits (fills : List (Fill F)) (ticker : Ticker) : Int :=
  min (total (arrivals fills .yes ticker)) (total (arrivals fills .no ticker))

theorem pairedUnits_side (fills : List (Fill F)) (ticker : Ticker) (side : Side) :
    pairedUnits fills ticker =
      min (total (arrivals fills side.opposite ticker)) (total (arrivals fills side ticker)) := by
  cases side
  · exact min_comm _ _
  · rfl

theorem arrivals_append (fills : List (Fill F)) (fill : Fill F) (side : Side) (ticker : Ticker) :
    arrivals (fills ++ [fill]) side ticker = arrivals fills side ticker ++
      if fill.marketTicker = ticker ∧ fill.side = side then [fill.lot] else [] := by
  unfold arrivals
  rw [List.filter_append, List.map_append]
  split
  next here => simp [here]
  next elsewhere => simp [elsewhere]

theorem positive_arrivals {fills : List (Fill F)} (positive : ∀ fill ∈ fills, 0 < fill.quantity.centi)
    (side : Side) (ticker : Ticker) : Positive (arrivals fills side ticker) := by
  intro lot member
  obtain ⟨fill, among, rfl⟩ := List.mem_map.mp member
  exact positive fill (List.mem_of_mem_filter among)

theorem pairedUnits_append_ne (fills : List (Fill F)) {fill : Fill F} {ticker : Ticker}
    (other : ticker ≠ fill.marketTicker) :
    pairedUnits (fills ++ [fill]) ticker = pairedUnits fills ticker ∧
      ∀ side, arrivals (fills ++ [fill]) side ticker = arrivals fills side ticker := by
  have same : ∀ side, arrivals (fills ++ [fill]) side ticker = arrivals fills side ticker := by
    intro side
    rw [arrivals_append, if_neg (fun here => other here.1.symm), List.append_nil]
  exact ⟨by rw [pairedUnits, pairedUnits, same, same], same⟩

/-- On its own market and side a fill joins the arrivals; the opposing ones stay. -/
theorem arrivals_append_own (fills : List (Fill F)) (fill : Fill F) :
    arrivals (fills ++ [fill]) fill.side fill.marketTicker =
        arrivals fills fill.side fill.marketTicker ++ [fill.lot] ∧
      arrivals (fills ++ [fill]) fill.side.opposite fill.marketTicker =
        arrivals fills fill.side.opposite fill.marketTicker := by
  have apart : fill.side ≠ fill.side.opposite := by cases fill.side <;> nofun
  constructor
  · rw [arrivals_append, if_pos ⟨rfl, rfl⟩]
  · rw [arrivals_append, if_neg (fun here => apart here.2), List.append_nil]

namespace OrderManager

theorem positive_of_checkFill {fill : Fill F} (valid : checkFill fill = .ok ()) : 0 < fill.quantity.centi := by
  unfold checkFill at valid
  split at valid
  · cases valid
  · split at valid
    · cases valid
    next positive => simpa using positive

variable [Elementary ℚ]

/-- The state after fills that all pass their checks. -/
def recordAll (om : OrderManager ℚ) (fills : List (Fill ℚ)) : OrderManager ℚ :=
  fills.foldl (fun om fill => (om.recorded fill).2) om

/-- What the units a side has left paid off of it cost. -/
def pairedCost (fills : List (Fill ℚ)) (ticker : Ticker) (side : Side) : ℚ :=
  worth lotCost (arrivals fills side ticker) -
    worth lotCost (drop (pairedUnits fills ticker) (arrivals fills side ticker))

/-- The books after some fills, market by market. -/
structure Netted (om : OrderManager ℚ) (fills : List (Fill ℚ)) : Prop where
  lots : ∀ side ticker, om.lots side ticker = drop (pairedUnits fills ticker) (arrivals fills side ticker)
  spread : ∀ ticker, om.realizedSpread ticker =
    pairedUnits fills ticker - (pairedCost fills ticker .yes + pairedCost fills ticker .no)
  position : ∀ ticker, (om.netPosition ticker).centi =
    total (arrivals fills .yes ticker) - total (arrivals fills .no ticker)
  fees : ∀ ticker, om.feesPaid ticker =
    ((fills.filter fun fill => decide (fill.marketTicker = ticker)).map Fill.feeCents).sum
  seen : ∀ key, key ∈ om.seenFills ↔ key ∈ fills.map fillKey

/-- A new fill moves the queues of its market to the next cut of their arrivals. -/
theorem Netted.bookFill_lots {om : OrderManager ℚ} {fills : List (Fill ℚ)} {fill : Fill ℚ}
    (netted : om.Netted fills) (positive : ∀ fill ∈ fills, 0 < fill.quantity.centi)
    (fresh : 0 < fill.quantity.centi) (side : Side) :
    (om.bookFill fill).lots side fill.marketTicker =
      drop (pairedUnits (fills ++ [fill]) fill.marketTicker)
        (arrivals (fills ++ [fill]) side fill.marketTicker) := by
  obtain ⟨own, opposing⟩ := arrivals_append_own fills fill
  have opposed : Positive (om.lots fill.side.opposite fill.marketTicker) := by
    rw [netted.lots]
    exact positive_drop _ (positive_arrivals positive _ _)
  have both := om.bookFill_lots fresh opposed
  rw [netted.lots, netted.lots, pairedUnits_side fills _ fill.side, net_eq_drop (show 0 < amount fill.lot from fresh)
    (positive_arrivals positive _ _) (positive_arrivals positive _ _), Prod.mk.injEq] at both
  have next : pairedUnits (fills ++ [fill]) fill.marketTicker =
      min (total (arrivals fills fill.side.opposite fill.marketTicker))
        (total (arrivals fills fill.side fill.marketTicker) + amount fill.lot) := by
    rw [pairedUnits_side _ _ fill.side, own, opposing, total_append, total_cons, total_nil, add_zero]
  rw [next]
  -- on the fill's own side the remainder joins the queue; on the other the queue is cut
  by_cases same : side = fill.side
  · rw [same, own]
    exact both.2
  · have flipped : side = fill.side.opposite := by
      revert same
      cases side <;> cases fill.side <;> simp [Side.opposite]
    rw [flipped, opposing]
    exact both.1

theorem pairedCost_sides (fills : List (Fill ℚ)) (ticker : Ticker) (side : Side) :
    pairedCost fills ticker .yes + pairedCost fills ticker .no =
      pairedCost fills ticker side.opposite + pairedCost fills ticker side := by
  cases side
  · exact add_comm _ _
  · rfl

/-- The units a new fill is paired with. -/
theorem Netted.pairedUnits_step {om : OrderManager ℚ} {fills : List (Fill ℚ)} {fill : Fill ℚ}
    (netted : om.Netted fills) (positive : ∀ fill ∈ fills, 0 < fill.quantity.centi)
    (fresh : 0 < fill.quantity.centi) :
    pairedUnits (fills ++ [fill]) fill.marketTicker = pairedUnits fills fill.marketTicker +
      min fill.quantity.centi (total (om.lots fill.side.opposite fill.marketTicker)) := by
  obtain ⟨own, opposing⟩ := arrivals_append_own fills fill
  have opposed := positive_arrivals positive fill.side.opposite fill.marketTicker
  have cutNonneg : 0 ≤ pairedUnits fills fill.marketTicker :=
    le_min (total_nonneg (positive_arrivals positive _ _)) (total_nonneg (positive_arrivals positive _ _))
  have within : pairedUnits fills fill.marketTicker ≤
      total (arrivals fills fill.side.opposite fill.marketTicker) := by
    rw [pairedUnits_side _ _ fill.side]
    exact min_le_left _ _
  rw [netted.lots, total_drop opposed cutNonneg within, pairedUnits_side _ _ fill.side,
    pairedUnits_side fills _ fill.side, own, opposing, total_append, total_cons, total_nil, add_zero]
  exact matched_step fresh

theorem Netted.bookFill_spread {om : OrderManager ℚ} {fills : List (Fill ℚ)} {fill : Fill ℚ}
    (netted : om.Netted fills) (positive : ∀ fill ∈ fills, 0 < fill.quantity.centi)
    (fresh : 0 < fill.quantity.centi) :
    (om.bookFill fill).realizedSpread fill.marketTicker =
      pairedUnits (fills ++ [fill]) fill.marketTicker -
        (pairedCost (fills ++ [fill]) fill.marketTicker .yes +
          pairedCost (fills ++ [fill]) fill.marketTicker .no) := by
  obtain ⟨own, opposing⟩ := arrivals_append_own fills fill
  have opposed : Positive (om.lots fill.side.opposite fill.marketTicker) := by
    rw [netted.lots]
    exact positive_drop _ (positive_arrivals positive _ _)
  have both := om.bookFill_lots fresh opposed
  have opposingQueue : (om.bookFill fill).lots fill.side.opposite fill.marketTicker =
      drop fill.quantity.centi (om.lots fill.side.opposite fill.marketTicker) := congrArg Prod.fst both
  have ownQueue : (om.bookFill fill).lots fill.side fill.marketTicker =
      (net (om.lots fill.side.opposite fill.marketTicker) (om.lots fill.side fill.marketTicker)
        fill.lot).2 := congrArg Prod.snd both
  have units := netted.pairedUnits_step positive fresh
  set matched := min fill.quantity.centi (total (om.lots fill.side.opposite fill.marketTicker)) with cut
  -- what the match leaves on the opposing side, and what joins the fill's own
  have opposingLeft : worth lotCost (drop fill.quantity.centi (om.lots fill.side.opposite fill.marketTicker)) =
      worth lotCost (drop (pairedUnits (fills ++ [fill]) fill.marketTicker)
        (arrivals (fills ++ [fill]) fill.side.opposite fill.marketTicker)) := by
    rw [← netted.bookFill_lots positive fresh, opposingQueue]
  have joined : worth lotCost (drop (pairedUnits (fills ++ [fill]) fill.marketTicker)
        (arrivals (fills ++ [fill]) fill.side fill.marketTicker)) =
      worth lotCost (om.lots fill.side fill.marketTicker) +
        (fill.priceCents : ℚ) * ((fill.quantity.centi - matched) / 100) := by
    rw [← netted.bookFill_lots positive fresh, ownQueue, worth_net lotCost_additive]
    congr 1
    change (fill.priceCents : ℚ) * (⟨fill.quantity.centi - matched⟩ : Quantity).contracts = _
    rw [contracts_eq]
    push_cast
    rfl
  have booked : (om.bookFill fill).realizedSpread fill.marketTicker =
      om.realizedSpread fill.marketTicker + (100 - (fill.priceCents : ℚ)) * ((matched : Int) / 100) -
        (worth lotCost (om.lots fill.side.opposite fill.marketTicker) -
          worth lotCost (drop fill.quantity.centi (om.lots fill.side.opposite fill.marketTicker))) := by
    rw [cut, ← matchLots_spread _ _ _ opposed fresh.le]
    exact Function.update_self _ _ _
  have own_cost : lotCost fill.lot = (fill.priceCents : ℚ) * (fill.quantity.centi / 100) := by
    rw [← contracts_eq]
    rfl
  rw [booked, netted.spread, pairedCost_sides fills _ fill.side,
    pairedCost_sides (fills ++ [fill]) _ fill.side]
  unfold pairedCost
  rw [← opposingLeft, joined, own, opposing, worth_append, worth_cons, worth_nil, own_cost,
    ← netted.lots, ← netted.lots, units]
  push_cast
  ring

theorem Netted.bookFill {om : OrderManager ℚ} {fills : List (Fill ℚ)} {fill : Fill ℚ}
    (netted : om.Netted fills) (positive : ∀ fill ∈ fills, 0 < fill.quantity.centi)
    (fresh : 0 < fill.quantity.centi) : (om.bookFill fill).Netted (fills ++ [fill]) where
  lots side ticker := by
    by_cases here : ticker = fill.marketTicker
    · subst here
      exact netted.bookFill_lots positive fresh side
    · obtain ⟨units, same⟩ := pairedUnits_append_ne fills here
      rw [om.bookFill_lots_ne fill here, units, same]
      exact netted.lots side ticker
  spread ticker := by
    by_cases here : ticker = fill.marketTicker
    · subst here
      exact netted.bookFill_spread positive fresh
    · obtain ⟨units, same⟩ := pairedUnits_append_ne fills here
      simp only [pairedCost, units, same]
      exact (Function.update_of_ne here _ _).trans (netted.spread ticker)
  position ticker := by
    by_cases here : ticker = fill.marketTicker
    · subst here
      have booked : ((om.bookFill fill).netPosition fill.marketTicker).centi =
          (om.netPosition fill.marketTicker).centi +
            (if fill.side = .yes then fill.quantity else -fill.quantity).centi :=
        congrArg Quantity.centi (Function.update_self _ _ _)
      rw [booked, netted.position, arrivals_append, arrivals_append]
      cases fill.side <;> simp [Fill.lot, amount_lot] <;> omega
    · obtain ⟨_, same⟩ := pairedUnits_append_ne fills here
      rw [same, same, ← netted.position]
      exact congrArg Quantity.centi (Function.update_of_ne here _ _)
  fees ticker := by
    rw [List.filter_append, List.map_append, List.sum_append, ← netted.fees]
    by_cases here : fill.marketTicker = ticker
    · subst here
      refine (Function.update_self _ _ _).trans ?_
      simp
    · refine (Function.update_of_ne (Ne.symm here) _ _).trans ?_
      simp [here]
  seen key := by
    rw [List.map_append, List.mem_append, ← netted.seen key]
    exact List.mem_cons.trans (by simp [or_comm])

theorem empty_netted : (empty : OrderManager ℚ).Netted [] where
  lots _ _ := rfl
  spread _ := by simp [empty, pairedCost, pairedUnits, arrivals]
  position _ := rfl
  fees _ := rfl
  seen _ := Iff.rfl

/-- Fills that pass their checks under distinct keys are netted one by one. -/
theorem recordAll_netted {fills : List (Fill ℚ)} (valid : ∀ fill ∈ fills, checkFill fill = .ok ())
    (distinct : (fills.map fillKey).Nodup) : ((empty : OrderManager ℚ).recordAll fills).Netted fills := by
  induction fills using List.reverseRecOn with
  | nil => exact empty_netted
  | append_singleton fills fill ih =>
    have earlier : ∀ fill ∈ fills, checkFill fill = .ok () := fun other among =>
      valid other (List.mem_append_left _ among)
    rw [List.map_append, List.nodup_append] at distinct
    have netted := ih earlier distinct.1
    have new : fillKey fill ∉ ((empty : OrderManager ℚ).recordAll fills).seenFills := by
      rw [netted.seen]
      exact fun seen => distinct.2.2 _ seen _ (by simp) rfl
    have recorded : (empty : OrderManager ℚ).recordAll (fills ++ [fill]) =
        ((empty : OrderManager ℚ).recordAll fills).bookFill fill := by
      rw [recordAll, List.foldl_append]
      exact congrArg Prod.snd (if_neg new)
    rw [recorded]
    refine netted.bookFill (fun other among => positive_of_checkFill (earlier other among)) ?_
    exact positive_of_checkFill (valid fill (by simp))

/-- What a market comes to, from the arrivals on its two sides alone. -/
structure ClosedForm (om : OrderManager ℚ) (ticker : Ticker) (yes no : List Lot) : Prop where
  spread : om.realizedSpread ticker = 100 * (⟨min (total yes) (total no)⟩ : Quantity).contracts -
    costLots (take (min (total yes) (total no)) yes) 0 - costLots (take (min (total yes) (total no)) no) 0
  yesLots : om.lots .yes ticker = drop (min (total yes) (total no)) yes
  noLots : om.lots .no ticker = drop (min (total yes) (total no)) no
  yesOnly : total no ≤ total yes →
    om.lots .no ticker = [] ∧ total (om.lots .yes ticker) = total yes - total no
  noOnly : total yes ≤ total no →
    om.lots .yes ticker = [] ∧ total (om.lots .no ticker) = total no - total yes
  positive : ∀ side, Positive (om.lots side ticker)
  position : om.netPosition ticker = ⟨total yes - total no⟩

theorem Netted.closedForm {om : OrderManager ℚ} {fills : List (Fill ℚ)} (netted : om.Netted fills)
    (positive : ∀ fill ∈ fills, 0 < fill.quantity.centi) (ticker : Ticker) :
    om.ClosedForm ticker (arrivals fills .yes ticker) (arrivals fills .no ticker) where
  spread := by
    have paired : ∀ side, pairedCost fills ticker side =
        costLots (take (pairedUnits fills ticker) (arrivals fills side ticker)) 0 := by
      intro side
      rw [costLots_eq, zero_add, pairedCost,
        ← worth_take_drop lotCost_additive (pairedUnits fills ticker) (arrivals fills side ticker)]
      ring
    rw [netted.spread, paired, paired, contracts_eq]
    unfold pairedUnits
    push_cast
    ring
  yesLots := netted.lots .yes ticker
  noLots := netted.lots .no ticker
  yesOnly covers := by
    have units : pairedUnits fills ticker = total (arrivals fills .no ticker) := min_eq_right covers
    rw [netted.lots, netted.lots, units]
    refine ⟨drop_all (positive_arrivals positive _ _) le_rfl, ?_⟩
    exact total_drop (positive_arrivals positive _ _) (total_nonneg (positive_arrivals positive _ _)) covers
  noOnly covers := by
    have units : pairedUnits fills ticker = total (arrivals fills .yes ticker) := min_eq_left covers
    rw [netted.lots, netted.lots, units]
    refine ⟨drop_all (positive_arrivals positive _ _) le_rfl, ?_⟩
    exact total_drop (positive_arrivals positive _ _) (total_nonneg (positive_arrivals positive _ _)) covers
  positive side := by
    rw [netted.lots]
    exact positive_drop _ (positive_arrivals positive side ticker)
  position := Quantity.ext_centi (netted.position ticker)

/-- The spread and the open lots of a market are a function of the arrivals on its two sides, however
these are interleaved with each other and with other markets' fills. -/
theorem fifo_matching_closed_form (fills : List (Fill ℚ)) (valid : ∀ fill ∈ fills, checkFill fill = .ok ())
    (distinct : (fills.map fillKey).Nodup) (ticker : Ticker) :
    ((empty : OrderManager ℚ).recordAll fills).ClosedForm ticker (arrivals fills .yes ticker)
      (arrivals fills .no ticker) ∧
    ∀ fills' : List (Fill ℚ), (∀ fill ∈ fills', checkFill fill = .ok ()) → (fills'.map fillKey).Nodup →
      (∀ side, arrivals fills' side ticker = arrivals fills side ticker) →
      ((empty : OrderManager ℚ).recordAll fills').realizedSpread ticker =
          ((empty : OrderManager ℚ).recordAll fills).realizedSpread ticker ∧
        ∀ side, ((empty : OrderManager ℚ).recordAll fills').lots side ticker =
          ((empty : OrderManager ℚ).recordAll fills).lots side ticker := by
  have closed : ∀ fills : List (Fill ℚ), (∀ fill ∈ fills, checkFill fill = .ok ()) →
      (fills.map fillKey).Nodup → ((empty : OrderManager ℚ).recordAll fills).ClosedForm ticker
        (arrivals fills .yes ticker) (arrivals fills .no ticker) := fun fills valid distinct =>
    (recordAll_netted valid distinct).closedForm (fun fill among => positive_of_checkFill (valid fill among)) ticker
  refine ⟨closed fills valid distinct, fun fills' valid' distinct' same => ?_⟩
  have here := closed fills valid distinct
  have there := closed fills' valid' distinct'
  rw [same, same] at there
  refine ⟨there.spread.trans here.spread.symm, fun side => ?_⟩
  cases side
  · exact there.yesLots.trans here.yesLots.symm
  · exact there.noLots.trans here.noLots.symm

end OrderManager

open OrderManager in
/-- Two YES lots against one larger NO lot. -/
theorem fifo_matching_closed_form_flip :
    let fill (trade : String) (side : Side) (priceCents centi : Int) : Fill ℚ :=
      { tradeId := trade, orderId := "order", marketTicker := "M", side, priceCents, quantity := ⟨centi⟩,
        feeCents := 0, isTaker := false, timestamp := 0 }
    let fills := [fill "a" .yes 40 200, fill "b" .no 55 300, fill "c" .yes 30 50]
    ((empty : OrderManager ℚ).recordAll fills).ClosedForm "M" [⟨40, ⟨200⟩⟩, ⟨30, ⟨50⟩⟩] [⟨55, ⟨300⟩⟩] := by
  intro fill fills
  have yes : arrivals fills .yes "M" = [⟨40, ⟨200⟩⟩, ⟨30, ⟨50⟩⟩] := by decide +kernel
  have no : arrivals fills .no "M" = [⟨55, ⟨300⟩⟩] := by decide +kernel
  have closed := (fifo_matching_closed_form fills (by decide +kernel) (by decide +kernel) "M").1
  rw [yes, no] at closed
  exact closed

end Kalshi
