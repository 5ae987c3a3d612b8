import KalshiMaker.Exchange.OrderManager
import Mathlib.Tactic.Ring
import Mathlib.Tactic.FieldSimp
import Mathlib.Tactic.Linarith

/-! The matching loop of the order manager nets two queues of lots, first in first out. -/
namespace Kalshi

open Fifo

variable {F : Type} [Floating F]

def Fill.lot (fill : Fill F) : Lot := ⟨fill.priceCents, fill.quantity⟩

namespace OrderManager

@[simp] theorem amount_lot (lot : Lot) : (amount lot : Int) = lot.remaining.centi := rfl

/-- What is left of the incoming quantity, and of the opposing lots. -/
theorem matchLots_queue (price : Int) (remaining : Quantity) (spread : F) {lots : List Lot}
    (positive : Positive lots) (nonneg : 0 ≤ remaining.centi) :
    (matchLots price remaining spread lots).1.centi = remaining.centi - min remaining.centi (total lots) ∧
      (matchLots price remaining spread lots).2.2 = drop remaining.centi lots := by
  induction lots generalizing remaining spread with
  | nil =>
    refine ⟨?_, rfl⟩
    simp [matchLots, nonneg]
  | cons front rest ih =>
    rw [positive_cons, amount_lot] at positive
    have restNonneg := total_nonneg positive.2
    rw [total_cons, amount_lot]
    unfold matchLots drop
    by_cases present : 0 < remaining.centi
    · rw [if_pos ((Quantity.isPositive_iff _).mpr present), if_neg present.not_ge]
      dsimp only
      by_cases whole : front.remaining.centi ≤ remaining.centi
      · -- the front lot is used up
        have used : (front.remaining - Quantity.min remaining front.remaining).isZero = true := by
          simp [whole]
        rw [if_pos used, if_pos (by simpa using whole)]
        obtain ⟨left, queue⟩ := ih (remaining - Quantity.min remaining front.remaining)
          (spread + ((kContractMaxCents - price - front.priceCents : Int) : F) *
            (Quantity.min remaining front.remaining).contracts) positive.2 (by simp [whole])
        rw [left, queue]
        simp only [Quantity.sub_centi, Quantity.min_centi, min_eq_right whole, amount_lot, and_true]
        omega
      · -- the incoming quantity is
        have kept : ¬ (front.remaining - Quantity.min remaining front.remaining).isZero = true := by
          simp
          omega
        rw [if_neg kept, if_neg (by simpa using whole)]
        refine ⟨?_, ?_⟩
        · simp only [Quantity.sub_centi, Quantity.min_centi]
          omega
        · have left : front.remaining - Quantity.min remaining front.remaining =
              ⟨front.remaining.centi - remaining.centi⟩ := by
            refine Quantity.ext_centi ?_
            simp only [Quantity.sub_centi, Quantity.min_centi]
            omega
          dsimp only
          rw [left]
          rfl
    · rw [if_neg (by simpa using present), if_pos (not_lt.mp present)]
      refine ⟨?_, rfl⟩
      dsimp only
      omega

/-- A new fill nets its lot against the two queues of its market. -/
theorem bookFill_lots (om : OrderManager F) {fill : Fill F} (fresh : 0 < fill.quantity.centi)
    (opposed : Positive (om.lots fill.side.opposite fill.marketTicker)) :
    ((om.bookFill fill).lots fill.side.opposite fill.marketTicker,
      (om.bookFill fill).lots fill.side fill.marketTicker) =
      net (om.lots fill.side.opposite fill.marketTicker) (om.lots fill.side fill.marketTicker) fill.lot := by
  obtain ⟨left, queue⟩ := matchLots_queue fill.priceCents fill.quantity (om.realizedSpread fill.marketTicker)
    opposed fresh.le
  have apart : fill.side.opposite ≠ fill.side := by cases fill.side <;> nofun
  have cut : (amount fill.lot : Int) = fill.quantity.centi := rfl
  simp only [bookFill, if_neg apart, ↓reduceIte, net, queue, Quantity.isPositive_iff, left, cut]
  refine Prod.ext rfl ?_
  dsimp only
  by_cases short : total (om.lots fill.side.opposite fill.marketTicker) < fill.quantity.centi
  · have rest : (matchLots fill.priceCents fill.quantity (om.realizedSpread fill.marketTicker)
        (om.lots fill.side.opposite fill.marketTicker)).1 =
        ⟨fill.quantity.centi - total (om.lots fill.side.opposite fill.marketTicker)⟩ := by
      refine Quantity.ext_centi ?_
      rw [left, min_eq_right short.le]
    rw [if_pos short, min_eq_right short.le, if_pos (sub_pos.mpr short), rest]
    rfl
  · rw [if_neg short, min_eq_left (not_lt.mp short), if_neg (by simp), List.append_nil]

/-- Other markets keep their lots. -/
theorem bookFill_lots_ne (om : OrderManager F) (fill : Fill F) {ticker : Ticker}
    (other : ticker ≠ fill.marketTicker) (side : Side) :
    (om.bookFill fill).lots side ticker = om.lots side ticker := by
  simp [bookFill, other]

/-! ### Exact amounts -/

section

variable [Elementary ℚ]

theorem contracts_eq (q : Quantity) : (q.contracts : ℚ) = (q.centi : ℚ) / 100 := by
  change (q.centi : ℚ) / ((100 : Int) : ℚ) = _
  norm_num

/-- What a lot cost, in cents. -/
def lotCost (lot : Lot) : ℚ := (lot.priceCents : ℚ) * lot.remaining.contracts

theorem lotCost_additive : Additive lotCost := by
  intro lot j k
  change (lot.priceCents : ℚ) * (⟨j + k⟩ : Quantity).contracts =
    (lot.priceCents : ℚ) * (⟨j⟩ : Quantity).contracts + (lot.priceCents : ℚ) * (⟨k⟩ : Quantity).contracts
  simp only [contracts_eq]
  push_cast
  ring

theorem costLots_eq (lots : List Lot) (cost : ℚ) : costLots lots cost = cost + worth lotCost lots := by
  induction lots generalizing cost with
  | nil => exact (add_zero cost).symm
  | cons lot lots ih =>
    refine (ih _).trans ?_
    rw [worth_cons, ← add_assoc]
    rfl

/-- The 100 cents of a pair less what both sides of it cost, in exact arithmetic. -/
theorem pairSpread_eq (price front : Int) (matched : Quantity) :
    ((kContractMaxCents - price - front : Int) : ℚ) * matched.contracts =
      (100 - (price : ℚ) - front) * (matched.centi / 100) := by
  rw [contracts_eq]
  simp [kContractMaxCents]

/-- Each contract matched adds the 100 cents of the pair less what both sides of it cost. -/
theorem matchLots_spread (price : Int) (remaining : Quantity) (spread : ℚ) {lots : List Lot}
    (positive : Positive lots) (nonneg : 0 ≤ remaining.centi) :
    (matchLots price remaining spread lots).2.1 =
      spread + (100 - (price : ℚ)) * ((min remaining.centi (total lots) : Int) / 100) -
        (worth lotCost lots - worth lotCost (drop remaining.centi lots)) := by
  induction lots generalizing remaining spread with
  | nil => simp [matchLots, nonneg]
  | cons front rest ih =>
    rw [positive_cons, amount_lot] at positive
    have restNonneg := total_nonneg positive.2
    rw [total_cons, amount_lot, worth_cons, lotCost, contracts_eq]
    unfold matchLots drop
    by_cases present : 0 < remaining.centi
    · rw [if_pos ((Quantity.isPositive_iff _).mpr present), if_neg present.not_ge, amount_lot]
      dsimp only
      by_cases whole : front.remaining.centi ≤ remaining.centi
      · -- the front lot is used up
        have used : (front.remaining - Quantity.min remaining front.remaining).isZero = true := by
          simp [whole]
        have both : min remaining.centi (front.remaining.centi + total rest) =
            front.remaining.centi + min (remaining.centi - front.remaining.centi) (total rest) := by omega
        rw [if_pos used, if_pos whole, ih _ _ positive.2 (by simp [whole]), pairSpread_eq, both]
        simp only [Quantity.sub_centi, Quantity.min_centi, min_eq_right whole]
        push_cast
        ring
      · -- the incoming quantity is
        have kept : ¬ (front.remaining - Quantity.min remaining front.remaining).isZero = true := by
          simp
          omega
        have used : min remaining.centi front.remaining.centi = remaining.centi := by omega
        have all : min remaining.centi (front.remaining.centi + total rest) = remaining.centi := by omega
        rw [if_neg kept, if_neg whole, pairSpread_eq, all, worth_cons]
        change _ = _ - (_ - ((front.priceCents : ℚ) *
          (⟨front.remaining.centi - remaining.centi⟩ : Quantity).contracts + _))
        rw [contracts_eq, Quantity.min_centi, used]
        push_cast
        ring
    · have zero : remaining.centi = 0 := le_antisymm (not_lt.mp present) nonneg
      have none : min (0 : Int) (front.remaining.centi + total rest) = 0 := by omega
      rw [if_neg (by simpa using present), if_pos (not_lt.mp present), zero, none, worth_cons, lotCost, contracts_eq]
      simp

end

end OrderManager

end Kalshi
