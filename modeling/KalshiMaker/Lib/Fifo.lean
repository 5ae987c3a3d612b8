import Mathlib.Algebra.Order.Group.Defs
import Mathlib.Algebra.Order.Group.MinMax
import Mathlib.Algebra.BigOperators.Group.List.Basic
import Mathlib.Tactic.Abel

/-! First-in first-out queues of divisible lots, and two such queues netted against each other. -/
namespace Fifo

/-- A lot holds an amount that can be changed without changing what it is a lot of. -/
class Divisible (L : Type*) (K : outParam Type*) where
  amount : L → K
  resize : L → K → L
  amount_resize : ∀ lot k, amount (resize lot k) = k
  resize_amount : ∀ lot, resize lot (amount lot) = lot
  resize_resize : ∀ lot j k, resize (resize lot j) k = resize lot k

export Divisible (amount resize)

attribute [simp] Divisible.amount_resize Divisible.resize_amount Divisible.resize_resize

variable {L K : Type*} [AddCommGroup K] [Divisible L K]

def total (lots : List L) : K := (lots.map amount).sum

@[simp] theorem total_nil : total ([] : List L) = (0 : K) := by simp [total]

@[simp] theorem total_cons (lot : L) (lots : List L) :
    total (lot :: lots) = amount lot + total lots := by simp [total]

@[simp] theorem total_append (xs ys : List L) : total (xs ++ ys) = total xs + total ys := by
  simp [total]

variable [LinearOrder K]

def Positive (lots : List L) : Prop := ∀ lot ∈ lots, 0 < amount lot

/-- The first `k` units, the lot at the cut reduced to its part of them. -/
def take (k : K) : List L → List L
  | [] => []
  | lot :: lots =>
    if k ≤ 0 then []
    else if amount lot ≤ k then lot :: take (k - amount lot) lots
    else [resize lot k]

/-- What is left behind the first `k` units. -/
def drop (k : K) : List L → List L
  | [] => []
  | lot :: lots =>
    if k ≤ 0 then lot :: lots
    else if amount lot ≤ k then drop (k - amount lot) lots
    else resize lot (amount lot - k) :: lots

@[simp] theorem take_nil (k : K) : take k ([] : List L) = [] := rfl

@[simp] theorem drop_nil (k : K) : drop k ([] : List L) = [] := rfl

theorem drop_of_nonpos (k : K) (none : k ≤ 0) (lots : List L) : drop k lots = lots := by
  cases lots <;> simp [drop, none]

@[simp] theorem positive_nil : Positive ([] : List L) := by simp [Positive]

@[simp] theorem positive_cons (lot : L) (lots : List L) :
    Positive (lot :: lots) ↔ 0 < amount lot ∧ Positive lots := by simp [Positive]

@[simp] theorem positive_append (xs ys : List L) :
    Positive (xs ++ ys) ↔ Positive xs ∧ Positive ys := by
  simp [Positive, or_imp, forall_and]

variable [IsOrderedAddMonoid K]

theorem total_nonneg {lots : List L} (positive : Positive lots) : 0 ≤ total lots := by
  induction lots with
  | nil => simp
  | cons lot lots ih =>
    rw [positive_cons] at positive
    rw [total_cons]
    exact add_nonneg positive.1.le (ih positive.2)

theorem positive_drop (k : K) {lots : List L} (positive : Positive lots) :
    Positive (drop k lots) := by
  induction lots generalizing k with
  | nil => exact positive
  | cons lot lots ih =>
    rw [positive_cons] at positive
    unfold drop
    split_ifs with none whole
    · exact (positive_cons lot lots).mpr positive
    · exact ih (k - amount lot) positive.2
    · simpa [positive.2] using whole

theorem drop_all {k : K} {lots : List L} (positive : Positive lots) (all : total lots ≤ k) :
    drop k lots = [] := by
  induction lots generalizing k with
  | nil => rfl
  | cons lot lots ih =>
    rw [positive_cons] at positive
    rw [total_cons] at all
    have rest := total_nonneg positive.2
    have whole : amount lot ≤ k := (le_add_of_nonneg_right rest).trans all
    rw [drop, if_neg (positive.1.trans_le whole).not_ge, if_pos whole]
    exact ih positive.2 (le_sub_iff_add_le'.mpr all)

theorem total_drop {k : K} {lots : List L} (positive : Positive lots) (nonneg : 0 ≤ k)
    (within : k ≤ total lots) : total (drop k lots) = total lots - k := by
  induction lots generalizing k with
  | nil =>
    have zero : k = 0 := le_antisymm (by simpa using within) nonneg
    simp [zero]
  | cons lot lots ih =>
    rw [positive_cons] at positive
    rw [total_cons] at within ⊢
    unfold drop
    split_ifs with none whole
    · simp [le_antisymm none nonneg]
    · rw [ih positive.2 (sub_nonneg.mpr whole) (sub_le_iff_le_add'.mpr within)]
      abel
    · simp
      abel

theorem drop_append_of_le {k : K} {xs : List L} (ys : List L) (positive : Positive xs)
    (within : k ≤ total xs) : drop k (xs ++ ys) = drop k xs ++ ys := by
  induction xs generalizing k with
  | nil => simpa using drop_of_nonpos k (by simpa using within) ys
  | cons lot xs ih =>
    rw [positive_cons] at positive
    rw [total_cons] at within
    rw [List.cons_append]
    unfold drop
    split_ifs with none whole
    · rfl
    · exact ih positive.2 (sub_le_iff_le_add'.mpr within)
    · rfl

theorem drop_append_of_ge {k : K} {xs : List L} (ys : List L) (positive : Positive xs)
    (beyond : total xs ≤ k) : drop k (xs ++ ys) = drop (k - total xs) ys := by
  induction xs generalizing k with
  | nil => simp
  | cons lot xs ih =>
    rw [positive_cons] at positive
    rw [total_cons] at beyond ⊢
    have rest := total_nonneg positive.2
    have whole : amount lot ≤ k := (le_add_of_nonneg_right rest).trans beyond
    rw [List.cons_append, drop, if_neg (positive.1.trans_le whole).not_ge, if_pos whole,
      ih positive.2 (le_sub_iff_add_le'.mpr beyond), sub_sub]

theorem drop_drop {j k : K} {lots : List L} (positive : Positive lots) (first : 0 ≤ j) (second : 0 ≤ k) :
    drop k (drop j lots) = drop (j + k) lots := by
  -- the front lot falls to the first cut, to the second, or survives both
  induction lots generalizing j with
  | nil => rfl
  | cons lot lots ih =>
    rw [positive_cons] at positive
    rcases first.eq_or_lt with rfl | someFirst
    · rw [drop_of_nonpos 0 le_rfl, zero_add]
    have someBoth : ¬ j + k ≤ 0 := (add_pos_of_pos_of_nonneg someFirst second).not_ge
    by_cases whole : amount lot ≤ j
    · rw [drop, if_neg someFirst.not_ge, if_pos whole, ih positive.2 (sub_nonneg.mpr whole), drop,
        if_neg someBoth, if_pos (whole.trans (le_add_of_nonneg_right second)), sub_add_eq_add_sub]
    · rw [drop, if_neg someFirst.not_ge, if_neg whole]
      rcases second.eq_or_lt with rfl | someSecond
      · rw [drop_of_nonpos 0 le_rfl, drop, add_zero, if_neg someFirst.not_ge, if_neg whole]
      by_cases rest : amount lot ≤ j + k
      · rw [drop, if_neg someSecond.not_ge, Divisible.amount_resize,
          if_pos (sub_le_iff_le_add'.mpr rest), drop, if_neg someBoth, if_pos rest]
        congr 1
        abel
      · rw [drop, if_neg someSecond.not_ge, Divisible.amount_resize,
          if_neg (fun h => rest (sub_le_iff_le_add'.mp h)), drop, if_neg someBoth, if_neg rest,
          Divisible.resize_resize]
        congr 2
        abel

/-! ### Worth -/

section

variable {R : Type*} [AddCommGroup R]

def worth (value : L → R) (lots : List L) : R := (lots.map value).sum

/-- Cutting a lot cuts its value. -/
def Additive (value : L → R) : Prop :=
  ∀ lot j k, value (resize lot (j + k)) = value (resize lot j) + value (resize lot k)

@[simp] theorem worth_nil (value : L → R) : worth value [] = 0 := by simp [worth]

@[simp] theorem worth_cons (value : L → R) (lot : L) (lots : List L) :
    worth value (lot :: lots) = value lot + worth value lots := by simp [worth]

@[simp] theorem worth_append (value : L → R) (xs ys : List L) :
    worth value (xs ++ ys) = worth value xs + worth value ys := by simp [worth]

omit [IsOrderedAddMonoid K] in
theorem worth_take_drop {value : L → R} (additive : Additive value) (k : K) (lots : List L) :
    worth value (take k lots) + worth value (drop k lots) = worth value lots := by
  induction lots generalizing k with
  | nil => simp
  | cons lot lots ih =>
    unfold take drop
    split_ifs with none whole
    · simp
    · rw [worth_cons, worth_cons, add_assoc, ih]
    · have cut := additive lot k (amount lot - k)
      rw [add_sub_cancel, Divisible.resize_amount] at cut
      simp [cut, add_assoc]

end

/-! ### Netting

An arriving lot first takes units off the front of the opposing queue; what remains of it
joins the back of its own queue. -/

def net (opposing same : List L) (lot : L) : List L × List L :=
  (drop (amount lot) opposing,
   if total opposing < amount lot then same ++ [resize lot (amount lot - total opposing)] else same)

section

variable {opposing same : List L} {lot : L}

/-- The units matched once a lot has arrived, when all that can be matched always is. -/
theorem matched_step (positive : 0 < amount lot) :
    min (total opposing) (total same + amount lot) =
      min (total opposing) (total same) +
        min (amount lot) (total opposing - min (total opposing) (total same)) := by
  rcases le_total (total opposing) (total same) with covered | short
  · rw [min_eq_left covered, min_eq_left (covered.trans (le_add_of_nonneg_right positive.le)), sub_self,
      min_eq_right positive.le, add_zero]
  · rw [min_eq_right short, ← min_add_add_left, add_sub_cancel, min_comm]

/-- Netting an arrival moves both queues from one cut of their arrivals to the next. -/
theorem net_eq_drop (fresh : 0 < amount lot) (opposed : Positive opposing) (own : Positive same) :
    net (drop (min (total opposing) (total same)) opposing)
        (drop (min (total opposing) (total same)) same) lot =
      (drop (min (total opposing) (total same + amount lot)) opposing,
       drop (min (total opposing) (total same + amount lot)) (same ++ [lot])) := by
  have opposingNonneg := total_nonneg opposed
  have sameNonneg := total_nonneg own
  set m := min (total opposing) (total same) with cut
  have cutNonneg : 0 ≤ m := le_min opposingNonneg sameNonneg
  have left : total (drop m opposing) = total opposing - m :=
    total_drop opposed cutNonneg (min_le_left _ _)
  rw [net, left, matched_step fresh, ← cut]
  rcases le_total (total opposing) (total same) with covered | short
  · -- nothing is left on the opposing side, so the whole lot joins its queue
    have all : m = total opposing := min_eq_left covered
    rw [all, sub_self, min_eq_right fresh.le, add_zero, if_pos fresh, sub_zero,
      drop_append_of_le [lot] own covered, Divisible.resize_amount, drop_all opposed le_rfl, drop_nil]
  · -- nothing is left on the lot's own side
    have all : m = total same := min_eq_right short
    rw [all, drop_drop opposed sameNonneg fresh.le, drop_all own le_rfl,
      drop_append_of_ge [lot] own (le_add_of_nonneg_right (le_min fresh.le (sub_nonneg.mpr short))),
      add_sub_cancel_left]
    rcases lt_or_ge (total opposing - total same) (amount lot) with part | whole
    · rw [min_eq_right part.le, if_pos part, add_sub_cancel, List.nil_append]
      rw [drop_all opposed (by simpa using sub_le_iff_le_add'.mp part.le), drop_all opposed le_rfl]
      rcases (sub_nonneg.mpr short).eq_or_lt with none | someMatched
      · rw [← none, drop_of_nonpos 0 le_rfl, sub_zero, Divisible.resize_amount]
      · rw [drop, if_neg someMatched.not_ge, if_neg part.not_ge]
    · rw [min_eq_left whole, if_neg whole.not_gt, drop, if_neg fresh.not_ge, if_pos le_rfl, drop_nil]

omit [LinearOrder K] [IsOrderedAddMonoid K] in
theorem Additive.resize_zero {R : Type*} [AddCommGroup R] {value : L → R} (additive : Additive value)
    (lot : L) : value (resize lot (0 : K)) = 0 := by
  have twice := additive lot 0 0
  rw [add_zero] at twice
  exact left_eq_add.mp twice

omit [IsOrderedAddMonoid K] in
/-- What joins its own queue is what the opposing one did not take. -/
theorem worth_net {R : Type*} [AddCommGroup R] {value : L → R} (additive : Additive value)
    (opposing same : List L) (lot : L) :
    worth value (net opposing same lot).2 =
      worth value same + value (resize lot (amount lot - min (amount lot) (total opposing))) := by
  unfold net
  split
  next short => rw [min_eq_right short.le, worth_append, worth_cons, worth_nil, add_zero]
  next covered => rw [min_eq_left (not_lt.mp covered), sub_self, additive.resize_zero, add_zero]

end

end Fifo
