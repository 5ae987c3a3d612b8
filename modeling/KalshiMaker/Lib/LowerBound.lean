import Mathlib.Data.List.Basic
import Mathlib.Data.List.TakeWhile

/-! Binary search for the end of the elements that come before a target. -/
namespace LowerBound

variable {α : Type*} (before : α → Bool) (xs : List α)

/-- The loop of `std::lower_bound` over `count` elements from `first` on. -/
def search (first count : Nat) : Nat :=
  if count = 0 then first
  else
    if (xs[first + count / 2]?).any before then search (first + count / 2 + 1) (count - count / 2 - 1)
    else search first (count / 2)
  termination_by count

def lowerBound : Nat := search before xs 0 xs.length

variable {before xs}

/-- What comes before the target stands in front of what does not. -/
def Partitioned (before : α → Bool) (xs : List α) : Prop :=
  xs.Pairwise fun x y => before y = true → before x = true

/-- `position` parts the elements before the target from the others. -/
structure Parts (before : α → Bool) (xs : List α) (position : Nat) : Prop where
  within : position ≤ xs.length
  front : ∀ i (bound : i < xs.length), i < position → before xs[i] = true
  back : ∀ i (bound : i < xs.length), position ≤ i → before xs[i] = false

theorem Partitioned.front (partitioned : Partitioned before xs) {i j : Nat} (order : i ≤ j) (bound : i < xs.length)
    (bound' : j < xs.length) (later : before xs[j] = true) : before xs[i] = true := by
  rcases order.lt_or_eq with earlier | rfl
  · exact List.pairwise_iff_getElem.mp partitioned i j bound bound' earlier later
  · exact later

theorem search_parts (partitioned : Partitioned before xs) (first count : Nat) (within : first + count ≤ xs.length)
    (front : ∀ i (bound : i < xs.length), i < first → before xs[i] = true)
    (back : ∀ i (bound : i < xs.length), first + count ≤ i → before xs[i] = false) :
    Parts before xs (search before xs first count) := by
  fun_induction search before xs first count with
  | case1 first => exact ⟨by omega, front, back⟩
  | case2 first count more found ih =>
    have bound : first + count / 2 < xs.length := by omega
    have middle : before xs[first + count / 2] = true := by simpa [List.getElem?_eq_getElem bound] using found
    refine ih (by omega) ?_ (fun i bound after => back i bound (by omega))
    intro i bound' earlier
    exact partitioned.front (by omega) bound' bound middle
  | case3 first count more found ih =>
    have bound : first + count / 2 < xs.length := by omega
    have middle : before xs[first + count / 2] = false := by simpa [List.getElem?_eq_getElem bound] using found
    refine ih (by omega) front ?_
    intro i bound' after
    by_contra later
    have earlier := partitioned.front (by omega : first + count / 2 ≤ i) bound bound' (by simpa using later)
    rw [middle] at earlier
    cases earlier

theorem lowerBound_parts (partitioned : Partitioned before xs) : Parts before xs (lowerBound before xs) := by
  refine search_parts partitioned 0 xs.length (by omega) (fun i bound earlier => ?_) (fun i bound after => ?_)
  · omega
  · omega

theorem Parts.mem_take {position : Nat} (parts : Parts before xs position) {x : α} (member : x ∈ xs.take position) :
    before x = true := by
  obtain ⟨i, bound, rfl⟩ := List.mem_iff_getElem.mp member
  rw [List.length_take] at bound
  rw [List.getElem_take]
  exact parts.front i (by omega) (by omega)

theorem Parts.drop_head {position : Nat} (parts : Parts before xs position) {x : α} {rest : List α}
    (split : xs.drop position = x :: rest) : before x = false := by
  have bound : position < xs.length := by
    by_contra beyond
    rw [List.drop_eq_nil_of_le (by omega)] at split
    cases split
  rw [List.drop_eq_getElem_cons bound] at split
  cases split
  exact parts.back position bound le_rfl

theorem Parts.takeWhile {position : Nat} (parts : Parts before xs position) :
    xs.takeWhile before = xs.take position := by
  conv_lhs => rw [← List.take_append_drop position xs]
  rw [List.takeWhile_append_of_pos fun x member => parts.mem_take member]
  cases split : xs.drop position with
  | nil => simp
  | cons x rest => simp [parts.drop_head split]

theorem Parts.dropWhile {position : Nat} (parts : Parts before xs position) :
    xs.dropWhile before = xs.drop position := by
  conv_lhs => rw [← List.take_append_drop position xs]
  rw [List.dropWhile_append_of_pos fun x member => parts.mem_take member]
  cases split : xs.drop position with
  | nil => rfl
  | cons x rest => simp [parts.drop_head split]

/-- The front of a partitioned list is all that comes before the target. -/
theorem Partitioned.takeWhile_eq_filter (partitioned : Partitioned before xs) :
    xs.takeWhile before = xs.filter before := by
  induction xs with
  | nil => rfl
  | cons x xs ih =>
    obtain ⟨first, rest⟩ := List.pairwise_cons.mp partitioned
    by_cases earlier : before x = true
    · rw [List.takeWhile_cons_of_pos earlier, List.filter_cons_of_pos earlier, ih rest]
    · rw [List.takeWhile_cons_of_neg earlier, List.filter_cons_of_neg earlier, eq_comm, List.filter_eq_nil_iff]
      exact fun y member later => earlier (first y member later)

theorem Partitioned.dropWhile_eq_filter (partitioned : Partitioned before xs) :
    xs.dropWhile before = xs.filter fun x => !before x := by
  induction xs with
  | nil => rfl
  | cons x xs ih =>
    obtain ⟨first, rest⟩ := List.pairwise_cons.mp partitioned
    by_cases earlier : before x = true
    · rw [List.dropWhile_cons_of_pos earlier, List.filter_cons_of_neg (by simp [earlier]), ih rest]
    · rw [List.dropWhile_cons_of_neg earlier, eq_comm, List.filter_eq_self]
      intro y member
      rcases List.mem_cons.mp member with rfl | member
      · simpa using earlier
      · simpa using fun later => earlier (first y member later)

end LowerBound
