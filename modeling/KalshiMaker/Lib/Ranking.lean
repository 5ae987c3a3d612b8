import Mathlib.Data.List.Sort
import Mathlib.Order.Defs.Unbundled

/-! Ranking by a score: the list in descending order, and its best elements. -/
namespace Ranking

variable {α β : Type*} [LT β] {score : α → β}

def Distinct (score : α → β) (xs : List α) : Prop := xs.Pairwise fun x y => score x < score y ∨ score y < score x

def Descending (score : α → β) (xs : List α) : Prop := xs.Pairwise fun x y => score y < score x

section

variable [IsStrictOrder β (· < ·)] {before : α → α → Prop} [DecidableRel before]

theorem Descending.orderedInsert (reads : ∀ x y, before x y ↔ ¬ score x < score y) {x : α} {xs : List α}
    (descending : Descending score xs) (apart : ∀ y ∈ xs, score x < score y ∨ score y < score x) :
    Descending score (xs.orderedInsert before x) := by
  induction xs with
  | nil => simp [Descending]
  | cons y ys ih =>
    obtain ⟨below, rest⟩ := List.pairwise_cons.mp descending
    rw [List.orderedInsert_cons]
    split
    next first =>
      have lower : score y < score x := (apart y List.mem_cons_self).resolve_left ((reads x y).mp first)
      apply List.Pairwise.cons _ descending
      intro z member
      rcases List.mem_cons.mp member with rfl | later
      · exact lower
      · exact IsTrans.trans _ _ _ (below z later) lower
    next after =>
      have higher : score x < score y := by simpa [reads] using after
      apply List.Pairwise.cons _ (ih rest fun z member => apart z (List.mem_cons_of_mem y member))
      intro z member
      rcases (List.mem_orderedInsert _).mp member with rfl | later
      · exact higher
      · exact below z later

/-- Elements of distinct scores are sorted strictly. -/
theorem Distinct.insertionSort (reads : ∀ x y, before x y ↔ ¬ score x < score y) {xs : List α}
    (distinct : Distinct score xs) : Descending score (xs.insertionSort before) := by
  induction xs with
  | nil => exact List.Pairwise.nil
  | cons x xs ih =>
    obtain ⟨apart, rest⟩ := List.pairwise_cons.mp distinct
    rw [List.insertionSort_cons]
    apply (ih rest).orderedInsert reads
    intro y member
    exact apart y ((List.mem_insertionSort _).mp member)

end

theorem Descending.filter {xs : List α} (descending : Descending score xs) (keep : α → Bool) :
    Descending score (xs.filter keep) :=
  List.Pairwise.filter keep descending

/-- What is left out of the first elements scores less than each of them. -/
theorem Descending.unbeaten {xs : List α} (descending : Descending score xs) {n : Nat} {x y : α}
    (kept : x ∈ xs.take n) (member : y ∈ xs) (left : y ∉ xs.take n) : score y < score x := by
  have later : y ∈ xs.drop n := by
    rw [← List.take_append_drop n xs, List.mem_append] at member
    exact member.resolve_left left
  unfold Descending at descending
  rw [← List.take_append_drop n xs, List.pairwise_append] at descending
  exact descending.2.2 x kept y later

end Ranking
