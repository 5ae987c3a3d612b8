import KalshiMaker.Engine.Orderbook
import Mathlib.Data.List.TakeWhile
import Mathlib.Tactic.SplitIfs

/-! The sides of a mirrored book stay sorted, and when an increment changes them. -/
namespace Kalshi

namespace LocalOrderbook

theorem takeWhile_above {levels : List Level} {price : Int} {level : Level}
    (member : level ∈ levels.takeWhile (above price)) : price < level.priceCents := by
  have stays := List.mem_takeWhile_imp member
  simpa [above] using stays

/-- From `insertion_point` on, no level is above the price. -/
theorem dropWhile_above {levels : List Level} (sorted : levels.Pairwise byPriceDescending) {price : Int}
    {existing : Level} {rest : List Level} (split : levels.dropWhile (above price) = existing :: rest) :
    existing.priceCents ≤ price ∧ ∀ level ∈ rest, level.priceCents ≤ existing.priceCents := by
  have behind : (existing :: rest).Pairwise byPriceDescending := split ▸ sorted.sublist (List.dropWhile_sublist _)
  have first : above price existing = false := by
    have stops := List.head?_dropWhile_not (above price) levels
    rw [split] at stops
    simpa using stops
  refine ⟨?_, fun level member => (List.pairwise_cons.mp behind).1 level member⟩
  simpa [above] using first

theorem shiftLevel_sorted {levels : List Level} (sorted : levels.Pairwise byPriceDescending) (price : Int)
    (delta : Quantity) : (shiftLevel levels price delta).Pairwise byPriceDescending := by
  have whole := List.takeWhile_append_dropWhile (p := above price) (l := levels)
  unfold shiftLevel
  dsimp only
  -- the levels above the price stay in front; what follows them starts at the price or below
  cases split : levels.dropWhile (above price) with
  | nil =>
    rw [split, List.append_nil] at whole
    split_ifs
    · rw [whole]
      refine List.pairwise_append.mpr ⟨sorted, List.pairwise_singleton _ _, fun level member new last => ?_⟩
      rw [List.mem_singleton.mp last]
      exact (takeWhile_above (whole ▸ member)).le
    · exact sorted
  | cons existing rest =>
    obtain ⟨below, ordered⟩ := dropWhile_above sorted split
    rw [split] at whole
    have parts := List.pairwise_append.mp (whole ▸ sorted)
    have behind := List.pairwise_cons.mp parts.2.1
    dsimp only
    split_ifs with here gone positive
    -- the level used up is taken out
    · exact sorted.sublist (((List.sublist_cons_self existing rest).append_left _).trans (by rw [whole]))
    · refine List.pairwise_append.mpr ⟨parts.1, List.pairwise_cons.mpr ⟨behind.1, behind.2⟩, ?_⟩
      intro level member other after
      rcases List.mem_cons.mp after with rfl | after
      · exact parts.2.2 level member existing List.mem_cons_self
      · exact parts.2.2 level member other (List.mem_cons_of_mem _ after)
    -- a new level goes between those above it and those below
    · refine List.pairwise_append.mpr ⟨parts.1, List.pairwise_cons.mpr ⟨?_, parts.2.1⟩, ?_⟩
      · intro level member
        rcases List.mem_cons.mp member with rfl | member
        · exact below
        · exact (ordered level member).trans below
      · intro level member other after
        rcases List.mem_cons.mp after with rfl | after
        · exact (takeWhile_above member).le
        · exact parts.2.2 level member other after
    · exact sorted

/-- A negative increment changes a side exactly if the side has a level at its price. -/
theorem shiftLevel_eq_self_iff {levels : List Level} (sorted : levels.Pairwise byPriceDescending) (price : Int)
    {delta : Quantity} (negative : delta.centi < 0) :
    shiftLevel levels price delta = levels ↔ ∀ level ∈ levels, level.priceCents ≠ price := by
  have whole := List.takeWhile_append_dropWhile (p := above price) (l := levels)
  have signed : delta.isPositive = false := by simp [Quantity.isPositive, negative.le]
  unfold shiftLevel
  dsimp only
  cases split : levels.dropWhile (above price) with
  | nil =>
    rw [split, List.append_nil] at whole
    simp only [signed, Bool.false_eq_true, ↓reduceIte, true_iff]
    intro level member
    exact (takeWhile_above (whole.symm ▸ member)).ne'
  | cons existing rest =>
    obtain ⟨below, ordered⟩ := dropWhile_above sorted split
    rw [split] at whole
    dsimp only
    split_ifs with here gone
    · -- the level goes, and the side is one shorter
      constructor
      · intro same
        have lengths := congrArg List.length (same.trans whole.symm)
        simp at lengths
      · intro apart
        exact absurd here (apart existing (whole ▸ by simp))
    · constructor
      · intro same
        -- the level stays, but smaller
        have tails := List.append_cancel_left (same.trans whole.symm)
        have quantities := congrArg (fun level => level.quantity.centi) (List.head_eq_of_cons_eq tails)
        simp only [Quantity.add_centi] at quantities
        omega
      · intro apart
        exact absurd here (apart existing (whole ▸ by simp))
    next up => exact absurd up (by simp [signed])
    -- no level at the price: nothing above it, and all that follows is below
    · refine iff_of_true rfl fun level member => ?_
      rw [← whole] at member
      rcases List.mem_append.mp member with front | behind
      · exact (takeWhile_above front).ne'
      · rcases List.mem_cons.mp behind with rfl | after
        · exact here
        · have := ordered level after
          omega

instance : Std.Total byPriceDescending := ⟨fun left right => le_total right.priceCents left.priceCents⟩

instance : IsTrans Level byPriceDescending := ⟨fun _ _ _ first second => second.trans first⟩

/-- Both sides in descending price. -/
def Sorted (book : LocalOrderbook) : Prop := ∀ side, (book.levels side).Pairwise byPriceDescending

theorem applySnapshot_sorted (snap : Orderbook) : (applySnapshot snap).Sorted := by
  intro side
  cases side with
  | yes => exact List.pairwise_insertionSort byPriceDescending snap.yes
  | no => exact List.pairwise_insertionSort byPriceDescending snap.no

theorem levels_applyDelta (book : LocalOrderbook) (side other : Side) (price : Int) (delta : Quantity) :
    (book.applyDelta side price delta).levels other =
      if other = side then shiftLevel (book.levels side) price delta else book.levels other := by
  cases side <;> cases other <;> rfl

theorem applyDelta_sorted {book : LocalOrderbook} (sorted : book.Sorted) (side : Side) (price : Int)
    (delta : Quantity) : (book.applyDelta side price delta).Sorted := by
  intro other
  rw [levels_applyDelta]
  split
  · exact shiftLevel_sorted (sorted side) price delta
  · exact sorted other

theorem ext_levels {book other : LocalOrderbook} (ticker : book.state.ticker = other.state.ticker)
    (levels : ∀ side, book.levels side = other.levels side) : book = other := by
  obtain ⟨⟨_, _, _⟩⟩ := book
  obtain ⟨⟨_, _, _⟩⟩ := other
  cases ticker
  cases show _ = _ from levels .yes
  cases show _ = _ from levels .no
  rfl

theorem ticker_applyDelta (book : LocalOrderbook) (side : Side) (price : Int) (delta : Quantity) :
    (book.applyDelta side price delta).state.ticker = book.state.ticker := by
  cases side <;> rfl

end LocalOrderbook

end Kalshi
