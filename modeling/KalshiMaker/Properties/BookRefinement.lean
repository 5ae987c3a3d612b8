import KalshiMaker.Engine.BookSizes
import KalshiMaker.Lib.Keyed
import KalshiMaker.Lib.Run

/-! The mirrored book is a table of sizes: snapshots and deltas do to its levels what they say of the sizes. -/
namespace Kalshi

/-- A side, a price and a signed increment. -/
abbrev BookDelta := Side × Int × Quantity

/-- What a book is for: how much is offered at each price of each side. -/
abbrev BookSizes := Side → Int → Int

namespace BookSizes

/-- No size falls below nothing. -/
def shift (size : Int) (delta : BookDelta) : Int := max 0 (size + delta.2.2.centi)

def apply (sizes : BookSizes) (delta : BookDelta) : BookSizes :=
  Function.update sizes delta.1 (Function.update (sizes delta.1) delta.2.1 (shift (sizes delta.1 delta.2.1) delta))

/-- Each size goes its own way. -/
theorem apply_fold (deltas : List BookDelta) (sizes : BookSizes) (side : Side) (price : Int) :
    (deltas.foldl apply sizes) side price =
      (deltas.filter fun delta => decide (delta.1 = side ∧ delta.2.1 = price)).foldl shift (sizes side price) := by
  induction deltas generalizing sizes with
  | nil => rfl
  | cons delta deltas ih =>
    rw [List.foldl_cons, ih, List.filter_cons]
    obtain ⟨on, level, amount⟩ := delta
    by_cases same : on = side
    · subst same
      by_cases here : level = price
      · subst here
        simp [apply]
      · simp [apply, here, Function.update_of_ne (Ne.symm here)]
    · simp [apply, same, Function.update_of_ne (Ne.symm same)]

end BookSizes

namespace LocalOrderbook

def sizes (book : LocalOrderbook) : BookSizes := fun side price => sizeAt (book.levels side) price

def WellFormed (book : LocalOrderbook) : Prop := ∀ side, Ladder (book.levels side)

def applyDeltas (book : LocalOrderbook) (deltas : List BookDelta) : LocalOrderbook :=
  deltas.foldl (fun book delta => book.applyDelta delta.1 delta.2.1 delta.2.2) book

/-- `apply_delta` with the source's binary searches. -/
def searchDelta (book : LocalOrderbook) (side : Side) (price : Int) (delta : Quantity) : LocalOrderbook :=
  match side with
  | .yes => ⟨{ book.state with yes := searchAndShift book.state.yes price delta }⟩
  | .no => ⟨{ book.state with no := searchAndShift book.state.no price delta }⟩

def searchDeltas (book : LocalOrderbook) (deltas : List BookDelta) : LocalOrderbook :=
  deltas.foldl (fun book delta => book.searchDelta delta.1 delta.2.1 delta.2.2) book

theorem searchDelta_eq {book : LocalOrderbook} (sorted : book.Sorted) (side : Side) (price : Int) (delta : Quantity) :
    book.searchDelta side price delta = book.applyDelta side price delta := by
  have searched := searchAndShift_eq (sorted side) price delta
  cases side with
  | yes =>
    change searchAndShift book.state.yes price delta = shiftLevel book.state.yes price delta at searched
    unfold searchDelta applyDelta
    rw [searched]
  | no =>
    change searchAndShift book.state.no price delta = shiftLevel book.state.no price delta at searched
    unfold searchDelta applyDelta
    rw [searched]

/-- The searches rely on the order that they keep up. -/
theorem searchDeltas_eq {book : LocalOrderbook} (sorted : book.Sorted) (deltas : List BookDelta) :
    book.searchDeltas deltas = book.applyDeltas deltas := by
  induction deltas generalizing book with
  | nil => rfl
  | cons delta deltas ih =>
    unfold searchDeltas applyDeltas at ih ⊢
    rw [List.foldl_cons, List.foldl_cons, searchDelta_eq sorted]
    exact ih (applyDelta_sorted sorted _ _ _)

theorem WellFormed.applyDelta {book : LocalOrderbook} (well : book.WellFormed) (side : Side) (price : Int)
    (delta : Quantity) : (book.applyDelta side price delta).WellFormed := by
  intro other
  rw [levels_applyDelta]
  split
  · exact (well side).shiftLevel price delta
  · exact well other

theorem WellFormed.sizes_applyDelta {book : LocalOrderbook} (well : book.WellFormed) (side : Side) (price : Int)
    (delta : Quantity) : (book.applyDelta side price delta).sizes = book.sizes.apply (side, price, delta) := by
  funext other level
  unfold sizes BookSizes.apply
  rw [levels_applyDelta]
  by_cases same : other = side
  · subst same
    rw [if_pos rfl, (well other).sizeAt_shiftLevel, Function.update_self]
    by_cases here : level = price
    · subst here
      rw [if_pos rfl, Function.update_self]
      rfl
    · rw [if_neg here, Function.update_of_ne here]
  · rw [if_neg same, Function.update_of_ne same]

/-- The levels follow the table of sizes through any run of deltas. -/
theorem WellFormed.applyDeltas {book : LocalOrderbook} (well : book.WellFormed) (deltas : List BookDelta) :
    (book.applyDeltas deltas).WellFormed ∧ (book.applyDeltas deltas).sizes =
      deltas.foldl BookSizes.apply book.sizes := by
  induction deltas generalizing book with
  | nil => exact ⟨well, rfl⟩
  | cons delta deltas ih =>
    obtain ⟨later, followed⟩ := ih (well.applyDelta delta.1 delta.2.1 delta.2.2)
    refine ⟨later, ?_⟩
    rw [well.sizes_applyDelta] at followed
    exact followed

/-! ### Snapshots -/

/-- Distinct prices on each side, and positive sizes. -/
structure Plain (book : LocalOrderbook) : Prop where
  distinct : ∀ side, Keyed.Distinct Level.priceCents (book.levels side)
  positive : ∀ side, ∀ level ∈ book.levels side, 0 < level.quantity.centi

theorem sizeAt_perm {levels others : List Level} (distinct : Keyed.Distinct Level.priceCents levels)
    (same : levels.Perm others) (price : Int) : sizeAt levels price = sizeAt others price := by
  have distinct' : Keyed.Distinct Level.priceCents others := (same.map Level.priceCents).nodup_iff.mp distinct
  have found : Keyed.lookup Level.priceCents price levels = Keyed.lookup Level.priceCents price others := by
    ext level
    rw [Keyed.lookup_eq_some distinct, Keyed.lookup_eq_some distinct', same.mem_iff]
  unfold sizeAt
  exact congrArg (fun level : Option Level => (level.map fun level => level.quantity.centi).getD 0) found

theorem ladder_of_sorted {levels : List Level} (distinct : Keyed.Distinct Level.priceCents levels)
    (positive : ∀ level ∈ levels, 0 < level.quantity.centi) : Ladder (levels.insertionSort byPriceDescending) := by
  have same := List.perm_insertionSort byPriceDescending levels
  have apart : ((levels.insertionSort byPriceDescending).map Level.priceCents).Nodup :=
    (same.map Level.priceCents).nodup_iff.mpr distinct
  refine ⟨?_, fun level member => positive level (same.mem_iff.mp member)⟩
  have sorted := List.pairwise_insertionSort byPriceDescending levels
  refine (sorted.and (List.pairwise_map.mp apart)).imp ?_
  rintro left right ⟨descending, apart⟩
  exact lt_of_le_of_ne descending (Ne.symm apart)

theorem Plain.applySnapshot {snap : Orderbook} (plain : Plain ⟨snap⟩) :
    (applySnapshot snap).WellFormed ∧ (applySnapshot snap).sizes = sizes ⟨snap⟩ := by
  constructor
  · intro side
    cases side with
    | yes => exact ladder_of_sorted (plain.distinct .yes) (plain.positive .yes)
    | no => exact ladder_of_sorted (plain.distinct .no) (plain.positive .no)
  · funext side price
    cases side with
    | yes =>
      exact (sizeAt_perm (plain.distinct .yes)
        (List.perm_insertionSort byPriceDescending snap.yes).symm price).symm
    | no =>
      exact (sizeAt_perm (plain.distinct .no)
        (List.perm_insertionSort byPriceDescending snap.no).symm price).symm

/-! ### The best prices -/

theorem Ladder.head_iff {levels : List Level} (ladder : Ladder levels) (level : Level) :
    levels.head? = some level ↔ level ∈ levels ∧ ∀ other ∈ levels, other.priceCents ≤ level.priceCents := by
  cases levels with
  | nil => simp
  | cons first rest =>
    have lower := (List.pairwise_cons.mp ladder.strict).1
    rw [List.head?_cons, Option.some.injEq]
    constructor
    · rintro rfl
      refine ⟨List.mem_cons_self, fun other member => ?_⟩
      rcases List.mem_cons.mp member with rfl | later
      · exact le_rfl
      · exact (lower other later).le
    · rintro ⟨member, highest⟩
      rcases List.mem_cons.mp member with same | later
      · exact same.symm
      · have := lower level later
        have := highest first List.mem_cons_self
        omega

theorem bestAsk_iff {book : LocalOrderbook} (ladder : Ladder (book.levels .no)) (level : Level) :
    book.bestAsk = some level ↔ ∃ bestNo ∈ book.levels .no,
      (∀ other ∈ book.levels .no, other.priceCents ≤ bestNo.priceCents) ∧
        level = ⟨complementPrice bestNo.priceCents, bestNo.quantity⟩ := by
  unfold bestAsk
  rw [Option.map_eq_some_iff]
  constructor
  · rintro ⟨bestNo, first, rfl⟩
    obtain ⟨member, highest⟩ := (ladder.head_iff bestNo).mp first
    exact ⟨bestNo, member, highest, rfl⟩
  · rintro ⟨bestNo, member, highest, rfl⟩
    exact ⟨bestNo, (ladder.head_iff bestNo).mpr ⟨member, highest⟩, rfl⟩

/-- From a snapshot without a repeated price or an empty level, through any run of deltas: both sides are ladders, each
size is the fold of its own deltas, and the best prices are the highest YES price and the complement of the highest
NO price. -/
theorem sizes_refined (snap : Orderbook) (plain : Plain ⟨snap⟩) (deltas : List BookDelta) :
    let book := (applySnapshot snap).searchDeltas deltas
    book = (applySnapshot snap).applyDeltas deltas ∧
      (∀ side, Ladder (book.levels side)) ∧
      (∀ side price, sizeAt (book.levels side) price =
        (deltas.filter fun delta => decide (delta.1 = side ∧ delta.2.1 = price)).foldl BookSizes.shift
          (sizeAt ((⟨snap⟩ : LocalOrderbook).levels side) price)) ∧
      (∀ level, book.bestBid = some level ↔
        level ∈ book.levels .yes ∧ ∀ other ∈ book.levels .yes, other.priceCents ≤ level.priceCents) ∧
      ∀ level, book.bestAsk = some level ↔ ∃ bestNo ∈ book.levels .no,
        (∀ other ∈ book.levels .no, other.priceCents ≤ bestNo.priceCents) ∧
          level = ⟨complementPrice bestNo.priceCents, bestNo.quantity⟩ := by
  intro book
  have searched : book = (applySnapshot snap).applyDeltas deltas := searchDeltas_eq (applySnapshot_sorted snap) deltas
  obtain ⟨well, sizes⟩ := plain.applySnapshot
  obtain ⟨ladders, followed⟩ := well.applyDeltas deltas
  rw [← searched] at ladders followed
  refine ⟨searched, ladders, fun side price => ?_, fun level => (ladders .yes).head_iff level, ?_⟩
  · have folded := BookSizes.apply_fold deltas (applySnapshot snap).sizes side price
    rw [← followed, sizes] at folded
    exact folded
  · exact fun level => bestAsk_iff (ladders .no) level

/-- A snapshot in the exchange's ascending order, a level removed beyond what it holds, and put back. -/
theorem sizes_refined_removed :
    let snap : Orderbook := { ticker := "M", yes := [⟨1, ⟨500⟩⟩, ⟨46, ⟨100⟩⟩], no := [⟨40, ⟨100⟩⟩] }
    let deltas : List BookDelta := [(.yes, 46, ⟨-300⟩), (.no, 46, ⟨200⟩), (.yes, 46, ⟨700⟩)]
    Plain ⟨snap⟩ ∧ sizeAt (((applySnapshot snap).searchDeltas deltas).levels .yes) 46 = 700 := by
  intro snap deltas
  have plain : Plain ⟨snap⟩ := by
    constructor
    · intro side
      unfold Keyed.Distinct
      cases side <;> decide
    · intro side
      cases side <;> decide
  refine ⟨plain, ?_⟩
  rw [(sizes_refined snap plain deltas).2.2.1 .yes 46]
  decide

end LocalOrderbook

end Kalshi
