import KalshiMaker.Engine.BookLevels
import KalshiMaker.Lib.LowerBound

/-! A side of a mirrored book as a table of sizes by price, and the search that finds a level in it. -/
namespace Kalshi

open LowerBound

namespace LocalOrderbook

/-! ### The search -/

def insertionPoint (levels : List Level) (priceCents : Int) : Nat := lowerBound (above priceCents) levels

/-- Where the level of a price stands, and that level. -/
def findLevel (levels : List Level) (priceCents : Int) : Option (Nat × Level) :=
  let position := lowerBound (above priceCents) levels
  match levels[position]? with
  | some level => if level.priceCents = priceCents then some (position, level) else none
  | none => none

/-- One side after a signed increment, by the binary searches of the source. -/
def searchAndShift (levels : List Level) (priceCents : Int) (delta : Quantity) : List Level :=
  match findLevel levels priceCents with
  | some (position, existing) =>
    let quantity := existing.quantity + delta
    if quantity ≤ {} then levels.eraseIdx position else levels.set position { existing with quantity }
  | none =>
    if delta.isPositive then levels.insertIdx (insertionPoint levels priceCents) ⟨priceCents, delta⟩ else levels

theorem above_partitioned {levels : List Level} (sorted : levels.Pairwise byPriceDescending) (price : Int) :
    Partitioned (above price) levels := by
  refine sorted.imp fun {left right} descending behind => ?_
  have behind : price < right.priceCents := by simpa [above] using behind
  have descending : right.priceCents ≤ left.priceCents := descending
  simpa [above] using behind.trans_le descending

theorem insertIdx_append_length {α : Type} (front back : List α) (x : α) :
    (front ++ back).insertIdx front.length x = front ++ x :: back := by
  induction front with
  | nil => rfl
  | cons y front ih => simp [ih]

/-- On a side in descending price, the binary search changes the level that a walk from the front would. -/
theorem searchAndShift_eq {levels : List Level} (sorted : levels.Pairwise byPriceDescending) (price : Int)
    (delta : Quantity) : searchAndShift levels price delta = shiftLevel levels price delta := by
  have parts := lowerBound_parts (above_partitioned sorted price)
  unfold searchAndShift findLevel insertionPoint shiftLevel
  rw [parts.takeWhile, parts.dropWhile]
  generalize lowerBound (above price) levels = position at parts
  obtain ⟨front, back, rfl, rfl⟩ : ∃ front back, levels = front ++ back ∧ position = front.length :=
    ⟨levels.take position, levels.drop position, (List.take_append_drop position levels).symm,
      by simpa using parts.within⟩
  dsimp only
  rw [List.take_left, List.drop_left, List.getElem?_append_right le_rfl, Nat.sub_self]
  cases back with
  | nil => simp [List.insertIdx_length_self]
  | cons existing rest =>
    simp only [List.getElem?_cons_zero]
    by_cases here : existing.priceCents = price
    · simp only [here, ↓reduceIte]
      rw [List.eraseIdx_append_of_length_le le_rfl, List.set_append_right _ _ le_rfl, Nat.sub_self]
      rfl
    · simp only [here, ↓reduceIte]
      rw [insertIdx_append_length]

/-! ### Sizes by price -/

/-- The size at a price, nothing where there is no level. -/
def sizeAt (levels : List Level) (price : Int) : Int :=
  ((levels.find? fun level => decide (level.priceCents = price)).map fun level => level.quantity.centi).getD 0

/-- Strictly descending prices and positive sizes. -/
structure Ladder (levels : List Level) : Prop where
  strict : levels.Pairwise fun left right => right.priceCents < left.priceCents
  positive : ∀ level ∈ levels, 0 < level.quantity.centi

theorem Ladder.sorted {levels : List Level} (ladder : Ladder levels) : levels.Pairwise byPriceDescending :=
  ladder.strict.imp fun lower => lower.le

theorem Ladder.sublist {levels fewer : List Level} (ladder : Ladder levels) (sub : fewer.Sublist levels) :
    Ladder fewer := ⟨ladder.strict.sublist sub, fun level member => ladder.positive level (sub.mem member)⟩

@[simp] theorem sizeAt_nil (price : Int) : sizeAt [] price = 0 := rfl

theorem sizeAt_cons (level : Level) (levels : List Level) (price : Int) :
    sizeAt (level :: levels) price = if level.priceCents = price then level.quantity.centi
      else sizeAt levels price := by
  unfold sizeAt
  by_cases here : level.priceCents = price <;> simp [here]

theorem sizeAt_absent {levels : List Level} {price : Int} (absent : ∀ level ∈ levels, level.priceCents ≠ price) :
    sizeAt levels price = 0 := by
  induction levels with
  | nil => rfl
  | cons level levels ih =>
    rw [sizeAt_cons, if_neg (absent level List.mem_cons_self)]
    exact ih fun other member => absent other (List.mem_cons_of_mem _ member)

theorem sizeAt_append_absent {front : List Level} {price : Int} (absent : ∀ level ∈ front, level.priceCents ≠ price)
    (back : List Level) : sizeAt (front ++ back) price = sizeAt back price := by
  induction front with
  | nil => rfl
  | cons level front ih =>
    rw [List.cons_append, sizeAt_cons, if_neg (absent level List.mem_cons_self)]
    exact ih fun other member => absent other (List.mem_cons_of_mem _ member)

/-- A level of another price makes no difference. -/
theorem sizeAt_skip {level : Level} {price : Int} (other : level.priceCents ≠ price) (front back : List Level) :
    sizeAt (front ++ level :: back) price = sizeAt (front ++ back) price := by
  induction front with
  | nil => rw [List.nil_append, sizeAt_cons, if_neg other, List.nil_append]
  | cons first front ih => rw [List.cons_append, List.cons_append, sizeAt_cons, sizeAt_cons, ih]

theorem Ladder.size_of_mem {levels : List Level} (ladder : Ladder levels) {level : Level} (member : level ∈ levels) :
    sizeAt levels level.priceCents = level.quantity.centi := by
  obtain ⟨front, back, rfl⟩ := List.append_of_mem member
  have apart := (List.pairwise_append.mp ladder.strict).2.2
  rw [sizeAt_append_absent, sizeAt_cons, if_pos rfl]
  intro other above
  exact (apart other above level List.mem_cons_self).ne'

theorem Ladder.size_nonneg {levels : List Level} (ladder : Ladder levels) (price : Int) : 0 ≤ sizeAt levels price := by
  by_cases present : ∃ level ∈ levels, level.priceCents = price
  · obtain ⟨level, member, rfl⟩ := present
    rw [ladder.size_of_mem member]
    exact (ladder.positive level member).le
  · rw [sizeAt_absent fun level member same => present ⟨level, member, same⟩]

/-- The levels of a ladder are its positive sizes. -/
theorem Ladder.mem_iff {levels : List Level} (ladder : Ladder levels) (level : Level) :
    level ∈ levels ↔ sizeAt levels level.priceCents = level.quantity.centi ∧ 0 < level.quantity.centi := by
  constructor
  · exact fun member => ⟨ladder.size_of_mem member, ladder.positive level member⟩
  · rintro ⟨size, positive⟩
    by_cases present : ∃ other ∈ levels, other.priceCents = level.priceCents
    · obtain ⟨other, member, same⟩ := present
      have counted := ladder.size_of_mem member
      rw [same, size] at counted
      obtain ⟨_, _⟩ := level
      obtain ⟨_, _⟩ := other
      cases same
      cases Quantity.ext_centi counted
      exact member
    · rw [sizeAt_absent fun other member same => present ⟨other, member, same⟩] at size
      omega

/-- A ladder is no more than its sizes. -/
theorem Ladder.ext {levels others : List Level} (ladder : Ladder levels) (ladder' : Ladder others)
    (sizes : ∀ price, sizeAt levels price = sizeAt others price) : levels = others := by
  have irreflexive : Std.Irrefl fun left right : Level => right.priceCents < left.priceCents := ⟨fun _ => lt_irrefl _⟩
  apply ladder.strict.eq_of_mem_iff ladder'.strict
  intro level
  rw [ladder.mem_iff, ladder'.mem_iff, sizes]

/-! ### What an increment does to the sizes -/

/-- A price has its place in a ladder, taken or not, and an increment there changes nothing else. -/
theorem Ladder.place {levels : List Level} (ladder : Ladder levels) (price : Int) (delta : Quantity) :
    ∃ front back, (∀ level ∈ front, price < level.priceCents) ∧ (∀ level ∈ back, level.priceCents < price) ∧
      ((levels = front ++ back ∧
          shiftLevel levels price delta = if delta.isPositive then front ++ ⟨price, delta⟩ :: back else levels) ∨
        ∃ size, levels = front ++ ⟨price, size⟩ :: back ∧
          shiftLevel levels price delta =
            if size + delta ≤ {} then front ++ back else front ++ ⟨price, size + delta⟩ :: back) := by
  have whole := List.takeWhile_append_dropWhile (p := above price) (l := levels)
  refine ⟨levels.takeWhile (above price), ?_⟩
  unfold LocalOrderbook.shiftLevel
  cases split : levels.dropWhile (above price) with
  | nil =>
    rw [split, List.append_nil] at whole
    refine ⟨[], fun level member => takeWhile_above member, (fun _ member => by cases member), .inl ⟨?_, ?_⟩⟩
    · rw [whole, List.append_nil]
    · rfl
  | cons existing rest =>
    obtain ⟨below, _⟩ := dropWhile_above ladder.sorted split
    rw [split] at whole
    have behind := List.pairwise_cons.mp (List.pairwise_append.mp (whole ▸ ladder.strict)).2.1
    -- the first level not above the price is at it, or the price has none
    by_cases here : existing.priceCents = price
    · subst here
      refine ⟨rest, fun level member => takeWhile_above member, behind.1, .inr ⟨existing.quantity, whole.symm, ?_⟩⟩
      simp only [↓reduceIte]
    · refine ⟨existing :: rest, fun level member => takeWhile_above member, ?_, .inl ⟨whole.symm, ?_⟩⟩
      · intro level member
        rcases List.mem_cons.mp member with rfl | later
        · omega
        · have := behind.1 level later
          omega
      · simp only [here, ↓reduceIte]

/-- A level with a size of its own fits between those above and those below it. -/
theorem Ladder.between {front back : List Level} (ladder : Ladder (front ++ back)) {level : Level}
    (higher : ∀ other ∈ front, level.priceCents < other.priceCents)
    (lower : ∀ other ∈ back, other.priceCents < level.priceCents) (positive : 0 < level.quantity.centi) :
    Ladder (front ++ level :: back) := by
  obtain ⟨ahead, behind, apart⟩ := List.pairwise_append.mp ladder.strict
  constructor
  · refine List.pairwise_append.mpr ⟨ahead, List.pairwise_cons.mpr ⟨lower, behind⟩, ?_⟩
    intro other above last member
    rcases List.mem_cons.mp member with rfl | below
    · exact higher other above
    · exact apart other above last below
  · intro other member
    rcases List.mem_append.mp member with above | member
    · exact ladder.positive other (List.mem_append_left _ above)
    · rcases List.mem_cons.mp member with rfl | below
      · exact positive
      · exact ladder.positive other (List.mem_append_right _ below)

theorem Ladder.shiftLevel {levels : List Level} (ladder : Ladder levels) (price : Int) (delta : Quantity) :
    Ladder (shiftLevel levels price delta) := by
  obtain ⟨front, back, higher, lower, ⟨rfl, shifted⟩ | ⟨size, rfl, shifted⟩⟩ := ladder.place price delta
  · rw [shifted]
    split
    next positive => exact ladder.between higher lower ((Quantity.isPositive_iff delta).mp positive)
    next => exact ladder
  · have others : Ladder (front ++ back) := ladder.sublist ((List.sublist_cons_self _ back).append_left front)
    rw [shifted]
    split
    next => exact others
    next left => exact others.between higher lower (by simpa [Quantity.le_iff] using left)

/-- An increment moves the size at its price, never below nothing, and no other. -/
theorem Ladder.sizeAt_shiftLevel {levels : List Level} (ladder : Ladder levels) (price : Int) (delta : Quantity)
    (other : Int) :
    sizeAt (LocalOrderbook.shiftLevel levels price delta) other =
      if other = price then max 0 (sizeAt levels price + delta.centi) else sizeAt levels other := by
  obtain ⟨front, back, higher, lower, shape⟩ := ladder.place price delta
  have ahead : ∀ level ∈ front, level.priceCents ≠ price := fun level member => (higher level member).ne'
  have behind : ∀ level ∈ back, level.priceCents ≠ price := fun level member => (lower level member).ne
  have absent : sizeAt (front ++ back) price = 0 := by rw [sizeAt_append_absent ahead, sizeAt_absent behind]
  have here : ∀ size : Quantity, sizeAt (front ++ ⟨price, size⟩ :: back) price = size.centi := by
    intro size
    rw [sizeAt_append_absent ahead, sizeAt_cons, if_pos rfl]
  -- at the price the size is that of its own level; elsewhere the levels around it decide
  by_cases same : other = price
  · subst same
    rw [if_pos rfl]
    rcases shape with ⟨rfl, shifted⟩ | ⟨size, rfl, shifted⟩
    · rw [shifted, absent, zero_add]
      split
      next positive =>
        rw [here, max_eq_right ((Quantity.isPositive_iff delta).mp positive).le]
      next negative =>
        rw [absent, max_eq_left]
        simpa [Quantity.isPositive] using negative
    · rw [shifted, here]
      split
      next gone =>
        rw [absent, max_eq_left]
        simpa [Quantity.le_iff] using gone
      next left =>
        rw [here, max_eq_right]
        · rfl
        · have : 0 < size.centi + delta.centi := by simpa [Quantity.le_iff] using left
          exact this.le
  · rw [if_neg same]
    have skip : ∀ size : Quantity, sizeAt (front ++ ⟨price, size⟩ :: back) other = sizeAt (front ++ back) other :=
      fun size => sizeAt_skip (Ne.symm same) front back
    rcases shape with ⟨rfl, shifted⟩ | ⟨size, rfl, shifted⟩
    · rw [shifted]
      split
      · exact skip delta
      · rfl
    · rw [shifted, skip]
      split
      · rfl
      · exact skip _

end LocalOrderbook

end Kalshi
