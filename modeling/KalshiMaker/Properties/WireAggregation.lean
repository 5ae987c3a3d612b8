import KalshiMaker.Net.WireBook
import KalshiMaker.Properties.BookRefinement

/-! Whether the mirrored book adds up the wire levels that round to one cent. -/
namespace Kalshi

open LocalOrderbook

variable {F : Type} [Floating F]

/-! ### The exchange's own levels -/

structure WireSize (F : Type) [Floating F] where
  price : WirePrice F
  size : Int

/-- What the exchange offers at each of its prices. -/
abbrev WireBook (F : Type) [Floating F] := Side → List (WireSize F)

namespace WireBook

def sizeOf (levels : List (WireSize F)) (text : String) : Int :=
  ((Keyed.lookup (fun level : WireSize F => level.price.text) text levels).map WireSize.size).getD 0

/-- What is offered at prices that round to these cents. -/
def centSum (levels : List (WireSize F)) (cents : Int) : Int :=
  ((levels.filter fun level => decide (level.price.cents = cents)).map WireSize.size).sum

def besides (levels : List (WireSize F)) (text : String) : List (WireSize F) :=
  levels.filter fun level => decide (level.price.text ≠ text)

/-- A level whose size has gone is gone. -/
def shift (levels : List (WireSize F)) (price : WirePrice F) (change : Int) : List (WireSize F) :=
  if 0 < sizeOf levels price.text + change then ⟨price, sizeOf levels price.text + change⟩ :: besides levels price.text
  else besides levels price.text

/-- No price twice, and no empty level. -/
structure Sound (levels : List (WireSize F)) : Prop where
  distinct : Keyed.Distinct (fun level : WireSize F => level.price.text) levels
  positive : ∀ level ∈ levels, 0 < level.size

theorem Sound.besides {levels : List (WireSize F)} (sound : Sound levels) (text : String) :
    Sound (besides levels text) :=
  ⟨sound.distinct.sublist (List.filter_sublist.map _), fun level member =>
    sound.positive level (List.mem_of_mem_filter member)⟩

theorem Sound.shift {levels : List (WireSize F)} (sound : Sound levels) (price : WirePrice F) (change : Int) :
    Sound (shift levels price change) := by
  have others := sound.besides price.text
  unfold WireBook.shift
  split
  next left =>
    refine ⟨List.nodup_cons.mpr ⟨?_, others.distinct⟩, fun level member => ?_⟩
    · rintro again
      obtain ⟨level, member, same⟩ := List.mem_map.mp again
      have apart := List.of_mem_filter member
      exact absurd same (by simpa using apart)
    · rcases List.mem_cons.mp member with rfl | member
      · exact left
      · exact others.positive level member
  next => exact others

@[simp] theorem centSum_nil (cents : Int) : centSum ([] : List (WireSize F)) cents = 0 := rfl

theorem centSum_cons (level : WireSize F) (levels : List (WireSize F)) (cents : Int) :
    centSum (level :: levels) cents =
      (if level.price.cents = cents then level.size else 0) + centSum levels cents := by
  unfold centSum
  by_cases here : level.price.cents = cents <;> simp [here]

theorem Sound.tail {level : WireSize F} {levels : List (WireSize F)} (sound : Sound (level :: levels)) :
    Sound levels :=
  ⟨(List.nodup_cons.mp sound.distinct).2, fun other member => sound.positive other (List.mem_cons_of_mem _ member)⟩

theorem Sound.centSum_nonneg {levels : List (WireSize F)} (sound : Sound levels) (cents : Int) :
    0 ≤ centSum levels cents := by
  induction levels with
  | nil => exact le_rfl
  | cons level levels ih =>
    have rest := ih sound.tail
    have positive := sound.positive level List.mem_cons_self
    rw [centSum_cons]
    split <;> omega

/-- Every level counts towards the sum of its cents. -/
theorem Sound.le_centSum {levels : List (WireSize F)} (sound : Sound levels) {level : WireSize F}
    (member : level ∈ levels) : level.size ≤ centSum levels level.price.cents := by
  induction levels with
  | nil => cases member
  | cons first levels ih =>
    have positive := sound.positive first List.mem_cons_self
    have rest := sound.tail.centSum_nonneg level.price.cents
    rw [centSum_cons]
    rcases List.mem_cons.mp member with rfl | later
    · rw [if_pos rfl]
      omega
    · have := ih sound.tail later
      split <;> omega

/-- There is a level at some cents exactly if there is something to add up. -/
theorem Sound.centSum_pos_iff {levels : List (WireSize F)} (sound : Sound levels) (cents : Int) :
    0 < centSum levels cents ↔ ∃ level ∈ levels, level.price.cents = cents := by
  constructor
  · intro positive
    by_contra absent
    have none : levels.filter (fun level => decide (level.price.cents = cents)) = [] := by
      apply List.filter_eq_nil_iff.mpr
      intro level member here
      exact absent ⟨level, member, by simpa using here⟩
    unfold centSum at positive
    rw [none] at positive
    exact absurd positive (by simp)
  · rintro ⟨level, member, rfl⟩
    exact (sound.positive level member).trans_le (sound.le_centSum member)

theorem besides_absent {levels : List (WireSize F)} {text : String}
    (absent : text ∉ levels.map fun level => level.price.text) : besides levels text = levels := by
  apply List.filter_eq_self.mpr
  intro level member
  have apart : level.price.text ≠ text := fun same => absent (List.mem_map.mpr ⟨level, member, same⟩)
  simpa using apart

/-- A level that is left out is missing from the sum of its cents. -/
theorem Sound.centSum_besides {levels : List (WireSize F)} (sound : Sound levels) (price : WirePrice F) (cents : Int) :
    centSum (WireBook.besides levels price.text) cents =
      centSum levels cents - if cents = price.cents then sizeOf levels price.text else 0 := by
  induction levels with
  | nil => simp [WireBook.besides, sizeOf]
  | cons level levels ih =>
    have fresh : level.price.text ∉ levels.map fun other => other.price.text := (List.nodup_cons.mp sound.distinct).1
    by_cases same : level.price.text = price.text
    · have here : level.price.cents = price.cents := WirePrice.cents_of_text same
      have left : WireBook.besides (level :: levels) price.text = levels := by
        rw [same] at fresh
        unfold WireBook.besides
        rw [List.filter_cons_of_neg (by simpa using same)]
        exact besides_absent fresh
      have size : sizeOf (level :: levels) price.text = level.size := by
        unfold sizeOf
        rw [Keyed.lookup_cons, if_pos same]
        rfl
      rw [left, size, centSum_cons, here]
      -- only the sum at the level's own cent loses it
      by_cases cent : cents = price.cents
      · rw [if_pos cent.symm, if_pos cent]
        omega
      · rw [if_neg (Ne.symm cent), if_neg cent]
        omega
    · have left : WireBook.besides (level :: levels) price.text = level :: WireBook.besides levels price.text := by
        unfold WireBook.besides
        rw [List.filter_cons_of_pos (by simpa using same)]
      have size : sizeOf (level :: levels) price.text = sizeOf levels price.text := by
        unfold sizeOf
        rw [Keyed.lookup_cons, if_neg same]
      rw [left, size, centSum_cons, centSum_cons, ih sound.tail]
      omega

theorem Sound.centSum_shift {levels : List (WireSize F)} (sound : Sound levels) (price : WirePrice F)
    (change cents : Int) :
    centSum (WireBook.shift levels price change) cents =
      if cents = price.cents then
        centSum levels cents - sizeOf levels price.text + max 0 (sizeOf levels price.text + change)
      else centSum levels cents := by
  have others := sound.centSum_besides price cents
  unfold WireBook.shift
  split
  next left =>
    rw [centSum_cons, others]
    dsimp only
    by_cases here : cents = price.cents
    · rw [if_pos here, if_pos here, if_pos here.symm, max_eq_right left.le]
      omega
    · rw [if_neg here, if_neg here, if_neg (Ne.symm here)]
      omega
  next gone =>
    rw [others]
    split
    · rw [max_eq_left (not_lt.mp gone), add_zero]
    · omega

theorem Sound.centSum_besides_here {levels : List (WireSize F)} (sound : Sound levels) (price : WirePrice F) :
    centSum (WireBook.besides levels price.text) price.cents =
      centSum levels price.cents - sizeOf levels price.text := by
  have others := sound.centSum_besides price price.cents
  rwa [if_pos rfl] at others

/-- Where no other level rounds to the cents of a price, its own size is all there is. -/
theorem Sound.centSum_alone {levels : List (WireSize F)} (sound : Sound levels) {price : WirePrice F}
    (alone : ∀ level ∈ levels, level.price.cents = price.cents → level.price.text = price.text) :
    centSum levels price.cents = sizeOf levels price.text := by
  have others := sound.centSum_besides_here price
  have rest := sound.besides price.text
  have none : ¬ 0 < centSum (WireBook.besides levels price.text) price.cents := by
    rw [rest.centSum_pos_iff]
    rintro ⟨level, member, here⟩
    have apart : level.price.text ≠ price.text := by simpa using List.of_mem_filter member
    exact apart (alone level (List.mem_of_mem_filter member) here)
  have := rest.centSum_nonneg price.cents
  omega

/-- Another level that rounds to the same cents adds to the sum. -/
theorem Sound.sizeOf_lt_centSum {levels : List (WireSize F)} (sound : Sound levels) {price : WirePrice F}
    {other : WireSize F} (member : other ∈ levels) (here : other.price.cents = price.cents)
    (apart : other.price.text ≠ price.text) : sizeOf levels price.text < centSum levels price.cents := by
  have others := sound.centSum_besides_here price
  have among : other ∈ WireBook.besides levels price.text := List.mem_filter.mpr ⟨member, by simpa using apart⟩
  have counted := ((sound.besides price.text).centSum_pos_iff price.cents).mpr ⟨other, among, here⟩
  omega

def apply (wire : WireBook F) (delta : WireDelta F) : WireBook F :=
  Function.update wire delta.side (shift (wire delta.side) delta.price delta.change.quantity.centi)

/-- The level of a delta holds what the delta takes away, or no other level rounds to its cents. -/
def Covers (wire : WireBook F) (delta : WireDelta F) : Prop :=
  0 ≤ sizeOf (wire delta.side) delta.price.text + delta.change.quantity.centi ∨
    ∀ level ∈ wire delta.side, level.price.cents = delta.price.cents → level.price.text = delta.price.text

end WireBook

/-- What a snapshot offers at each of its prices. -/
def WireSides.offered (sides : WireSides F) : WireBook F :=
  fun side => (sides side).map fun level => ⟨level.price, level.count.quantity.centi⟩

/-- Distinct wire prices, and something at each of them. -/
structure WireSides.Plain (sides : WireSides F) : Prop where
  distinct : ∀ side, Keyed.Distinct (fun level : WireLevel F => level.price.text) (sides side)
  positive : ∀ side, ∀ level ∈ sides side, 0 < level.count.quantity.centi

theorem WireSides.Plain.sound {sides : WireSides F} (plain : sides.Plain) (side : Side) :
    WireBook.Sound (sides.offered side) := by
  constructor
  · have same : (sides.offered side).map (fun level => level.price.text) =
        (sides side).map fun level => level.price.text := List.map_map
    unfold Keyed.Distinct
    rw [same]
    exact plain.distinct side
  · intro level member
    obtain ⟨listed, among, rfl⟩ := List.mem_map.mp member
    exact plain.positive side listed among

/-! ### The mirrored book over the wire levels -/

namespace LocalOrderbook

/-- On each side one level for each cent that some wire level rounds to, which holds all that is offered there. -/
def Aggregates (book : LocalOrderbook) (wire : WireBook F) : Prop :=
  ∀ side, Keyed.Distinct Level.priceCents (book.levels side) ∧ ∀ level : Level, level ∈ book.levels side ↔
    (∃ offered ∈ wire side, offered.price.cents = level.priceCents) ∧
      level.quantity.centi = WireBook.centSum (wire side) level.priceCents

/-- The book and the wire levels after a delta message. -/
def follow (state : LocalOrderbook × WireBook F) (delta : WireDelta F) : LocalOrderbook × WireBook F :=
  (state.1.receive F delta.msg, state.2.apply delta)

/-- A ladder over wire levels of positive sizes. -/
structure Paired (state : LocalOrderbook × WireBook F) : Prop where
  wellFormed : state.1.WellFormed
  sound : ∀ side, WireBook.Sound (state.2 side)

theorem Paired.follow {state : LocalOrderbook × WireBook F} (paired : Paired state) (delta : WireDelta F) :
    Paired (follow state delta) := by
  constructor
  · change (state.1.receive F delta.msg).WellFormed
    rw [receive_delta]
    exact paired.wellFormed.applyDelta _ _ _
  · intro side
    change WireBook.Sound (Function.update state.2 delta.side _ side)
    by_cases same : side = delta.side
    · subst same
      rw [Function.update_self]
      exact (paired.sound delta.side).shift _ _
    · rw [Function.update_of_ne same]
      exact paired.sound side

/-- The levels aggregate the wire levels exactly if their sizes are the sums. -/
theorem Paired.aggregates_iff {state : LocalOrderbook × WireBook F} (paired : Paired state) :
    Aggregates state.1 state.2 ↔
      ∀ side cents, sizeAt (state.1.levels side) cents = WireBook.centSum (state.2 side) cents := by
  obtain ⟨book, wire⟩ := state
  obtain ⟨ladders, sound⟩ := paired
  constructor
  · intro aggregates side cents
    by_cases offered : ∃ level ∈ wire side, level.price.cents = cents
    · have member := ((aggregates side).2 ⟨cents, ⟨WireBook.centSum (wire side) cents⟩⟩).mpr ⟨offered, rfl⟩
      exact (ladders side).size_of_mem member
    -- a cent that no wire level rounds to sums to nothing and has no level
    · have none : ¬ 0 < WireBook.centSum (wire side) cents := fun some =>
        offered (((sound side).centSum_pos_iff cents).mp some)
      have nonneg : 0 ≤ WireBook.centSum (wire side) cents := (sound side).centSum_nonneg cents
      rw [sizeAt_absent]
      · change 0 = WireBook.centSum (wire side) cents
        omega
      · rintro level member rfl
        exact offered (((aggregates side).2 level).mp member).1
  · intro sizes side
    refine ⟨List.pairwise_map.mpr ((ladders side).strict.imp fun lower => lower.ne'), fun level => ?_⟩
    rw [(ladders side).mem_iff level]
    rw [sizes side, ← (sound side).centSum_pos_iff]
    constructor
    · rintro ⟨size, positive⟩
      exact ⟨size.symm ▸ positive, size.symm⟩
    · rintro ⟨positive, size⟩
      exact ⟨size.symm, size.symm ▸ positive⟩

theorem Paired.sizeAt_follow {state : LocalOrderbook × WireBook F} (paired : Paired state) (delta : WireDelta F)
    (side : Side) (cents : Int) :
    sizeAt ((LocalOrderbook.follow state delta).1.levels side) cents =
      if side = delta.side ∧ cents = delta.price.cents then
        max 0 (sizeAt (state.1.levels delta.side) delta.price.cents + delta.change.quantity.centi)
      else sizeAt (state.1.levels side) cents := by
  change sizeAt ((state.1.receive F delta.msg).levels side) cents = _
  rw [receive_delta, levels_applyDelta]
  by_cases same : side = delta.side
  · subst same
    rw [if_pos rfl, (paired.wellFormed delta.side).sizeAt_shiftLevel]
    simp only [true_and]
  · rw [if_neg same, if_neg fun both => same both.1]

theorem Paired.centSum_follow {state : LocalOrderbook × WireBook F} (paired : Paired state) (delta : WireDelta F)
    (side : Side) (cents : Int) :
    WireBook.centSum ((LocalOrderbook.follow state delta).2 side) cents =
      if side = delta.side ∧ cents = delta.price.cents then
        WireBook.centSum (state.2 delta.side) delta.price.cents -
            WireBook.sizeOf (state.2 delta.side) delta.price.text +
          max 0 (WireBook.sizeOf (state.2 delta.side) delta.price.text + delta.change.quantity.centi)
      else WireBook.centSum (state.2 side) cents := by
  change WireBook.centSum (Function.update state.2 delta.side _ side) cents = _
  by_cases same : side = delta.side
  · subst same
    rw [Function.update_self, (paired.sound delta.side).centSum_shift]
    by_cases here : cents = delta.price.cents
    · subst here
      simp
    · simp [here]
  · rw [Function.update_of_ne same, if_neg fun both => same both.1]

/-- A delta keeps the sums exactly if the wire levels cover it. -/
theorem Paired.aggregates_follow_iff {state : LocalOrderbook × WireBook F} (paired : Paired state)
    (aggregates : Aggregates state.1 state.2) (delta : WireDelta F) :
    Aggregates (LocalOrderbook.follow state delta).1 (LocalOrderbook.follow state delta).2 ↔ state.2.Covers delta := by
  have sums := paired.aggregates_iff.mp aggregates
  have sound := paired.sound delta.side
  have here := sums delta.side delta.price.cents
  rw [(paired.follow delta).aggregates_iff]
  constructor
  · intro kept
    by_contra uncovered
    obtain ⟨short, others⟩ := not_or.mp uncovered
    push Not at others
    obtain ⟨other, member, cents, apart⟩ := others
    -- The book forgets what the other level still offers.
    have more := sound.sizeOf_lt_centSum member cents apart
    have after := kept delta.side delta.price.cents
    rw [paired.sizeAt_follow, paired.centSum_follow, if_pos ⟨rfl, rfl⟩, if_pos ⟨rfl, rfl⟩, here] at after
    omega
  · intro covered side cents
    rw [paired.sizeAt_follow, paired.centSum_follow, here]
    split
    next =>
      rcases covered with enough | alone
      · have rest := (sound.besides delta.price.text).centSum_nonneg delta.price.cents
        rw [sound.centSum_besides_here] at rest
        omega
      · rw [sound.centSum_alone alone]
        omega
    next => exact sums side cents

/-! ### The opening read -/

theorem levels_applySnapshot (sides : WireSides F) (ticker : Ticker) (side : Side) :
    (applySnapshot (sides.rounded ticker)).levels side =
      ((sides side).map WireLevel.rounded).insertionSort byPriceDescending := by
  cases side <;> rfl

theorem sizeAt_rounded {levels : List (WireLevel F)}
    (distinct : Keyed.Distinct (fun level : WireLevel F => level.price.cents) levels) (cents : Int) :
    sizeAt (levels.map WireLevel.rounded) cents =
      WireBook.centSum (levels.map fun level => ⟨level.price, level.count.quantity.centi⟩) cents := by
  induction levels with
  | nil => rfl
  | cons level levels ih =>
    obtain ⟨fresh, rest⟩ := List.nodup_cons.mp distinct
    rw [List.map_cons, List.map_cons, sizeAt_cons, WireBook.centSum_cons, ih rest]
    change (if level.price.cents = cents then level.count.quantity.centi else _) =
      (if level.price.cents = cents then level.count.quantity.centi else 0) + _
    split
    next here =>
      subst here
      rw [← ih rest, sizeAt_absent, add_zero]
      rintro other member same
      obtain ⟨listed, among, rfl⟩ := List.mem_map.mp member
      exact fresh (List.mem_map.mpr ⟨listed, among, same⟩)
    next => rw [zero_add]

theorem opening_paired {sides : WireSides F} (plain : sides.Plain)
    (distinct : ∀ side, Keyed.Distinct (fun level : WireLevel F => level.price.cents) (sides side)) (ticker : Ticker) :
    Paired (applySnapshot (sides.rounded ticker), sides.offered) ∧
      Aggregates (applySnapshot (sides.rounded ticker)) sides.offered := by
  have read : ∀ side, (⟨sides.rounded ticker⟩ : LocalOrderbook).levels side = (sides side).map WireLevel.rounded := by
    intro side
    cases side <;> rfl
  -- distinct cents make the read snapshot plain, with one level a price
  have once : Plain ⟨sides.rounded ticker⟩ := by
    constructor
    · intro side
      have prices : ((sides side).map WireLevel.rounded).map Level.priceCents =
          (sides side).map fun level => level.price.cents := List.map_map
      unfold Keyed.Distinct
      rw [read, prices]
      exact distinct side
    · intro side level member
      rw [read] at member
      obtain ⟨listed, among, rfl⟩ := List.mem_map.mp member
      exact plain.positive side listed among
  obtain ⟨wellFormed, sizes⟩ := once.applySnapshot
  have paired : Paired (applySnapshot (sides.rounded ticker), sides.offered) := ⟨wellFormed, plain.sound⟩
  refine ⟨paired, paired.aggregates_iff.mpr fun side cents => ?_⟩
  have summed := sizeAt_rounded (distinct side) cents
  rw [← read side] at summed
  exact (congrFun (congrFun sizes side) cents).trans summed

/-- What is read adds up exactly if no two wire levels of a side round to one cent. -/
theorem opening_iff {sides : WireSides F} (plain : sides.Plain) (ticker : Ticker) :
    Aggregates (applySnapshot (sides.rounded ticker)) sides.offered ↔
      ∀ side, Keyed.Distinct (fun level : WireLevel F => level.price.cents) (sides side) := by
  constructor
  · intro aggregates side
    have prices : ((sides side).map WireLevel.rounded).map Level.priceCents =
        (sides side).map fun level => level.price.cents := List.map_map
    have apart := (aggregates side).1
    unfold Keyed.Distinct at apart ⊢
    rw [levels_applySnapshot, ((List.perm_insertionSort byPriceDescending _).map Level.priceCents).nodup_iff, prices]
      at apart
    exact apart
  · exact fun distinct => (opening_paired plain distinct ticker).2

/-- From a snapshot or a response with distinct wire prices and something at each, through a stream of wire deltas: the
book has one level for each cent offered at, with all that is offered there, all along exactly if no two wire levels
of a side are read at one cent, and no delta takes more than its level holds while another level rounds to its cent. -/
theorem wire_book_aggregates_iff (sides : WireSides F) (plain : sides.Plain) (ticker : Ticker) (snap : Orderbook)
    (read : (∃ msg, sides.SentAs ticker msg ∧ parseSnapshot F msg = .ok snap) ∨
      ∃ resp, sides.AnsweredAs resp ∧ parseOrderbook F ticker resp = .ok snap)
    (deltas : List (WireDelta F)) :
    (∀ seen, seen <+: deltas →
      Aggregates (seen.foldl follow (applySnapshot snap, sides.offered)).1
        (seen.foldl follow (applySnapshot snap, sides.offered)).2) ↔
      (∀ side, Keyed.Distinct (fun level : WireLevel F => level.price.cents) (sides side)) ∧
        Run.Meets follow (fun state delta => state.2.Covers delta) (applySnapshot snap, sides.offered) deltas := by
  have rounded : snap = sides.rounded ticker := by
    rcases read with ⟨msg, sent, parsed⟩ | ⟨resp, answered, parsed⟩
    · rw [sent.parse] at parsed
      exact (Except.ok.inj parsed).symm
    · rw [answered.parse] at parsed
      exact (Except.ok.inj parsed).symm
  subst rounded
  -- the wire book and the read one move together; a delta that is not covered parts them
  let Good (state : LocalOrderbook × WireBook F) : Prop := Paired state ∧ Aggregates state.1 state.2
  have run : ∀ state, Good state → ((∀ seen, seen <+: deltas →
      Aggregates (seen.foldl follow state).1 (seen.foldl follow state).2) ↔
        Run.Meets follow (fun state delta => state.2.Covers delta) state deltas) := by
    intro state good
    exact Run.holds_iff_meets Good (fun state => Aggregates state.1 state.2) (fun _ good => good.2)
      (fun _ delta covered good => ⟨good.1.follow delta, (good.1.aggregates_follow_iff good.2 delta).mpr covered⟩)
      (fun _ delta uncovered good kept => uncovered ((good.1.aggregates_follow_iff good.2 delta).mp kept)) good deltas
  constructor
  · intro holds
    have distinct := (opening_iff plain ticker).mp (holds [] List.nil_prefix)
    exact ⟨distinct, (run _ (opening_paired plain distinct ticker)).mp holds⟩
  · rintro ⟨distinct, meets⟩
    exact (run _ (opening_paired plain distinct ticker)).mpr meets

/-! ### Tenths of a cent -/

def pennyPrice : WirePrice ℚ := ⟨"0.4200", 42, by decide +kernel⟩

def lowerTick : WirePrice ℚ := ⟨"0.4210", 42, by decide +kernel⟩

def upperTick : WirePrice ℚ := ⟨"0.4220", 42, by decide +kernel⟩

def tenContracts : WireCount ℚ := ⟨"10.00", ⟨1000⟩, by decide +kernel⟩

def minusTen : WireCount ℚ := ⟨"-10.00", ⟨-1000⟩, by decide +kernel⟩

def minusFive : WireCount ℚ := ⟨"-5.00", ⟨-500⟩, by decide +kernel⟩

/-- Levels on the YES side only. -/
def yesOnly (levels : List (WireLevel ℚ)) : WireSides ℚ
  | .yes => levels
  | .no => []

def snapshotOf (levels : List (WireLevel ℚ)) : Json :=
  .obj [("market_ticker", .str "M"), ("yes_dollars_fp", .arr (levels.map WireLevel.json))]

theorem snapshotOf_sent (levels : List (WireLevel ℚ)) : (yesOnly levels).SentAs "M" (snapshotOf levels) :=
  ⟨⟨_, rfl⟩, rfl, rfl, rfl⟩

def yesDelta (price : WirePrice ℚ) (change : WireCount ℚ) : WireDelta ℚ where
  ticker := "M"
  side := .yes
  price
  change
  msg := .obj [("market_ticker", .str "M"), ("side", .str "yes"), ("price_dollars", .str price.text),
    ("delta_fp", .str change.text)]
  market := rfl
  onSide := rfl
  atPrice := rfl
  byCount := rfl

/-- A side on whole cents adds up, also when its level is taken away. -/
theorem wire_book_aggregates_iff_penny :
    let sides := yesOnly [⟨pennyPrice, tenContracts⟩]
    let opening := (applySnapshot (sides.rounded "M"), sides.offered)
    Aggregates ([yesDelta pennyPrice minusTen].foldl follow opening).1
      ([yesDelta pennyPrice minusTen].foldl follow opening).2 := by
  intro sides opening
  have plain : sides.Plain := by
    constructor
    · intro side
      unfold Keyed.Distinct
      cases side <;> decide
    · intro side level member
      cases side with
      | yes =>
        cases List.mem_singleton.mp member
        decide
      | no => cases member
  have sent : sides.SentAs "M" (snapshotOf [⟨pennyPrice, tenContracts⟩]) := snapshotOf_sent _
  refine (wire_book_aggregates_iff sides plain "M" (sides.rounded "M") (.inl ⟨_, sent, sent.parse⟩)
    [yesDelta pennyPrice minusTen]).mpr ⟨?_, ?_, trivial⟩ _ List.prefix_rfl
  · intro side
    unfold Keyed.Distinct
    cases side <;> decide
  · exact .inl (by decide +kernel)

/-- Two wire levels at tenths of one cent are taken away, no more than they hold at a time, and five contracts at that
cent are left in the book. -/
theorem emptied_ticks_leave_a_level :
    let sides := yesOnly [⟨lowerTick, tenContracts⟩, ⟨upperTick, tenContracts⟩]
    let deltas := [yesDelta lowerTick minusFive, yesDelta upperTick minusTen, yesDelta lowerTick minusFive]
    ∃ snap, sides.SentAs "M" (snapshotOf (sides .yes)) ∧ sides.Plain ∧
      parseSnapshot ℚ (snapshotOf (sides .yes)) = .ok snap ∧
      Run.Meets follow (fun state delta => state.2.Covers delta) (applySnapshot snap, sides.offered) deltas ∧
      let market := deltas.foldl follow (applySnapshot snap, sides.offered)
      market.2 .yes = [] ∧ market.1.levels .yes = [⟨42, ⟨500⟩⟩] ∧ ¬ Aggregates market.1 market.2 := by
  intro sides deltas
  have sent : sides.SentAs "M" (snapshotOf (sides .yes)) := snapshotOf_sent _
  have gone : (deltas.foldl follow (applySnapshot (sides.rounded "M"), sides.offered)).2 .yes = [] := by rfl
  have left : (deltas.foldl follow (applySnapshot (sides.rounded "M"), sides.offered)).1.levels .yes =
    [⟨42, ⟨500⟩⟩] := by
    decide +kernel
  refine ⟨_, sent, ?_, sent.parse, ?_, gone, left, ?_⟩
  · constructor
    · intro side
      unfold Keyed.Distinct
      cases side <;> decide +kernel
    · intro side level member
      cases side with
      | yes =>
        rcases List.mem_cons.mp member with rfl | member
        · decide
        · cases List.mem_singleton.mp member
          decide
      | no => cases member
  · exact ⟨.inl (by decide +kernel), .inl (by decide +kernel), .inl (by decide +kernel), trivial⟩
  · intro aggregates
    -- the level that is left must have a wire level behind it
    have phantom := ((aggregates .yes).2 ⟨42, ⟨500⟩⟩).mp (by rw [left]; exact List.mem_cons_self)
    obtain ⟨⟨offered, member, _⟩, _⟩ := phantom
    rw [gone] at member
    cases member

end LocalOrderbook

end Kalshi
