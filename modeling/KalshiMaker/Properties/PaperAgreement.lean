import KalshiMaker.App.PaperRequests
import KalshiMaker.Net.ScriptedHost
import Mathlib.Data.List.Find

/-! The open orders of the order manager and those of the paper exchange, over any run of requests and
crossed prints. -/
namespace Kalshi

open Effect Eff Desk PaperTransport

namespace Order

/-- What both sides of an order have to agree on. -/
def terms (order : Order) : Ticker × Side × Int × Quantity :=
  (order.marketTicker, order.side, order.priceCents, order.remainingQuantity)

def position (order : Order) : Ticker × Side × Int × Quantity × Quantity :=
  (order.marketTicker, order.side, order.priceCents, order.quantity, order.filledQuantity)

theorem terms_of_position {order other : Order} (same : order.position = other.position) :
    order.terms = other.terms := by
  simp only [position, Prod.mk.injEq] at same
  obtain ⟨on, sided, priced, sized, filled⟩ := same
  simp only [terms, remainingQuantity, on, sided, priced, sized, filled]

structure Resting (order : Order) : Prop where
  active : order.isActive = true
  valid : isValidPrice order.priceCents = true
  left : 0 < order.remainingQuantity.centi

end Order

namespace PaperTransport

variable {F : Type}

/-- The paper exchange on its own: ids it gave out, one order each, all of them resting. -/
structure Sound (paper : PaperTransport F) : Prop where
  distinct : Keyed.Distinct Order.id paper.openOrders
  numbered : ∀ order ∈ paper.openOrders, ∃ k < paper.nextId, order.id = paperId k
  resting : ∀ order ∈ paper.openOrders, order.Resting

variable {paper : PaperTransport F}

theorem Sound.order?_eq_some (sound : paper.Sound) {id : OrderId} {order : Order} :
    paper.order? id = some order ↔ order ∈ paper.openOrders ∧ order.id = id :=
  Keyed.lookup_eq_some sound.distinct

/-- The next id is a new one. -/
theorem Sound.nextOrderId_new (sound : paper.Sound) : paper.nextOrderId ∉ paper.openOrders.map Order.id := by
  intro member
  obtain ⟨order, opened, same⟩ := List.mem_map.mp member
  obtain ⟨k, earlier, numbered⟩ := sound.numbered order opened
  exact absurd (numbered_injective "paper-" (numbered.symm.trans same)) (by omega)

theorem Sound.order?_nextOrderId (sound : paper.Sound) : paper.order? paper.nextOrderId = none :=
  Keyed.lookup_eq_none.mpr sound.nextOrderId_new

theorem Sound.accept (sound : paper.Sound) {order : Order} (now : TimePoint)
    (resting : Order.Resting { order with id := paper.nextOrderId, createdAt := now }) :
    (paper.accept order now).Sound where
  distinct := Keyed.distinct_append sound.distinct sound.nextOrderId_new
  numbered := by
    intro other member
    rcases List.mem_append.mp member with member | member
    · obtain ⟨k, earlier, numbered⟩ := sound.numbered other member
      exact ⟨k, Nat.lt_succ_of_lt earlier, numbered⟩
    · exact ⟨paper.nextId, Nat.lt_succ_self _, by rw [List.mem_singleton.mp member]; rfl⟩
  resting := by
    intro other member
    rcases List.mem_append.mp member with member | member
    · exact sound.resting other member
    · exact List.mem_singleton.mp member ▸ resting

theorem Sound.delete (sound : paper.Sound) (url : String) : (paper.delete url).Sound := by
  unfold PaperTransport.delete
  split
  · exact ⟨Keyed.distinct_eraseP sound.distinct,
      fun order member => sound.numbered order (List.mem_of_mem_eraseP member),
      fun order member => sound.resting order (List.mem_of_mem_eraseP member)⟩
  · exact sound

theorem Sound.active (sound : paper.Sound) : ∀ order ∈ paper.openOrders, order.isActive = true :=
  fun order member => (sound.resting order member).active

structure Mirrors (om : OrderManager F) (paper : PaperTransport F) : Prop where
  sound : paper.Sound
  matched : ∀ id, (om.openOrders.lookup id).map Order.position = (paper.order? id).map Order.position
  seen : ∀ key ∈ om.seenFills, ∃ k ≤ paper.fills.length, key = simId k

variable {om : OrderManager F}

theorem Mirrors.place (mirrors : paper.Mirrors om) {ticker : Ticker} {side : Side} {price : Int} {quantity : Int}
    (valid : isValidPrice price = true) (positive : 0 < quantity) (now : TimePoint) :
    let order := newOrder ticker side price (Quantity.fromContracts quantity)
    (paper.accept order now).Mirrors (om.placed (placedOnPaper order paper.nextOrderId)) := by
  intro order
  refine ⟨mirrors.sound.accept now ⟨rfl, valid, ?_⟩, fun id => ?_, mirrors.seen⟩
  · simp only [order, newOrder, Order.remainingQuantity, Quantity.sub_centi, Quantity.fromContracts_centi]
    omega
  · rw [OrderManager.placed_lookup, order?_accept mirrors.sound.nextOrderId_new]
    by_cases new : id = paper.nextOrderId
    · subst new
      simp [placedOnPaper, Order.position]
    · have other : paper.nextOrderId ≠ id := fun same => new same.symm
      rw [if_neg (show ¬ id = (placedOnPaper order paper.nextOrderId).id from new), if_neg other]
      exact mirrors.matched id

/-- An open order of the order manager has an id of the paper exchange. -/
theorem Mirrors.numbered (mirrors : paper.Mirrors om) {id : OrderId} {order : Order}
    (found : om.openOrders.lookup id = some order) : ∃ k < paper.nextId, id = paperId k := by
  have matched := mirrors.matched id
  rw [found, Option.map_some] at matched
  obtain ⟨other, there, _⟩ := Option.map_eq_some_iff.mp matched.symm
  obtain ⟨opened, rfl⟩ := mirrors.sound.order?_eq_some.mp there
  exact mirrors.sound.numbered other opened

theorem Mirrors.cancel (mirrors : paper.Mirrors om) {orderId : OrderId}
    (own : lastSegment orderId = orderId ∨ ∀ order ∈ paper.openOrders, order.id ≠ lastSegment orderId)
    (path : String) : (paper.delete (path ++ "/" ++ orderId)).Mirrors (om.cancelled orderId) := by
  have slash : '/' ∈ (path ++ "/" ++ orderId).toList := by
    simp [show "/".toList = ['/'] from rfl]
  refine ⟨mirrors.sound.delete _, fun id => ?_, ?_⟩
  · rw [OrderManager.cancelled_lookup, order?_delete mirrors.sound.distinct slash, lastSegment_slash]
    rcases own with same | apart
    · rw [same]
      split
      · rfl
      · exact mirrors.matched id
    · -- nothing is taken off the paper book, and the id was not tracked
      have absent : paper.order? (lastSegment orderId) = none :=
        Keyed.lookup_eq_none.mpr fun member => by
          obtain ⟨order, opened, same⟩ := List.mem_map.mp member
          exact apart order opened same
      have unchanged : (if id = lastSegment orderId then none else paper.order? id) = paper.order? id := by
        split
        next here => rw [here, absent]
        · rfl
      rw [unchanged]
      split
      next here =>
        rw [← mirrors.matched, here]
        cases found : om.openOrders.lookup orderId with
        | none => rfl
        | some order =>
          obtain ⟨k, _, numbered⟩ := mirrors.numbered found
          rw [numbered, lastSegment_paperId, ← numbered] at absent
          have matched := mirrors.matched orderId
          rw [found, absent] at matched
          cases matched
      · exact mirrors.matched id
  · unfold PaperTransport.delete
    rw [if_pos slash]
    exact mirrors.seen

variable [Floating F]

theorem Sound.filled (sound : paper.Sound) {order : Order} (opened : order ∈ paper.openOrders) {quantity : Quantity}
    (within : quantity.centi ≤ order.remainingQuantity.centi) (now : TimePoint) :
    (paper.filled order quantity now).Sound where
  distinct := by
    unfold PaperTransport.filled
    dsimp only
    split
    · exact Keyed.distinct_eraseP sound.distinct
    · have keys : (paper.openOrders.replaceF fun other =>
          if fillable order.id other then some (afterFill order quantity) else none).map Order.id =
            paper.openOrders.map Order.id := by
        refine Keyed.map_key_replaceF (j := order.id) (b := afterFill order quantity) (fun other member => ?_) rfl
        simp only [fillable_iff (sound.active other member) order.id]
      unfold Keyed.Distinct
      rw [keys]
      exact sound.distinct
  numbered := by
    intro other member
    rcases mem_filled member with before | ⟨rfl, _⟩
    · obtain ⟨k, earlier, numbered⟩ := sound.numbered other before
      exact ⟨k, Nat.lt_succ_of_lt earlier, numbered⟩
    · obtain ⟨k, earlier, numbered⟩ := sound.numbered order opened
      exact ⟨k, Nat.lt_succ_of_lt earlier, numbered⟩
  resting := by
    intro other member
    rcases mem_filled member with before | ⟨rfl, partly⟩
    · exact sound.resting other before
    · refine ⟨?_, (sound.resting order opened).valid, ?_⟩
      · simp [Order.isActive, afterFill, partly]
      · have short : order.filledQuantity.centi + quantity.centi ≠ order.quantity.centi :=
          fun full => partly (Quantity.ext_centi full)
        simp only [Order.remainingQuantity, afterFill, Quantity.sub_centi, Quantity.add_centi] at within ⊢
        omega

end PaperTransport

section

variable [Elementary ℚ]

/-- Fewer contracts than an order has whole ones left. -/
theorem centi_le_of_wholeContracts {q : Quantity} {n : Int} (positive : 0 < n) (within : n ≤ q.wholeContracts ℚ) :
    n * 100 ≤ q.centi := by
  have value : (q.contracts : ℚ) = (q.centi : ℚ) / 100 := by
    unfold Quantity.contracts Quantity.kCentiPerContract
    norm_num
  have floored : (n : ℚ) ≤ (q.centi : ℚ) / 100 := by
    change n ≤ (if (0 : ℚ) ≤ q.contracts then ⌊(q.contracts : ℚ)⌋ else ⌈(q.contracts : ℚ)⌉) at within
    rw [value] at within
    split at within
    · exact (Int.cast_le.mpr within).trans (Int.floor_le _)
    next negative =>
      have : ⌈(q.centi : ℚ) / 100⌉ ≤ 0 := Int.ceil_le.mpr (by push_cast; exact (not_le.mp negative).le)
      omega
  have scaled : ((n * 100 : Int) : ℚ) ≤ (q.centi : ℚ) := by
    push_cast
    linarith
  exact_mod_cast scaled

namespace PaperTransport

/-- A fill of a resting order, recorded on both sides. -/
theorem Mirrors.fill {om : OrderManager ℚ} {paper : PaperTransport ℚ} (mirrors : paper.Mirrors om) {order : Order}
    {id : OrderId} (found : paper.order? id = some order) {fill : Fill ℚ} (named : fill.orderId = id)
    (within : fill.quantity.centi ≤ order.remainingQuantity.centi)
    (keyed : OrderManager.fillKey fill = simId (paper.fills.length + 1)) (now : TimePoint) :
    (paper.filled order fill.quantity now).Mirrors (om.bookFill fill) := by
  obtain ⟨opened, rfl⟩ := mirrors.sound.order?_eq_some.mp found
  refine ⟨mirrors.sound.filled opened within now, fun other => ?_, ?_⟩
  · change ((OrderManager.fillOrder om.openOrders fill).lookup other).map Order.position = _
    rw [order?_filled mirrors.sound.distinct mirrors.sound.active found]
    by_cases own : other = order.id
    · subst own
      have both := mirrors.matched order.id
      rw [found, Option.map_some, ← named] at both
      obtain ⟨mirror, mirrored, same⟩ := Option.map_eq_some_iff.mp both
      simp only [Order.position, Prod.mk.injEq] at same
      obtain ⟨on, sided, priced, sized, filledSame⟩ := same
      -- the order manager compares, the exchange tests for equality
      have full : mirror.quantity ≤ mirror.filledQuantity + fill.quantity ↔
          order.filledQuantity + fill.quantity = order.quantity := by
        rw [sized, filledSame, Quantity.le_iff]
        simp only [Order.remainingQuantity, Quantity.sub_centi, Quantity.add_centi] at within ⊢
        constructor
        · exact fun least => Quantity.ext_centi (by simp only [Quantity.add_centi]; omega)
        · intro same
          have centi := congrArg Quantity.centi same
          simp only [Quantity.add_centi] at centi
          omega
      rw [← named, OrderManager.fillOrder_lookup_self mirrored, named, if_pos rfl]
      simp only [full]
      split
      · rfl
      · simp only [Option.map_some, Order.position, afterFill, on, sided, priced, sized, filledSame]
    · rw [OrderManager.fillOrder_lookup_ne _ _ (named ▸ own), if_neg own]
      exact mirrors.matched other
  · intro key member
    have length : (paper.filled order fill.quantity now).fills.length = paper.fills.length + 1 := by
      simp [PaperTransport.filled]
    rw [length]
    rcases List.mem_cons.mp member with rfl | member
    · exact ⟨_, le_rfl, keyed⟩
    · obtain ⟨k, earlier, key⟩ := mirrors.seen key member
      exact ⟨k, Nat.le_succ_of_le earlier, key⟩

end PaperTransport

/-! ### Prints -/

/-- The target still describes the order it was taken from. -/
structure Crossable.Stands (paper : PaperTransport ℚ) (print : PublicTrade) (target : Crossable) (order : Order) :
    Prop where
  found : paper.order? target.orderId = some order
  on : order.marketTicker = print.marketTicker
  sided : order.side = target.side
  priced : order.priceCents = target.priceCents
  counted : order.remainingQuantity.wholeContracts ℚ = target.remaining
  present : 0 < target.remaining

/-- What a print takes from a standing target is some, and no more than is left of its order. -/
theorem Crossable.Stands.taken {paper : PaperTransport ℚ} {print : PublicTrade} {target : Crossable} {order : Order}
    (stands : target.Stands paper print order) {printRemaining : Int} (left : 0 < printRemaining) :
    0 < min printRemaining target.remaining ∧
      min printRemaining target.remaining * 100 ≤ order.remainingQuantity.centi := by
  have positive : 0 < min printRemaining target.remaining := lt_min left stands.present
  exact ⟨positive, centi_le_of_wholeContracts positive (stands.counted ▸ min_le_right _ _)⟩

/-- The order manager accepts a simulated fill: it has the price of an order that rests. -/
theorem Crossable.Stands.checkFill {paper : PaperTransport ℚ} (sound : paper.Sound) {print : PublicTrade}
    {target : Crossable} {order : Order} (stands : target.Stands paper print order) {quantity : Int}
    (positive : 0 < quantity) (number : Nat) :
    OrderManager.checkFill (simFill (F := ℚ) print target quantity number) = .ok () := by
  obtain ⟨opened, _⟩ := sound.order?_eq_some.mp stands.found
  have priced := (sound.resting order opened).valid
  rw [stands.priced] at priced
  have counted : (Quantity.fromContracts quantity).isPositive = true := by
    rw [Quantity.isPositive_iff, Quantity.fromContracts_centi]
    omega
  simp [OrderManager.checkFill, simFill, priced, counted]

theorem crossable_stands {paper : PaperTransport ℚ} (sound : paper.Sound) {print : PublicTrade} {target : Crossable}
    (member : target ∈ crossable paper print) : ∃ order, target.Stands paper print order := by
  obtain ⟨order, opened, taken⟩ := List.mem_filterMap.mp member
  refine ⟨order, ?_⟩
  split at taken
  · cases taken
  next here =>
    simp only [not_or, not_not] at here
    split at taken
    · dsimp only at taken
      split at taken
      next positive =>
        cases taken
        exact ⟨sound.order?_eq_some.mpr ⟨opened, rfl⟩, here.1, rfl, rfl, rfl, positive⟩
      · cases taken
    · cases taken

theorem crossable_distinct {paper : PaperTransport ℚ} (sound : paper.Sound) (print : PublicTrade) :
    Keyed.Distinct Crossable.orderId (crossable paper print) := by
  have named : ∀ (order : Order) (target : Crossable),
      target ∈ (if order.marketTicker ≠ print.marketTicker ∨ !order.isActive then none
        else if print.crosses order then
          let remaining := (order.quantity - order.filledQuantity).wholeContracts ℚ
          if 0 < remaining then some ⟨order.id, order.side, order.priceCents, remaining⟩ else none
        else none : Option Crossable) → target.orderId = order.id := by
    intro order target taken
    dsimp only at taken
    split_ifs at taken <;> cases taken
    rfl
  have apart : paper.openOrders.Pairwise fun order other => order.id ≠ other.id :=
    List.pairwise_map.mp sound.distinct
  refine List.pairwise_map.mpr (apart.filterMap _ fun order other different target taken target' taken' => ?_)
  rw [named order target taken, named other target' taken']
  exact different

variable {Y : Type} (world : Host Y)

def Desk.paperFilled (s : Desk ℚ (PaperWorld ℚ Y)) (order : Order) (quantity : Quantity) : Desk ℚ (PaperWorld ℚ Y) :=
  { s with
    outside :=
      { paper := s.outside.paper.filled order quantity (world.systemNow s.outside.rest).1
        rest := (world.systemNow s.outside.rest).2 } }

theorem simulateFill_run {s : Desk ℚ (PaperWorld ℚ Y)} (sound : s.outside.paper.Sound) {order : Order} {id : OrderId}
    (found : s.outside.paper.order? id = some order) {quantity : Int}
    (within : quantity * 100 ≤ order.remainingQuantity.centi) :
    simulateFill world id quantity s =
      (.ok true, s.paperFilled world order (Quantity.fromContracts quantity)) := by
  obtain ⟨opened, rfl⟩ := sound.order?_eq_some.mp found
  have search : s.outside.paper.openOrders.find? (fillable order.id) = some order := by
    rw [← found]
    refine List.find?_congr fun other member => ?_
    rw [Bool.eq_iff_iff, fillable_iff (sound.active other member), decide_eq_true_eq]
  have whole : Quantity.min (Quantity.fromContracts quantity) order.remainingQuantity =
      Quantity.fromContracts quantity := by
    apply Quantity.ext_centi
    rw [Quantity.min_centi, Quantity.fromContracts_centi]
    omega
  unfold simulateFill PaperWorld.simulateFill
  rw [search]
  dsimp only
  rw [whole]
  rfl

/-- The fill of one target, forwarded to the session. -/
def Desk.forwarded (s : Desk ℚ (PaperWorld ℚ Y)) (print : PublicTrade) (target : Crossable) (order : Order)
    (quantity : Int) : Except (Stop String) Bool × Desk ℚ (PaperWorld ℚ Y) :=
  TradingSession.onFill (simFill print target quantity (s.outside.paper.fills.length + 1))
    (s.paperFilled world order (Quantity.fromContracts quantity))

theorem forwarded_paper (s : Desk ℚ (PaperWorld ℚ Y)) (print : PublicTrade) (target : Crossable) (order : Order)
    (quantity : Int) :
    (s.forwarded world print target order quantity).2.outside.paper =
      s.outside.paper.filled order (Quantity.fromContracts quantity) (world.systemNow s.outside.rest).1 := by
  unfold Desk.forwarded
  rw [TradingSession.onFill_outside]
  rfl

/-- One round of the loop, while some of the print is left: the fill is forwarded, and the loop goes on. -/
theorem fillCrossable_round {print : PublicTrade} {s : Desk ℚ (PaperWorld ℚ Y)} (sound : s.outside.paper.Sound)
    {target : Crossable} {order : Order} (stands : target.Stands s.outside.paper print order)
    {printRemaining : Int} (left : 0 < printRemaining) (targets : List Crossable) :
    fillCrossable world print (target :: targets) printRemaining s =
      andThen (fun _ => do
        let filled ← fillCrossable world print targets (printRemaining - min printRemaining target.remaining)
        pure (filled + 1)) (s.forwarded world print target order (min printRemaining target.remaining)) := by
  obtain ⟨positive, within⟩ := stands.taken left
  -- the fill is numbered before it is forwarded
  have number : (s.paperFilled world order
      (Quantity.fromContracts (min printRemaining target.remaining))).outside.paper.fills.length =
        s.outside.paper.fills.length + 1 := by
    simp [Desk.paperFilled, PaperTransport.filled]
  rw [fillCrossable, if_neg left.not_ge, if_neg positive.not_ge, bind_apply,
    simulateFill_run world sound stands.found within, andThen_ok, if_pos rfl, bind_apply, get_apply, andThen_ok,
    bind_apply, number]
  rfl

theorem fillCrossable_cons {print : PublicTrade} {s : Desk ℚ (PaperWorld ℚ Y)} (sound : s.outside.paper.Sound)
    {target : Crossable} {order : Order} (stands : target.Stands s.outside.paper print order)
    {printRemaining : Int} (left : 0 < printRemaining) {new : Bool}
    (finished : (s.forwarded world print target order (min printRemaining target.remaining)).1 = .ok new)
    (targets : List Crossable) :
    (fillCrossable world print (target :: targets) printRemaining s).2 =
      (fillCrossable world print targets (printRemaining - min printRemaining target.remaining)
        (s.forwarded world print target order (min printRemaining target.remaining)).2).2 := by
  rw [fillCrossable_round world sound stands left targets]
  cases ran : s.forwarded world print target order (min printRemaining target.remaining) with
  | mk r s' =>
    rw [ran] at finished
    cases finished
    rw [andThen_ok, bind_apply, andThen_pure_state]

/-- A fill of one target leaves the others standing. -/
theorem Crossable.Stands.after_filled {paper : PaperTransport ℚ} (sound : paper.Sound) {print : PublicTrade}
    {target other : Crossable} {order order' : Order} (here : target.Stands paper print order)
    (there : other.Stands paper print order') (apart : other.orderId ≠ target.orderId) (quantity : Quantity)
    (now : TimePoint) : other.Stands (paper.filled order quantity now) print order' := by
  obtain ⟨_, same⟩ := sound.order?_eq_some.mp here.found
  refine ⟨?_, there.on, there.sided, there.priced, there.counted, there.present⟩
  rw [order?_filled sound.distinct sound.active (same ▸ here.found), if_neg (same ▸ apart)]
  exact there.found

/-- Each order is crossed once, so the targets that follow stand after a fill is forwarded. -/
theorem Crossable.Stands.others_forwarded {s : Desk ℚ (PaperWorld ℚ Y)} (sound : s.outside.paper.Sound)
    {print : PublicTrade} {target : Crossable} {order : Order} (here : target.Stands s.outside.paper print order)
    {targets : List Crossable} (new : target.orderId ∉ targets.map Crossable.orderId)
    (stands : ∀ other ∈ target :: targets, ∃ order', other.Stands s.outside.paper print order') (quantity : Int) :
    ∀ other ∈ targets, ∃ order',
      other.Stands (s.forwarded world print target order quantity).2.outside.paper print order' := by
  intro other member
  obtain ⟨order', there⟩ := stands other (List.mem_cons_of_mem _ member)
  refine ⟨order', ?_⟩
  rw [forwarded_paper]
  exact here.after_filled sound there (fun same => new (same ▸ List.mem_map_of_mem member)) _ _

/-- What every fill of a print preserves, the whole print preserves. -/
theorem fillCrossable_invariant {print : PublicTrade} (P : Desk ℚ (PaperWorld ℚ Y) → Prop)
    (sound : ∀ s, P s → s.outside.paper.Sound) {targets : List Crossable}
    (preserved : ∀ s target order quantity, P s → target ∈ targets → target.Stands s.outside.paper print order →
      0 < quantity → quantity * 100 ≤ order.remainingQuantity.centi →
        (∃ new, (s.forwarded world print target order quantity).1 = .ok new) ∧
          P (s.forwarded world print target order quantity).2)
    (distinct : Keyed.Distinct Crossable.orderId targets) {s : Desk ℚ (PaperWorld ℚ Y)}
    (stands : ∀ target ∈ targets, ∃ order, target.Stands s.outside.paper print order) (initial : P s)
    (printRemaining : Int) : P (fillCrossable world print targets printRemaining s).2 := by
  induction targets generalizing s printRemaining with
  | nil => exact initial
  | cons target targets ih =>
    obtain ⟨new, distinct⟩ := List.nodup_cons.mp distinct
    obtain ⟨order, here⟩ := stands target List.mem_cons_self
    by_cases left : 0 < printRemaining
    · obtain ⟨positive, within⟩ := here.taken left
      obtain ⟨⟨_, finished⟩, kept⟩ := preserved s target order _ initial List.mem_cons_self here positive within
      rw [fillCrossable_cons world (sound s initial) here left finished]
      refine ih ?_ distinct (here.others_forwarded world (sound s initial) new stands _) kept _
      -- what every target preserves, the targets that follow preserve
      intro s target order quantity holds member
      exact preserved s target order quantity holds (List.mem_cons_of_mem _ member)
    · rw [fillCrossable, if_pos (not_lt.mp left)]
      exact initial

theorem fillCrossable_nothing {print : PublicTrade} {targets : List Crossable} {printRemaining : Int}
    (nothing : printRemaining ≤ 0 ∨ targets = []) (s : Desk ℚ (PaperWorld ℚ Y)) :
    fillCrossable world print targets printRemaining s = (.ok 0, s) := by
  rcases nothing with spent | rfl
  · cases targets with
    | nil => rfl
    | cons target targets =>
      rw [fillCrossable, if_pos spent]
      rfl
  · rfl

omit [Elementary ℚ] in
theorem simId_ne_empty (n : Nat) : simId n ≠ "" := by
  intro same
  have chars := congrArg String.toList same
  simp [simId] at chars

theorem fillKey_simFill (print : PublicTrade) (target : Crossable) (quantity : Int) (number : Nat) :
    OrderManager.fillKey (simFill (F := ℚ) print target quantity number) = simId number := if_pos (simId_ne_empty _)

/-- A forwarded fill of a tracked market is recorded on both sides. -/
theorem PaperTransport.Mirrors.forwarded {s : Desk ℚ (PaperWorld ℚ Y)}
    (mirrors : s.outside.paper.Mirrors s.orderMgr) {print : PublicTrade}
    (tracked : print.marketTicker ∈ s.session.tickers) {target : Crossable} {order : Order}
    (stands : target.Stands s.outside.paper print order) {quantity : Int} (positive : 0 < quantity)
    (within : quantity * 100 ≤ order.remainingQuantity.centi) :
    (∃ new, (s.forwarded world print target order quantity).1 = .ok new) ∧
      (s.forwarded world print target order quantity).2.outside.paper.Mirrors
        (s.forwarded world print target order quantity).2.orderMgr ∧
      print.marketTicker ∈ (s.forwarded world print target order quantity).2.session.tickers := by
  have keyed := fillKey_simFill print target quantity (s.outside.paper.fills.length + 1)
  -- the next number is beyond all that were used, so the fill is no duplicate
  have new : OrderManager.fillKey (simFill (F := ℚ) print target quantity (s.outside.paper.fills.length + 1)) ∉
      s.orderMgr.seenFills := by
    rw [keyed]
    intro member
    obtain ⟨k, earlier, same⟩ := mirrors.seen _ member
    have := numbered_injective "sim-" same
    omega
  obtain ⟨finished, orders, tickers⟩ := TradingSession.onFill_tracked (s := s.paperFilled world order
    (Quantity.fromContracts quantity)) tracked (stands.checkFill mirrors.sound positive _) new
  refine ⟨⟨true, finished⟩, ?_, ?_⟩
  · rw [forwarded_paper]
    unfold Desk.forwarded
    rw [orders]
    exact mirrors.fill stands.found rfl (by simpa [simFill] using within) keyed _
  · unfold Desk.forwarded
    rw [tickers]
    exact tracked

/-! ### Runs of requests and prints -/

inductive PaperOp where
  | place (ticker : Ticker) (side : Side) (priceCents quantity : Int)
  | amend (orderId : OrderId) (ticker : Ticker) (side : Side) (newPriceCents : Int) (count : Quantity)
  | cancel (orderId : OrderId)
  | cross (print : PublicTrade)

variable (rest : RestClient)

def PaperOp.perform : PaperOp → Eff (Desk ℚ (PaperWorld ℚ Y)) String Unit
  | .place ticker side priceCents quantity => do
    let _ ← OrderManager.place (paperVenue rest world) ticker side priceCents quantity
  | .amend orderId ticker side newPriceCents count => do
    let _ ← OrderManager.amend (paperVenue rest world) orderId ticker side newPriceCents count
  | .cancel orderId => do
    let _ ← OrderManager.cancel (paperVenue rest world) orderId
  | .cross print => do
    let _ ← simulateMakerFills world print

def paperStep (s : Desk ℚ (PaperWorld ℚ Y)) (op : PaperOp) : Desk ℚ (PaperWorld ℚ Y) :=
  (op.perform world rest s).2

/-- The two sets of open orders are one: same ids, tickers, sides, prices and remaining quantities. -/
structure Desk.PaperAgrees (s : Desk ℚ (PaperWorld ℚ Y)) : Prop where
  distinct : (s.outside.paper.openOrders.map Order.id).Nodup
  same : ∀ id terms, (∃ order, s.orderMgr.openOrders.lookup id = some order ∧ order.terms = terms) ↔
    ∃ order ∈ s.outside.paper.openOrders, order.id = id ∧ order.terms = terms

/-- No amend, no cancel whose id ends in another open order's, and no print that would fill orders
of a market the session does not track. -/
def PaperOp.Faithful (s : Desk ℚ (PaperWorld ℚ Y)) : PaperOp → Prop
  | .place _ _ _ _ => True
  | .amend _ _ _ _ _ => False
  | .cancel orderId => lastSegment orderId = orderId ∨
      ∀ order ∈ s.outside.paper.openOrders, order.id ≠ lastSegment orderId
  | .cross print => print.marketTicker ∈ s.session.tickers ∨ print.quantity.wholeContracts ℚ ≤ 0 ∨
      crossable s.outside.paper print = []

theorem Desk.PaperAgrees.terms_eq {s : Desk ℚ (PaperWorld ℚ Y)} (agrees : s.PaperAgrees) (id : OrderId) :
    (s.orderMgr.openOrders.lookup id).map Order.terms = (s.outside.paper.order? id).map Order.terms := by
  apply Option.ext
  intro terms
  rw [Option.map_eq_some_iff, agrees.same, Option.map_eq_some_iff]
  simp only [order?, Keyed.lookup_eq_some agrees.distinct, and_assoc]

theorem PaperTransport.Mirrors.agrees {s : Desk ℚ (PaperWorld ℚ Y)}
    (mirrors : s.outside.paper.Mirrors s.orderMgr) : s.PaperAgrees where
  distinct := mirrors.sound.distinct
  same := by
    intro id terms
    have matched := mirrors.matched id
    simp only [← and_assoc, ← mirrors.sound.order?_eq_some]
    cases mine : s.orderMgr.openOrders.lookup id with
    | none =>
      rw [mine] at matched
      simp [Option.map_eq_none_iff.mp matched.symm]
    | some order =>
      rw [mine] at matched
      obtain ⟨other, found, same⟩ := Option.map_eq_some_iff.mp matched.symm
      simp [found, Order.terms_of_position same]

/-- A faithful step keeps the two sides mirrored. -/
theorem paperStep_keeps (s : Desk ℚ (PaperWorld ℚ Y)) (op : PaperOp) (faithful : op.Faithful s)
    (mirrors : s.outside.paper.Mirrors s.orderMgr) :
    (paperStep world rest s op).outside.paper.Mirrors (paperStep world rest s op).orderMgr := by
  unfold paperStep PaperOp.perform
  cases op with
  | place ticker side price quantity =>
    dsimp only
    rw [bind_apply]
    rcases place_paper world rest s ticker side price quantity with ⟨what, refused⟩ | ⟨valid, positive, placed⟩
    · rw [refused]
      exact mirrors
    · rw [placed]
      exact mirrors.place valid positive _
  | amend orderId ticker side newPriceCents count => exact faithful.elim
  | cancel orderId =>
    dsimp only
    rw [bind_apply, cancel_paper]
    exact mirrors.cancel faithful rest.ordersUrl
  | cross print =>
    dsimp only
    rw [bind_apply, andThen_pure_state]
    unfold simulateMakerFills
    rw [bind_apply, get_apply, andThen_ok]
    -- a print of an untracked market is faithful only where it fills nothing
    rcases faithful with tracked | nothing
    · refine (fillCrossable_invariant world
        (fun s => s.outside.paper.Mirrors s.orderMgr ∧ print.marketTicker ∈ s.session.tickers)
        (fun s holds => holds.1.sound) ?_ (crossable_distinct mirrors.sound print)
        (fun target member => crossable_stands mirrors.sound member) ⟨mirrors, tracked⟩ _).1
      intro s target order quantity holds _ stands positive within
      exact holds.1.forwarded world holds.2 stands positive within
    · rw [fillCrossable_nothing world nothing]
      exact mirrors

/-- After an amend the paper exchange has two orders where the order manager has one. -/
theorem amend_breaks {s : Desk ℚ (PaperWorld ℚ Y)} (mirrors : s.outside.paper.Mirrors s.orderMgr)
    (orderId : OrderId) (ticker : Ticker) (side : Side) (price : Int) (count : Quantity) :
    ¬ (paperStep world rest s (.amend orderId ticker side price count)).PaperAgrees := by
  intro agrees
  have both := agrees.terms_eq
  unfold paperStep PaperOp.perform at both
  simp only [bind_apply, amend_paper, andThen_ok, pure_apply] at both
  let newId := s.outside.paper.nextOrderId
  have free : s.outside.paper.order? newId = none := mirrors.sound.order?_nextOrderId
  -- the amended order, or one the order manager never had: the exchange opens a new one either way
  cases found : s.orderMgr.openOrders.lookup orderId with
  | none =>
    have untracked : s.orderMgr.openOrders.lookup newId = none := by
      have matched := mirrors.matched newId
      rwa [free, Option.map_none, Option.map_eq_none_iff] at matched
    have new := both newId
    change ((s.orderMgr.amended orderId newId price).openOrders.lookup newId).map Order.terms =
      ((s.outside.paper.accept _ _).order? newId).map Order.terms at new
    rw [OrderManager.amended_untracked found, untracked, order?_accept mirrors.sound.nextOrderId_new,
      if_pos rfl] at new
    cases new
  | some order =>
    have older : newId ≠ orderId := by
      intro same
      have matched := mirrors.matched orderId
      rw [found, ← same, free] at matched
      cases matched
    have old := both orderId
    change ((s.orderMgr.amended orderId newId price).openOrders.lookup orderId).map Order.terms =
      ((s.outside.paper.accept _ _).order? orderId).map Order.terms at old
    have matched := mirrors.matched orderId
    rw [OrderManager.amended_lookup found, if_neg older.symm, if_pos rfl,
      order?_accept mirrors.sound.nextOrderId_new, if_neg older] at old
    rw [found, Option.map_eq_none_iff.mp old.symm] at matched
    cases matched

theorem cancel_breaks {s : Desk ℚ (PaperWorld ℚ Y)} (mirrors : s.outside.paper.Mirrors s.orderMgr)
    {orderId : OrderId} (other : lastSegment orderId ≠ orderId) {order : Order}
    (opened : order ∈ s.outside.paper.openOrders) (named : order.id = lastSegment orderId) :
    ¬ (paperStep world rest s (.cancel orderId)).PaperAgrees := by
  intro agrees
  have both := agrees.terms_eq (lastSegment orderId)
  have slash : '/' ∈ (rest.ordersUrl ++ "/" ++ orderId).toList := by
    simp [show "/".toList = ['/'] from rfl]
  unfold paperStep PaperOp.perform at both
  simp only [bind_apply, cancel_paper, andThen_ok, pure_apply] at both
  change ((s.orderMgr.cancelled orderId).openOrders.lookup (lastSegment orderId)).map Order.terms =
    ((s.outside.paper.delete (rest.ordersUrl ++ "/" ++ orderId)).order? (lastSegment orderId)).map Order.terms
    at both
  rw [OrderManager.cancelled_lookup, if_neg other, order?_delete mirrors.sound.distinct slash, lastSegment_slash,
    if_pos rfl] at both
  have matched := mirrors.matched (lastSegment orderId)
  rw [mirrors.sound.order?_eq_some.mpr ⟨opened, named⟩, Option.map_eq_none_iff.mp both] at matched
  cases matched

/-- A forwarded fill of a market that is not tracked leaves the order manager as it was. -/
theorem forwarded_untracked {s : Desk ℚ (PaperWorld ℚ Y)} {print : PublicTrade}
    (untracked : print.marketTicker ∉ s.session.tickers) (target : Crossable) (order : Order) (quantity : Int) :
    (s.forwarded world print target order quantity).1 = .ok false ∧
      (s.forwarded world print target order quantity).2.orderMgr = s.orderMgr ∧
      (s.forwarded world print target order quantity).2.session.tickers = s.session.tickers := by
  unfold Desk.forwarded
  rw [TradingSession.onFill_untracked (s := s.paperFilled world order (Quantity.fromContracts quantity)) untracked]
  exact ⟨rfl, rfl, rfl⟩

/-- The order manager and the tracked markets are still those of `s`, and an order is as `paper` has it. -/
structure Desk.Missed (s : Desk ℚ (PaperWorld ℚ Y)) (paper : PaperTransport ℚ) (id : OrderId)
    (t : Desk ℚ (PaperWorld ℚ Y)) : Prop where
  orders : t.orderMgr = s.orderMgr
  tickers : t.session.tickers = s.session.tickers
  sound : t.outside.paper.Sound
  unchanged : t.outside.paper.order? id = paper.order? id

/-- The later fills of a print are of other orders. -/
theorem Desk.Missed.forwarded {s t : Desk ℚ (PaperWorld ℚ Y)} {paper : PaperTransport ℚ} {id : OrderId}
    (missed : s.Missed paper id t) {print : PublicTrade} (untracked : print.marketTicker ∉ s.session.tickers)
    {target : Crossable} {order : Order} (stands : target.Stands t.outside.paper print order)
    (other : id ≠ target.orderId) {quantity : Int} (within : quantity * 100 ≤ order.remainingQuantity.centi) :
    (∃ new, (t.forwarded world print target order quantity).1 = .ok new) ∧
      s.Missed paper id (t.forwarded world print target order quantity).2 := by
  obtain ⟨finished, orders, tickers⟩ :=
    forwarded_untracked world (missed.tickers ▸ untracked) target order quantity
  obtain ⟨opened, named⟩ := missed.sound.order?_eq_some.mp stands.found
  refine ⟨⟨false, finished⟩, orders.trans missed.orders, tickers.trans missed.tickers, ?_, ?_⟩
  · rw [forwarded_paper]
    exact missed.sound.filled opened (by simpa using within) _
  · rw [forwarded_paper, order?_filled missed.sound.distinct missed.sound.active (named ▸ stands.found),
      if_neg (named ▸ other)]
    exact missed.unchanged

/-- An order filled on the paper exchange alone has less left there than with the order manager. -/
theorem PaperTransport.Mirrors.filled_apart {s t : Desk ℚ (PaperWorld ℚ Y)}
    (mirrors : s.outside.paper.Mirrors s.orderMgr) {order : Order} {id : OrderId}
    (found : s.outside.paper.order? id = some order) {quantity : Int} (positive : 0 < quantity) (now : TimePoint)
    (missed : s.Missed (s.outside.paper.filled order (Quantity.fromContracts quantity) now) id t) :
    ¬ t.PaperAgrees := by
  intro agrees
  obtain ⟨_, rfl⟩ := mirrors.sound.order?_eq_some.mp found
  have both := agrees.terms_eq order.id
  rw [missed.orders, missed.unchanged, order?_filled mirrors.sound.distinct mirrors.sound.active found,
    if_pos rfl] at both
  have matched := mirrors.matched order.id
  rw [found] at matched
  obtain ⟨mirror, tracked, same⟩ := Option.map_eq_some_iff.mp matched
  rw [tracked] at both
  split at both
  · cases both
  -- the two remainders were the same before the fill and would be again after it
  · have after : mirror.remainingQuantity =
        (afterFill order (Quantity.fromContracts quantity)).remainingQuantity :=
      congrArg (fun terms => terms.2.2.2) (Option.some.inj both)
    have before : mirror.remainingQuantity = order.remainingQuantity :=
      congrArg (fun terms => terms.2.2.2) (Order.terms_of_position same)
    have centi := congrArg Quantity.centi (before.symm.trans after)
    simp only [Order.remainingQuantity, afterFill, Quantity.sub_centi, Quantity.add_centi,
      Quantity.fromContracts_centi] at centi
    omega

theorem cross_breaks {s : Desk ℚ (PaperWorld ℚ Y)} (mirrors : s.outside.paper.Mirrors s.orderMgr)
    {print : PublicTrade} (untracked : print.marketTicker ∉ s.session.tickers)
    (left : 0 < print.quantity.wholeContracts ℚ) (crossing : crossable s.outside.paper print ≠ []) :
    ¬ (paperStep world rest s (.cross print)).PaperAgrees := by
  have stands : ∀ target ∈ crossable s.outside.paper print, ∃ order, target.Stands s.outside.paper print order :=
    fun target member => crossable_stands mirrors.sound member
  have distinct := crossable_distinct mirrors.sound print
  have performed : paperStep world rest s (.cross print) = (fillCrossable world print
      (crossable s.outside.paper print) (print.quantity.wholeContracts ℚ) s).2 := by
    unfold paperStep PaperOp.perform simulateMakerFills
    dsimp only
    rw [bind_apply, andThen_pure_state]
    rfl
  rw [performed]
  cases listed : crossable s.outside.paper print with
  | nil => exact absurd listed crossing
  | cons target targets =>
    rw [listed] at stands distinct
    obtain ⟨order, here⟩ := stands target List.mem_cons_self
    obtain ⟨new, distinct⟩ := List.nodup_cons.mp distinct
    obtain ⟨opened, _⟩ := mirrors.sound.order?_eq_some.mp here.found
    obtain ⟨positive, within⟩ := here.taken left
    obtain ⟨finished, orders, tickers⟩ := forwarded_untracked world untracked target order
      (min (print.quantity.wholeContracts ℚ) target.remaining)
    rw [fillCrossable_cons world mirrors.sound here left finished]
    -- the first fill already parts the two sides, and later ones are of other orders
    refine mirrors.filled_apart here.found positive (world.systemNow s.outside.rest).1 ?_
    refine fillCrossable_invariant world (fun t => s.Missed _ target.orderId t) (fun t missed => missed.sound)
      ?_ distinct (here.others_forwarded world mirrors.sound new stands _) ⟨orders, tickers, ?_, ?_⟩ _
    · intro t other order' quantity missed member there _ within'
      exact missed.forwarded world untracked there
        (fun same => new (same ▸ List.mem_map_of_mem member)) within'
    · rw [forwarded_paper]
      exact mirrors.sound.filled opened (by simpa using within) _
    · rw [forwarded_paper]

theorem unfaithful_breaks {s : Desk ℚ (PaperWorld ℚ Y)} (mirrors : s.outside.paper.Mirrors s.orderMgr)
    {op : PaperOp} (unfaithful : ¬ op.Faithful s) : ¬ (paperStep world rest s op).PaperAgrees := by
  cases op with
  | place ticker side price quantity => exact absurd trivial unfaithful
  | amend orderId ticker side price count => exact amend_breaks world rest mirrors orderId ticker side price count
  | cancel orderId =>
    simp only [PaperOp.Faithful, not_or, not_forall, not_not] at unfaithful
    obtain ⟨other, order, opened, named⟩ := unfaithful
    exact cancel_breaks world rest mirrors other opened named
  | cross print =>
    simp only [PaperOp.Faithful, not_or, not_le] at unfaithful
    exact cross_breaks world rest mirrors unfaithful.1 unfaithful.2.1 unfaithful.2.2

/-- A paper desk before its first order. -/
def Desk.paperStart (session : TradingSession ℚ) (config : QuoterConfig ℚ) (limits : RiskLimits ℚ) (y : Y)
    (flowGuard : Option (FlowImbalanceGuard ℚ)) (tradeTape : Option (TradeTape ℚ))
    (analytics pnlListener : Bool) : Desk ℚ (PaperWorld ℚ Y) :=
  (Process.start session config limits { paper := {}, rest := y } flowGuard tradeTape analytics pnlListener).desk

/-- All along a run the two sides agree exactly if all its steps are faithful. -/
theorem paper_agrees_iff (session : TradingSession ℚ) (config : QuoterConfig ℚ) (limits : RiskLimits ℚ) (y : Y)
    (flowGuard : Option (FlowImbalanceGuard ℚ)) (tradeTape : Option (TradeTape ℚ))
    (analytics pnlListener : Bool) (ops : List PaperOp) :
    (∀ seen, seen <+: ops → (seen.foldl (paperStep world rest) (Desk.paperStart session config limits y flowGuard
        tradeTape analytics pnlListener)).PaperAgrees) ↔
      Run.Meets (paperStep world rest) (fun s op => op.Faithful s)
        (Desk.paperStart session config limits y flowGuard tradeTape analytics pnlListener) ops := by
  refine Run.holds_iff_meets (fun s => s.outside.paper.Mirrors s.orderMgr) Desk.PaperAgrees
    (fun s mirrors => mirrors.agrees)
    (fun s op faithful mirrors => paperStep_keeps world rest s op faithful mirrors)
    (fun s op unfaithful mirrors => unfaithful_breaks world rest mirrors unfaithful) ?_ ops
  refine ⟨⟨List.nodup_nil, ?_, ?_⟩, fun id => rfl, ?_⟩ <;> exact fun _ member => by cases member

end

/-- An amend leaves the old order on the paper exchange beside the new one, and a print through both
fills the old one, which the order manager no longer knows. -/
theorem amend_leaves_old_order :
    let start := Desk.paperStart { tickers := ["M"] } {} {} ({} : Script) none none false false
    let s := [PaperOp.place "M" .yes 40 10, .amend "paper-1" "M" .yes 45 ⟨1000⟩].foldl
      (paperStep Script.host ⟨"exchange"⟩) start
    let print : PublicTrade :=
      { tradeId := "t", marketTicker := "M", yesPriceCents := 35, quantity := ⟨500⟩, takerSide := .no,
        timestamp := 0 }
    ¬ s.PaperAgrees ∧
    s.outside.paper.openOrders.map (fun order => (order.id, order.priceCents)) = [("paper-1", 40), ("paper-2", 45)] ∧
    s.orderMgr.openOrders.keys = ["paper-2"] ∧
    (paperStep Script.host ⟨"exchange"⟩ s (.cross print)).outside.paper.fills.map Fill.orderId = ["paper-1"] := by
  intro start s print
  refine ⟨fun agrees => ?_, by decide +kernel, by decide +kernel, by decide +kernel⟩
  have both := agrees.terms_eq "paper-1"
  revert both
  decide +kernel

end Kalshi
