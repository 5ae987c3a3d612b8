import KalshiMaker.Properties.PaperAgreement
import Mathlib.Algebra.Order.BigOperators.Group.List

/-! A public print fills the paper orders it trades through, as far as it reaches, and each fill is recorded once. -/
namespace Kalshi

open Effect Eff Desk PaperTransport

/-! ### The orders a print trades through -/

/-- The YES price of an order. -/
def Order.yesPriceCents (order : Order) : Int :=
  match order.side with
  | .yes => order.priceCents
  | .no => complementPrice order.priceCents

/-- An active order of the print's market, on the side its taker traded against and at a price strictly inside. -/
structure PublicTrade.TradesThrough (print : PublicTrade) (order : Order) : Prop where
  active : order.isActive = true
  market : order.marketTicker = print.marketTicker
  opposed : order.side = print.takerSide.opposite
  inside : 0 < print.takerSide.toward (print.yesPriceCents - order.yesPriceCents)

theorem PublicTrade.tradesThrough_iff (print : PublicTrade) (order : Order) :
    print.TradesThrough order ↔
      order.marketTicker = print.marketTicker ∧ order.isActive = true ∧ print.crosses order = true := by
  have crossed : print.crosses order = true ↔ order.side = print.takerSide.opposite ∧
      0 < print.takerSide.toward (print.yesPriceCents - order.yesPriceCents) := by
    unfold PublicTrade.crosses Order.yesPriceCents
    cases print.takerSide <;> cases order.side <;> simp [Side.opposite, Side.toward]
  rw [crossed]
  constructor
  · rintro ⟨active, market, opposed, inside⟩
    exact ⟨market, active, opposed, inside⟩
  · rintro ⟨market, active, opposed, inside⟩
    exact ⟨active, market, opposed, inside⟩

instance (print : PublicTrade) : DecidablePred print.TradesThrough :=
  fun order => decidable_of_iff _ (print.tradesThrough_iff order).symm

/-- What a fill says of its order, the trade id and the time apart. -/
def Fill.deal {F : Type} (fill : Fill F) : OrderId × Ticker × Side × Int × Quantity :=
  (fill.orderId, fill.marketTicker, fill.side, fill.priceCents, fill.quantity)

section

variable [Elementary ℚ]

theorem crossable_eq (paper : PaperTransport ℚ) (print : PublicTrade) :
    crossable paper print = (paper.openOrders.filter print.TradesThrough).filterMap fun order =>
      if 0 < order.remainingQuantity.wholeContracts ℚ then
        some ⟨order.id, order.side, order.priceCents, order.remainingQuantity.wholeContracts ℚ⟩
      else none := by
  unfold crossable
  rw [List.filterMap_filter]
  apply List.filterMap_congr
  intro order _
  by_cases through : print.TradesThrough order
  · obtain ⟨market, active, crossed⟩ := (print.tradesThrough_iff order).mp through
    rw [if_neg (by simp [market, active]), if_pos crossed, if_pos (decide_eq_true through)]
    rfl
  · have missed := fun market active crossed => through ((print.tradesThrough_iff order).mpr ⟨market, active, crossed⟩)
    rw [if_neg (fun chosen => through (of_decide_eq_true chosen))]
    split
    · rfl
    next here =>
      simp only [not_or, not_not, Bool.not_eq_true', Bool.not_eq_false] at here
      rw [if_neg (missed here.1 here.2)]

/-! ### How far a print reaches -/

/-- The fills that a print makes along its targets; `fills` numbers them. -/
def simFills (print : PublicTrade) : List Crossable → Int → Nat → List (Fill ℚ)
  | [], _, _ => []
  | target :: targets, printRemaining, fills =>
    if printRemaining ≤ 0 then []
    else simFill print target (min printRemaining target.remaining) (fills + 1) ::
      simFills print targets (printRemaining - min printRemaining target.remaining) (fills + 1)

section

variable {print : PublicTrade} {targets : List Crossable}

theorem simFills_total (present : ∀ target ∈ targets, 0 < target.remaining) (printRemaining : Int) (fills : Nat) :
    ((simFills print targets printRemaining fills).map fun fill => fill.quantity.centi).sum =
      100 * min (max 0 printRemaining) (targets.map Crossable.remaining).sum := by
  induction targets generalizing printRemaining fills with
  | nil => simp [simFills]
  | cons target targets ih =>
    have first := present target List.mem_cons_self
    have others : 0 ≤ (targets.map Crossable.remaining).sum := by
      apply List.sum_nonneg
      intro remaining member
      obtain ⟨other, among, rfl⟩ := List.mem_map.mp member
      exact (present other (List.mem_cons_of_mem _ among)).le
    rw [simFills, List.map_cons, List.sum_cons]
    split
    next spent =>
      simp only [List.map_nil, List.sum_nil]
      omega
    next left =>
      rw [List.map_cons, List.sum_cons, ih fun other member => present other (List.mem_cons_of_mem _ member)]
      simp only [simFill, Quantity.fromContracts_centi]
      omega

theorem mem_simFills {printRemaining : Int} {fills : Nat} {fill : Fill ℚ}
    (present : ∀ target ∈ targets, 0 < target.remaining)
    (member : fill ∈ simFills print targets printRemaining fills) :
    ∃ target ∈ targets, ∃ quantity number, 0 < quantity ∧ quantity ≤ target.remaining ∧ fills < number ∧
      fill = simFill print target quantity number := by
  induction targets generalizing printRemaining fills with
  | nil => cases member
  | cons target targets ih =>
    rw [simFills] at member
    split at member
    · cases member
    next left =>
      have first := present target List.mem_cons_self
      rcases List.mem_cons.mp member with rfl | later
      · exact ⟨target, List.mem_cons_self, _, _, lt_min (not_le.mp left) first, min_le_right _ _,
          Nat.lt_succ_self _, rfl⟩
      · obtain ⟨other, among, quantity, number, positive, within, numbered, same⟩ :=
          ih (fun other member => present other (List.mem_cons_of_mem _ member)) later
        exact ⟨other, List.mem_cons_of_mem _ among, quantity, number, positive, within, by omega, same⟩

theorem simFills_orders (printRemaining : Int) (fills : Nat) :
    ((simFills print targets printRemaining fills).map Fill.orderId).Sublist (targets.map Crossable.orderId) := by
  induction targets generalizing printRemaining fills with
  | nil => exact List.Sublist.refl _
  | cons target targets ih =>
    rw [simFills]
    split
    · exact List.nil_sublist _
    · exact (ih _ _).cons_cons _

theorem simFills_keys (present : ∀ target ∈ targets, 0 < target.remaining) (printRemaining : Int) (fills : Nat) :
    ((simFills print targets printRemaining fills).map OrderManager.fillKey).Nodup := by
  induction targets generalizing printRemaining fills with
  | nil => exact List.nodup_nil
  | cons target targets ih =>
    have rest := fun other member => present other (List.mem_cons_of_mem target member)
    rw [simFills]
    split
    · exact List.nodup_nil
    · rw [List.map_cons]
      refine List.nodup_cons.mpr ⟨fun member => ?_, ih rest _ _⟩
      obtain ⟨fill, later, same⟩ := List.mem_map.mp member
      obtain ⟨other, _, quantity, number, _, _, numbered, rfl⟩ := mem_simFills rest later
      rw [fillKey_simFill, fillKey_simFill] at same
      have equal := numbered_injective "sim-" same
      omega

end

/-! ### The loop -/

section

variable {Y : Type} (world : Host Y) {print : PublicTrade} {s : Desk ℚ (PaperWorld ℚ Y)}

/-- Before a print of a market: the paper book is sound, and no fill that is still to be numbered has been seen. -/
structure Desk.AwaitsPrint (s : Desk ℚ (PaperWorld ℚ Y)) (print : PublicTrade) : Prop where
  sound : s.outside.paper.Sound
  tracked : print.marketTicker ∈ s.session.tickers
  unseen : ∀ number, s.outside.paper.fills.length < number → simId number ∉ s.orderMgr.seenFills

variable {target : Crossable} {order : Order} {quantity : Int}

theorem Desk.AwaitsPrint.forwarded (awaits : s.AwaitsPrint print) (stands : target.Stands s.outside.paper print order)
    (positive : 0 < quantity) (within : quantity * 100 ≤ order.remainingQuantity.centi) :
    (s.forwarded world print target order quantity).1 = .ok true ∧
      (s.forwarded world print target order quantity).2.orderMgr =
        s.orderMgr.bookFill (simFill print target quantity (s.outside.paper.fills.length + 1)) ∧
      (s.forwarded world print target order quantity).2.AwaitsPrint print := by
  obtain ⟨opened, _⟩ := awaits.sound.order?_eq_some.mp stands.found
  have new : OrderManager.fillKey (simFill (F := ℚ) print target quantity (s.outside.paper.fills.length + 1)) ∉
      s.orderMgr.seenFills := by
    rw [fillKey_simFill]
    exact awaits.unseen _ (Nat.lt_succ_self _)
  obtain ⟨finished, orders, tickers⟩ := TradingSession.onFill_tracked (s := s.paperFilled world order
    (Quantity.fromContracts quantity)) awaits.tracked (stands.checkFill awaits.sound positive _) new
  refine ⟨finished, orders, ?_, ?_, ?_⟩
  · rw [forwarded_paper]
    exact awaits.sound.filled opened (by simpa using within) _
  · unfold Desk.forwarded
    rw [tickers]
    exact awaits.tracked
  · intro number later
    rw [forwarded_paper] at later
    unfold Desk.forwarded
    rw [orders]
    -- the fill takes the next number, and the later ones stay unused
    have longer : s.outside.paper.fills.length + 1 < number := by simpa [PaperTransport.filled] using later
    intro member
    rcases List.mem_cons.mp member with same | before
    · rw [fillKey_simFill] at same
      have equal := numbered_injective "sim-" same
      omega
    · exact awaits.unseen number (by omega) before

/-- A round of the loop counts its order. -/
theorem fillCrossable_counts (awaits : s.AwaitsPrint print) (stands : target.Stands s.outside.paper print order)
    {printRemaining : Int} (left : 0 < printRemaining) {targets : List Crossable} {filled : Nat}
    {t : Desk ℚ (PaperWorld ℚ Y)}
    (rest : fillCrossable world print targets (printRemaining - min printRemaining target.remaining)
      (s.forwarded world print target order (min printRemaining target.remaining)).2 = (.ok filled, t)) :
    fillCrossable world print (target :: targets) printRemaining s = (.ok (filled + 1), t) := by
  obtain ⟨positive, within⟩ := stands.taken left
  have finished := (awaits.forwarded world stands positive within).1
  rw [fillCrossable_round world awaits.sound stands left targets]
  cases ran : s.forwarded world print target order (min printRemaining target.remaining) with
  | mk r u =>
    rw [ran] at finished rest
    cases finished
    rw [andThen_ok, bind_apply, rest, andThen_ok]
    rfl

/-- The whole loop makes the fills of `simFills`, on the paper book and in the order manager. -/
theorem fillCrossable_run {targets : List Crossable} (distinct : Keyed.Distinct Crossable.orderId targets)
    (awaits : s.AwaitsPrint print) (stands : ∀ target ∈ targets, ∃ order, target.Stands s.outside.paper print order)
    (printRemaining : Int) :
    let fills := simFills print targets printRemaining s.outside.paper.fills.length
    ∃ t, fillCrossable world print targets printRemaining s = (.ok fills.length, t) ∧
      t.outside.paper.fills.map Fill.deal = s.outside.paper.fills.map Fill.deal ++ fills.map Fill.deal ∧
      t.orderMgr = fills.foldl OrderManager.bookFill s.orderMgr := by
  induction targets generalizing s printRemaining with
  | nil => exact ⟨s, rfl, (List.append_nil _).symm, rfl⟩
  | cons target targets ih =>
    intro fills
    obtain ⟨new, distinct⟩ := List.nodup_cons.mp distinct
    obtain ⟨order, here⟩ := stands target List.mem_cons_self
    by_cases left : 0 < printRemaining
    · obtain ⟨positive, within⟩ := here.taken left
      obtain ⟨_, booked, next⟩ := awaits.forwarded world here positive within
      have still := here.others_forwarded world awaits.sound new stands (min printRemaining target.remaining)
      obtain ⟨t, ran, paper, orders⟩ := ih distinct next still (printRemaining - min printRemaining target.remaining)
      have unfolded : fills = simFill print target (min printRemaining target.remaining)
          (s.outside.paper.fills.length + 1) :: simFills print targets
            (printRemaining - min printRemaining target.remaining) (s.outside.paper.fills.length + 1) :=
        if_neg left.not_ge
      have length : (s.forwarded world print target order
        (min printRemaining target.remaining)).2.outside.paper.fills.length =
          s.outside.paper.fills.length + 1 := by
        rw [forwarded_paper]
        simp [PaperTransport.filled]
      rw [length] at ran paper orders
      refine ⟨t, ?_, ?_, ?_⟩
      · rw [fillCrossable_counts world awaits here left ran, unfolded, List.length_cons]
      · obtain ⟨_, named⟩ := awaits.sound.order?_eq_some.mp here.found
        rw [paper, unfolded, forwarded_paper]
        simp [PaperTransport.filled, Fill.deal, simFill, named, here.on, here.sided, here.priced]
      · rw [orders, booked, unfolded, List.foldl_cons]
    · have absent : fills = [] := if_pos (not_lt.mp left)
      rw [absent]
      exact ⟨s, fillCrossable_nothing world (.inl (not_lt.mp left)) s, by simp, rfl⟩

/-! ### What a print comes to -/

theorem foldl_bookFill_netPosition (om : OrderManager ℚ) (fills : List (Fill ℚ)) (ticker : Ticker) :
    ((fills.foldl OrderManager.bookFill om).netPosition ticker).centi = (om.netPosition ticker).centi +
      (fills.map fun fill => if ticker = fill.marketTicker then fill.side.toward fill.quantity.centi else 0).sum := by
  induction fills generalizing om with
  | nil => simp
  | cons fill fills ih =>
    rw [List.foldl_cons, ih, OrderManager.bookFill_netPosition, List.map_cons, List.sum_cons, add_assoc]

/-- Of a whole number of contracts, the whole contracts are all. -/
theorem wholeContracts_of_dvd {q : Quantity} (whole : 100 ∣ q.centi) : q.wholeContracts ℚ * 100 = q.centi := by
  obtain ⟨n, counted⟩ := whole
  have value : (q.contracts : ℚ) = n := by
    unfold Quantity.contracts Quantity.kCentiPerContract
    rw [counted]
    push_cast
    field_simp
  change (if (0 : ℚ) ≤ q.contracts then ⌊(q.contracts : ℚ)⌋ else ⌈(q.contracts : ℚ)⌉) * 100 = q.centi
  rw [value]
  split
  · rw [Int.floor_intCast, counted, mul_comm]
  · rw [Int.ceil_intCast, counted, mul_comm]

/-- Orders of whole contracts are targets with all they have left. -/
theorem crossable_remaining {paper : PaperTransport ℚ} (sound : paper.Sound)
    (whole : ∀ order ∈ paper.openOrders, 100 ∣ order.remainingQuantity.centi) (print : PublicTrade) :
    100 * ((crossable paper print).map Crossable.remaining).sum =
      ((paper.openOrders.filter print.TradesThrough).map fun order => order.remainingQuantity.centi).sum := by
  rw [crossable_eq]
  have opened : ∀ order ∈ paper.openOrders.filter print.TradesThrough, order ∈ paper.openOrders :=
    fun order member => (List.mem_filter.mp member).1
  generalize paper.openOrders.filter print.TradesThrough = orders at opened
  induction orders with
  | nil => rfl
  | cons order orders ih =>
    have here := opened order List.mem_cons_self
    have counted := wholeContracts_of_dvd (whole order here)
    have left := (sound.resting order here).left
    have target : 0 < order.remainingQuantity.wholeContracts ℚ := by omega
    have rest := ih fun other member => opened other (List.mem_cons_of_mem _ member)
    rw [List.filterMap_cons, if_pos target]
    simp only [List.map_cons, List.sum_cons, mul_add, rest]
    omega

/-- A print fills only orders it trades through, none twice and none beyond what it has left, and in all as much as
the print and these orders allow; the order manager books each fill once and nothing else. -/
theorem print_fills_exact (awaits : s.AwaitsPrint print)
    (whole : ∀ order ∈ s.outside.paper.openOrders, 100 ∣ order.remainingQuantity.centi) :
    ∃ (fills : List (Fill ℚ)) (t : Desk ℚ (PaperWorld ℚ Y)), simulateMakerFills world print s = (.ok fills.length, t) ∧
      (∀ fill ∈ fills, ∃ order ∈ s.outside.paper.openOrders, print.TradesThrough order ∧
        (fill.orderId, fill.marketTicker, fill.side, fill.priceCents) =
          (order.id, order.marketTicker, order.side, order.priceCents) ∧
        0 < fill.quantity.centi ∧ fill.quantity ≤ order.remainingQuantity) ∧
      (fills.map Fill.orderId).Nodup ∧
      (fills.map fun fill => fill.quantity.centi).sum = min (100 * max 0 (print.quantity.wholeContracts ℚ))
        ((s.outside.paper.openOrders.filter print.TradesThrough).map fun order => order.remainingQuantity.centi).sum ∧
      t.outside.paper.fills.map Fill.deal = s.outside.paper.fills.map Fill.deal ++ fills.map Fill.deal ∧
      t.orderMgr = fills.foldl OrderManager.bookFill s.orderMgr ∧
      (fills.map OrderManager.fillKey).Nodup ∧ (∀ fill ∈ fills, OrderManager.fillKey fill ∉ s.orderMgr.seenFills) ∧
      ∀ ticker, (t.orderMgr.netPosition ticker).centi = (s.orderMgr.netPosition ticker).centi +
        (fills.map fun fill => if ticker = fill.marketTicker then fill.side.toward fill.quantity.centi
          else 0).sum := by
  have distinct := crossable_distinct awaits.sound print
  have stands : ∀ target ∈ crossable s.outside.paper print, _ := fun _ member => crossable_stands awaits.sound member
  have present : ∀ target ∈ crossable s.outside.paper print, 0 < target.remaining := by
    intro target member
    obtain ⟨order, here⟩ := stands target member
    exact here.present
  obtain ⟨t, ran, paper, orders⟩ := fillCrossable_run world distinct awaits stands (print.quantity.wholeContracts ℚ)
  refine ⟨_, t, ran, ?_, ?_, ?_, paper, orders, simFills_keys present _ _, ?_, ?_⟩
  · intro fill member
    obtain ⟨target, among, quantity, number, positive, within, _, rfl⟩ := mem_simFills present member
    -- the fills are of the orders that the print trades through
    rw [crossable_eq] at among
    obtain ⟨order, through, taken⟩ := List.mem_filterMap.mp among
    obtain ⟨opened, through⟩ := List.mem_filter.mp through
    split at taken
    · cases taken
      have through := of_decide_eq_true through
      refine ⟨order, opened, through, ?_, ?_, ?_⟩
      · simp [simFill, through.market]
      · simp only [simFill, Quantity.fromContracts_centi]
        omega
      · exact centi_le_of_wholeContracts positive within
    · cases taken
  · exact distinct.sublist (simFills_orders _ _)
  · rw [simFills_total present, ← crossable_remaining awaits.sound whole]
    omega
  · intro fill member
    obtain ⟨target, _, quantity, number, _, _, later, rfl⟩ := mem_simFills present member
    rw [fillKey_simFill]
    exact awaits.unseen number later
  · intro ticker
    rw [orders, foldl_bookFill_netPosition]

end

end

/-- A print of twelve against two asks of ten and one at its own price. -/
theorem print_fills_exact_two :
    let start := Desk.paperStart { tickers := ["M"] } {} {} ({} : Script) none none false false
    let s := [PaperOp.place "M" .no 55 10, .place "M" .no 50 10, .place "M" .no 40 10].foldl
      (paperStep Script.host ⟨"exchange"⟩) start
    let print : PublicTrade :=
      { tradeId := "t", marketTicker := "M", yesPriceCents := 60, quantity := ⟨1250⟩,
        takerSide := .yes, timestamp := 0 }
    ∃ t, simulateMakerFills Script.host print s = (.ok 2, t) ∧ (t.orderMgr.netPosition "M").centi = -1200 := by
  intro start s print
  -- three orders placed on an empty paper book, and nothing filled yet
  have awaits : s.AwaitsPrint print := by
    refine ⟨⟨?_, ?_, ?_⟩, ?_, ?_⟩
    · unfold Keyed.Distinct
      decide +kernel
    · have numbered : ∀ order ∈ s.outside.paper.openOrders, order.id = paperId 1 ∨ order.id = paperId 2 ∨
          order.id = paperId 3 := by decide +kernel
      have next : s.outside.paper.nextId = 4 := by decide +kernel
      intro order member
      rw [next]
      rcases numbered order member with first | second | third
      · exact ⟨1, by decide, first⟩
      · exact ⟨2, by decide, second⟩
      · exact ⟨3, by decide, third⟩
    · have resting : ∀ order ∈ s.outside.paper.openOrders, order.isActive = true ∧
          isValidPrice order.priceCents = true ∧ 0 < order.remainingQuantity.centi := by decide +kernel
      intro order member
      obtain ⟨active, valid, left⟩ := resting order member
      exact ⟨active, valid, left⟩
    · decide +kernel
    · have absent : s.orderMgr.seenFills = [] := by decide +kernel
      intro number _
      rw [absent]
      exact List.not_mem_nil
  have whole : ∀ order ∈ s.outside.paper.openOrders, 100 ∣ order.remainingQuantity.centi := by decide +kernel
  obtain ⟨fills, t, ran, _, _, _, _, _, _, _, net⟩ := print_fills_exact Script.host awaits whole
  have counted : (simulateMakerFills Script.host print s).1.toOption = some 2 := by decide +kernel
  have position : ((simulateMakerFills Script.host print s).2.orderMgr.netPosition "M").centi = -1200 := by
    decide +kernel
  rw [ran] at counted position
  have two : fills.length = 2 := Option.some.inj counted
  exact ⟨t, two ▸ ran, position⟩

end Kalshi
