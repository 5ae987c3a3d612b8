import KalshiMaker.Properties.MakerFills
import KalshiMaker.Lib.Run

/-! In a replay every print of a tracked market comes to a paper book it can trade through: the book is sound and in
whole contracts, and no number that the next fills take has been used, amended quotes or not. -/
namespace Kalshi

open Effect Eff Desk Relation PaperTransport TradingSession

namespace PaperTransport

/-- A sound book that holds whole contracts only. -/
structure Whole (paper : PaperTransport ℚ) : Prop where
  sound : paper.Sound
  counted : ∀ order ∈ paper.openOrders, 100 ∣ order.remainingQuantity.centi

namespace Whole

variable {paper : PaperTransport ℚ}

theorem accept (whole : paper.Whole) {ticker : Ticker} {side : Side} {price quantity : Int}
    (valid : isValidPrice price = true) (positive : 0 < quantity) (now : TimePoint) :
    (paper.accept (newOrder ticker side price (Quantity.fromContracts quantity)) now).Whole := by
  have left : (newOrder ticker side price (Quantity.fromContracts quantity)).remainingQuantity.centi =
      quantity * 100 := by
    simp [newOrder, Order.remainingQuantity]
  refine ⟨whole.sound.accept now ⟨rfl, valid, ?_⟩, fun order member => ?_⟩
  · change 0 < (newOrder ticker side price (Quantity.fromContracts quantity)).remainingQuantity.centi
    omega
  · rcases List.mem_append.mp member with before | new
    · exact whole.counted order before
    · rw [List.mem_singleton.mp new]
      exact ⟨quantity, left.trans (mul_comm _ _)⟩

theorem delete (whole : paper.Whole) (url : String) : (paper.delete url).Whole := by
  refine ⟨whole.sound.delete url, fun order member => whole.counted order ?_⟩
  unfold PaperTransport.delete at member
  split at member
  · exact List.mem_of_mem_eraseP member
  · exact member

variable [Elementary ℚ]

theorem filled (whole : paper.Whole) {order : Order} (opened : order ∈ paper.openOrders) {quantity : Quantity}
    (counted : 100 ∣ quantity.centi) (within : quantity.centi ≤ order.remainingQuantity.centi) (now : TimePoint) :
    (paper.filled order quantity now).Whole := by
  refine ⟨whole.sound.filled opened within now, fun other member => ?_⟩
  rcases mem_filled member with before | ⟨rfl, _⟩
  · exact whole.counted other before
  · have before := whole.counted order opened
    simp only [Order.remainingQuantity, afterFill, Quantity.sub_centi, Quantity.add_centi] at before ⊢
    omega

end Whole

end PaperTransport

/-! ### Requests -/

variable [Elementary ℚ] {Y : Type}

/-- The band of quotable prices holds prices only. -/
def RiskLimits.QuotesPrices (limits : RiskLimits ℚ) : Prop :=
  ∀ price, limits.minQuotePriceCents ≤ price → price ≤ limits.maxQuotePriceCents → isValidPrice price = true

/-- The desk before any request or print of a replay, against its paper exchange. -/
structure Posture.InStep (u : Posture ℚ) (paper : PaperTransport ℚ) : Prop where
  whole : paper.Whole
  seen : ∀ key ∈ u.ledger.orderMgr.seenFills, ∃ k ≤ paper.fills.length, key = simId k
  sized : ∀ ticker side, (u.ledger.slots ticker side).1 ≠ "" → 0 < u.config.quoteSize
  priced : u.ledger.riskMgr.limits.QuotesPrices

/-- What requests and prints move. -/
def Desk.onPaper (s : Desk ℚ (PaperWorld ℚ Y)) : Posture ℚ × PaperTransport ℚ := (s.posture, s.outside.paper)

def KeepsStep (before after : Posture ℚ × PaperTransport ℚ) : Prop :=
  before.1.InStep before.2 → after.1.InStep after.2

variable (world : Host Y) (rest : RestClient)

namespace Quoter

theorem enter_inStep {side : Side} {ticker : Ticker} {desired : Int} {now : TimePoint} {s : Desk ℚ (PaperWorld ℚ Y)} :
    Leads Desk.onPaper KeepsStep (enter (paperVenue rest world) (legOf side) ticker desired now) s := by
  unfold enter
  simp only [legOf_side]
  refine Leads.bind (Leads.quiet rfl) ?_
  rintro s₀ _ ⟨⟩
  refine Leads.ite (fun _ => ?_) (fun _ => Leads.quiet rfl)
  unfold Leads
  rw [bind_apply]
  rcases place_paper world rest s ticker side ((legOf side).orderPrice desired) s.quoter.config.quoteSize
    with ⟨what, refused⟩ | ⟨valid, positive, placed⟩
  · rw [refused]
    exact .refl
  · rw [placed]
    dsimp only
    rw [andThen_ok, fillSlot]
    unfold Desk.onPaper
    rw [posture_updateSlot]
    exact .single fun inStep =>
      ⟨inStep.whole.accept valid positive _, inStep.seen, fun _ _ _ => positive, inStep.priced⟩

/-- The exchange adds the amended order to its book: at a price within the band, and of the size of a quote. -/
theorem amendInPlace_inStep {side : Side} {ticker : Ticker} {desired : Int} {now : TimePoint} {wouldCross : Bool}
    {s : Desk ℚ (PaperWorld ℚ Y)} (held : (s.quoter.ownQuotes ticker side).orderId ≠ "") :
    Leads Desk.onPaper KeepsStep
      (amendInPlace (paperVenue rest world) (legOf side) ticker desired now wouldCross) s := by
  unfold amendInPlace
  simp only [legOf_side]
  refine Leads.bind (Leads.quiet rfl) ?_
  rintro s₀ _ ⟨⟩
  refine Leads.ite (fun allowed => ?_) (fun _ => Leads.quiet rfl)
  obtain ⟨low, high⟩ := RiskManager.checkOrder_price (Bool.and_eq_true _ _ ▸ allowed).2
  unfold Leads
  rw [bind_apply, amend_paper]
  simp only [andThen_ok, bind_apply, andThen_pure_state]
  rw [fillSlot]
  unfold Desk.onPaper
  rw [posture_updateSlot]
  refine .single fun inStep => ?_
  -- an order is in the slot, and `place` has had the size of a quote checked
  have positive : 0 < s.quoter.config.quoteSize := inStep.sized ticker side held
  refine ⟨?_, ?_, fun _ _ _ => positive, inStep.priced⟩
  · dsimp only [called, withOrders, PaperWorld.accepting]
    rw [round_fromContracts]
    exact inStep.whole.accept (inStep.priced _ low high) positive _
  · obtain ⟨openOrders, amended⟩ := s.orderMgr.amended_books (s.quoter.ownQuotes ticker side).orderId
      s.outside.paper.nextOrderId ((legOf side).orderPrice desired)
    change ∀ key ∈ (s.orderMgr.amended _ _ _).seenFills, _
    rw [amended]
    exact inStep.seen

theorem releaseSlot_inStep (ticker : Ticker) (side : Side) (s : Desk ℚ (PaperWorld ℚ Y)) :
    Leads Desk.onPaper KeepsStep (releaseSlot (paperVenue rest world) ticker side) s := by
  unfold releaseSlot releaseOrder
  refine Leads.bind (Leads.quiet rfl) ?_
  rintro s₀ _ ⟨⟩
  unfold Leads
  simp only [bind_apply, cancel_paper, andThen_ok, ↓reduceIte, pure_apply, andThen_pure_state]
  rw [clearSlot]
  unfold Desk.onPaper
  rw [posture_updateSlot]
  refine .single fun inStep => ⟨inStep.whole.delete _, ?_, fun t d held => ?_, inStep.priced⟩
  · change ∀ key ∈ s.orderMgr.seenFills, ∃ k ≤ (s.outside.paper.delete _).fills.length, key = simId k
    rw [delete_fills]
    exact inStep.seen
  · -- a slot that is held now was held before
    dsimp only at held
    rw [Ledger.setSlot_slots] at held
    split at held
    · exact absurd rfl held
    · exact inStep.sized t d held

theorem onPaper_moves (ticker : Ticker) :
    Moves (paperVenue rest world) ticker (Desk.onPaper (Y := Y)) KeepsStep where
  steady _ := rfl
  system _ := rfl
  ema _ _ := rfl
  emit _ _ _ := rfl
  fade side fadePending s := by
    unfold Desk.onPaper posture
    rw [setFadePending_quiet]
    rfl
  enter _ := enter_inStep world rest
  amend := amendInPlace_inStep world rest
  release := releaseSlot_inStep world rest ticker

end Quoter

theorem onPaper_reacts : Reacts (paperVenue rest world) (Desk.onPaper (Y := Y)) fun _ => KeepsStep where
  session s session same _ := by
    simp only [Desk.onPaper, posture, ledger, same]
  steady _ := rfl
  update ticker book s := Quoter.update_moves (Quoter.onPaper_moves world rest ticker) book s

/-! ### Prints -/

theorem simulateFill_inStep (id : OrderId) (quantity : Int) (s : Desk ℚ (PaperWorld ℚ Y)) :
    Leads Desk.onPaper KeepsStep (simulateFill world id quantity) s := by
  unfold Leads simulateFill PaperWorld.simulateFill
  cases found : s.outside.paper.openOrders.find? (fillable id) with
  | none => exact .refl
  | some order =>
    have opened := List.mem_of_find?_eq_some found
    refine .single fun inStep => ⟨inStep.whole.filled opened ?_ ?_ _, ?_, inStep.sized, inStep.priced⟩
    · -- the smaller of two numbers of whole contracts is one
      have counted := inStep.whole.counted order opened
      rw [Quantity.min_centi, Quantity.fromContracts_centi]
      omega
    · rw [Quantity.min_centi]
      exact min_le_right _ _
    · intro key member
      obtain ⟨k, earlier, same⟩ := inStep.seen key member
      have longer : s.outside.paper.fills.length ≤ (s.outside.paper.filled order
          (Quantity.min (Quantity.fromContracts quantity) order.remainingQuantity)
          (world.systemNow s.outside.rest).1).fills.length := by
        simp [PaperTransport.filled]
      exact ⟨k, earlier.trans longer, same⟩

/-- The paper exchange has made the fill that is forwarded, so its number is one the exchange has used. -/
theorem onFill_inStep {fill : Fill ℚ} {s : Desk ℚ (PaperWorld ℚ Y)}
    (keyed : OrderManager.fillKey fill = simId s.outside.paper.fills.length) :
    KeepsStep s.onPaper (onFill fill s).2.onPaper := by
  intro inStep
  have config : (onFill fill s).2.quoter.config = s.quoter.config := congrArg Prod.snd (onFill_setting fill s)
  unfold Desk.onPaper posture
  rw [onFill_outside, config]
  rcases onFill_cases fill s with ⟨same, _⟩ | ⟨refilled, _⟩ | ⟨_, _, _, _, filled⟩
  · rw [same]
    exact inStep
  · rw [refilled]
    exact ⟨inStep.whole, inStep.seen, inStep.sized, inStep.priced⟩
  -- a fill of a tracked market is recorded, and a slot whose order it filled is emptied
  · rw [filled]
    refine ⟨inStep.whole, fun key member => ?_, fun t d held => ?_, ?_⟩
    · dsimp only at member
      rw [Ledger.forgetFilled_orderMgr] at member
      rcases List.mem_cons.mp member with rfl | before
      · exact ⟨_, le_rfl, keyed⟩
      · exact inStep.seen key before
    · dsimp only at held
      rw [Ledger.forgetFilled_slots] at held
      split at held
      · exact absurd rfl held
      · exact inStep.sized t d held
    · dsimp only
      rw [RiskManager.update_limits]
      exact inStep.priced

theorem fillCrossable_inStep (print : PublicTrade) (targets : List Crossable) (printRemaining : Int)
    (s : Desk ℚ (PaperWorld ℚ Y)) :
    Leads Desk.onPaper KeepsStep (fillCrossable world print targets printRemaining) s := by
  induction targets generalizing printRemaining s with
  | nil => exact Leads.quiet rfl
  | cons target targets ih =>
    -- the print goes through the orders that cross until it is used up
    rw [fillCrossable]
    refine Leads.ite (fun _ => Leads.quiet rfl) (fun _ => Leads.ite (fun _ => ih _ s) (fun _ => ?_))
    refine Leads.bind (simulateFill_inStep world _ _ s) (fun filled s₁ _ => ?_)
    refine Leads.ite (fun _ => ?_) (fun _ => ih _ s₁)
    refine Leads.bind (Leads.quiet rfl) ?_
    rintro s₀ _ ⟨⟩
    refine Leads.bind (Leads.single (onFill_inStep (fillKey_simFill print target _ _))) (fun new s₃ _ => ?_)
    exact Leads.bind (ih _ s₃) fun count s₄ _ => Leads.quiet rfl

/-! ### Replays -/

theorem handleFrame_inStep (frame : Frame) {s : Desk ℚ (PaperWorld ℚ Y)} (inStep : s.posture.InStep s.outside.paper) :
    (handleFrame world rest frame s).2.posture.InStep (handleFrame world rest frame s).2.outside.paper := by
  let P : Posture ℚ × PaperTransport ℚ → Prop := fun pair => pair.1.InStep pair.2
  refine handleFrame_keeps P (onPaper_reacts world rest) (fun _ _ step => step) (fun s ticker inStep => ?_)
    (fun print s inStep => ?_) (fun _ _ => rfl) frame inStep
  · -- adopting a market changes the tracked tickers alone
    exact ⟨inStep.whole, inStep.seen, inStep.sized, inStep.priced⟩
  · exact chain_invariant P (fun _ _ step => step) (fillCrossable_inStep world print _ _ s) inStep

theorem replay_inStep (config : QuoterConfig ℚ) {limits : RiskLimits ℚ} (band : limits.QuotesPrices)
    (flow : FlowImbalanceConfig ℚ) (y : Y) (capture : List Frame) :
    (runBacktestMode world rest config limits flow y capture).desk.posture.InStep
      (runBacktestMode world rest config limits flow y capture).desk.outside.paper := by
  let P : Process ℚ (PaperWorld ℚ Y) → Prop := fun p => p.desk.posture.InStep p.desk.outside.paper
  refine Run.invariant P (fun p frame inStep => ?_) ?_ capture
  · rcases injectFrame_cases world rest p frame with ⟨_, same⟩ | ⟨_, handled⟩
    · rw [same]
      exact inStep
    · simp only [P, handled]
      exact handleFrame_inStep world rest frame inStep
  · exact ⟨⟨⟨List.nodup_nil, nofun, nofun⟩, nofun⟩, nofun, fun _ _ held => absurd rfl held, band⟩

/-- Every print of a tracked market that a replay comes to finds a sound book in whole contracts, and its fills take
numbers that no fill has had, amends or none. -/
theorem replay_awaits_print (config : QuoterConfig ℚ) {limits : RiskLimits ℚ} (band : limits.QuotesPrices)
    (flow : FlowImbalanceConfig ℚ) (y : Y) (capture : List Frame) {print : PublicTrade}
    (tracked : print.marketTicker ∈ (runBacktestMode world rest config limits flow y capture).desk.session.tickers) :
    (runBacktestMode world rest config limits flow y capture).desk.AwaitsPrint print ∧
      ∀ order ∈ (runBacktestMode world rest config limits flow y capture).desk.outside.paper.openOrders,
        100 ∣ order.remainingQuantity.centi := by
  have inStep := replay_inStep world rest config band flow y capture
  refine ⟨⟨inStep.whole.sound, tracked, fun number later member => ?_⟩, inStep.whole.counted⟩
  obtain ⟨k, earlier, same⟩ := inStep.seen _ member
  have equal := numbered_injective "sim-" same
  omega

end Kalshi
