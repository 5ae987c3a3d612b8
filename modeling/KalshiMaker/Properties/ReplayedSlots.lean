import KalshiMaker.App.PaperRequests
import KalshiMaker.Properties.SlotAgreement

/-! Over the paper exchange ids never repeat, so in a replay the quote slots agree with the open orders
without a condition on the run. -/
namespace Kalshi

open Effect Eff Desk Relation PaperTransport Ledger TradingSession

variable [Elementary ℚ] {Y : Type}

/-- The ledger and the paper exchange, as far as ids and markets go. -/
structure Ledger.OnPaper (L : Ledger ℚ) (paper : PaperTransport ℚ) : Prop where
  issued : L.Issued
  agrees : L.Agrees
  fresh : (issuedIds L.calls).Nodup
  numbered : ∀ id ∈ issuedIds L.calls, ∃ k < paper.nextId, id = paperId k
  ids : ∀ order ∈ paper.openOrders, ∃ k < paper.nextId, order.id = paperId k
  left : ∀ id order, L.order? id = some order → 0 < order.remainingQuantity.centi
  markets : ∀ order ∈ paper.openOrders, ∀ mine, L.order? order.id = some mine →
    mine.marketTicker = order.marketTicker

namespace Ledger.OnPaper

variable {L : Ledger ℚ} {paper : PaperTransport ℚ}

theorem next_new (on : L.OnPaper paper) : paper.nextOrderId ∉ issuedIds L.calls := by
  intro member
  obtain ⟨k, earlier, same⟩ := on.numbered _ member
  exact absurd (numbered_injective "paper-" same) (by omega)

/-- A quote step that the paper exchange answers with its next id. -/
theorem accepted {ticker : Ticker} {L' : Ledger ℚ} (on : L.OnPaper paper) (step : QuoteStep ticker L L')
    (gave : issuedIds L'.calls = issuedIds L.calls ++ [paper.nextOrderId]) {order : Order} (now : TimePoint)
    (left : ∀ id mine, L'.order? id = some mine → 0 < mine.remainingQuantity.centi)
    (own : ∀ mine, L'.order? paper.nextOrderId = some mine → mine.marketTicker = order.marketTicker)
    (others : ∀ id mine, id ≠ paper.nextOrderId → L'.order? id = some mine → L.order? id = some mine) :
    L'.OnPaper (paper.accept order now) := by
  have fresh : (issuedIds L'.calls).Nodup := by
    rw [gave]
    exact on.fresh.append (List.nodup_singleton _) (by simpa using on.next_new)
  refine ⟨quoteStep_issued step on.issued, quoteStep_agrees step on.issued fresh on.agrees, fresh, ?_, ?_, left, ?_⟩
  · intro id member
    rw [gave, List.mem_append] at member
    rcases member with member | member
    · obtain ⟨k, earlier, same⟩ := on.numbered id member
      exact ⟨k, Nat.lt_succ_of_lt earlier, same⟩
    · exact ⟨paper.nextId, Nat.lt_succ_self _, List.mem_singleton.mp member⟩
  · intro other member
    rcases List.mem_append.mp member with member | member
    · obtain ⟨k, earlier, same⟩ := on.ids other member
      exact ⟨k, Nat.lt_succ_of_lt earlier, same⟩
    · exact ⟨paper.nextId, Nat.lt_succ_self _, by rw [List.mem_singleton.mp member]; rfl⟩
  · intro other member mine found
    rcases List.mem_append.mp member with member | member
    · obtain ⟨k, earlier, same⟩ := on.ids other member
      -- the numbering is injective, so an earlier order has another id
      have older : other.id ≠ paper.nextOrderId := by
        rw [same]
        exact fun clash => absurd (numbered_injective "paper-" clash) (by omega)
      exact on.markets other member mine (others other.id mine older found)
    · rw [List.mem_singleton.mp member] at found ⊢
      exact own mine found

/-- A step that gives out no id and leaves no more on either side than there was. -/
theorem shrunk {L' : Ledger ℚ} {paper' : PaperTransport ℚ} (on : L.OnPaper paper) (issued : L'.Issued)
    (agrees : L'.Agrees) (gave : issuedIds L'.calls = issuedIds L.calls)
    (orders : ∀ id mine, L'.order? id = some mine → 0 < mine.remainingQuantity.centi ∧
      ∃ before, L.order? id = some before ∧ mine.marketTicker = before.marketTicker)
    (counter : paper.nextId ≤ paper'.nextId)
    (resting : ∀ order ∈ paper'.openOrders, ∃ before ∈ paper.openOrders, order.id = before.id ∧
      order.marketTicker = before.marketTicker) : L'.OnPaper paper' := by
  refine ⟨issued, agrees, gave ▸ on.fresh, ?_, ?_, fun id mine found => (orders id mine found).1, ?_⟩
  · intro id member
    obtain ⟨k, earlier, same⟩ := on.numbered id (gave ▸ member)
    exact ⟨k, earlier.trans_le counter, same⟩
  · intro order member
    obtain ⟨before, was, named, _⟩ := resting order member
    obtain ⟨k, earlier, same⟩ := on.ids before was
    exact ⟨k, earlier.trans_le counter, named.trans same⟩
  · intro order member mine found
    obtain ⟨before, was, named, onMarket⟩ := resting order member
    obtain ⟨_, mineBefore, found', onMarket'⟩ := orders order.id mine found
    exact onMarket'.trans ((on.markets before was mineBefore (named ▸ found')).trans onMarket.symm)

end Ledger.OnPaper

/-- The registry and the calls, with the paper exchange. -/
def Desk.paperView (s : Desk ℚ (PaperWorld ℚ Y)) : Ledger ℚ × PaperTransport ℚ := (s.ledger, s.outside.paper)

def KeepsPaper (before after : Ledger ℚ × PaperTransport ℚ) : Prop :=
  before.1.OnPaper before.2 → after.1.OnPaper after.2

variable (world : Host Y) (rest : RestClient)

namespace Quoter

theorem enter_paper {side : Side} {ticker : Ticker} {desired : Int} {now : TimePoint}
    {s : Desk ℚ (PaperWorld ℚ Y)} (vacant : (s.quoter.ownQuotes ticker side).orderId = "") :
    Leads paperView KeepsPaper (enter (paperVenue rest world) (legOf side) ticker desired now) s := by
  unfold enter
  simp only [legOf_side]
  refine Leads.bind (Leads.quiet rfl) ?_
  rintro s₀ _ ⟨⟩
  split
  next passed =>
    unfold Leads
    rw [bind_apply]
    rcases place_paper world rest s ticker side ((legOf side).orderPrice desired) s.quoter.config.quoteSize
      with ⟨what, h⟩ | ⟨_, positive, h⟩
    · rw [h]
      exact .refl
    · rw [h]
      dsimp only
      rw [andThen_ok, fillSlot]
      unfold paperView
      rw [ledger_updateSlot]
      refine .single fun on => on.accepted (.placed vacant passed rfl rfl rfl) ?_ _ ?_ ?_ ?_
      · exact issuedIds_append _ _
      · intro id mine found
        rw [order?_setSlot, order?_withOrders, OrderManager.placed_lookup] at found
        split at found
        · cases found
          change 0 < s.quoter.config.quoteSize * 100 - 0
          omega
        · exact on.left id mine found
      · intro mine found
        rw [order?_setSlot, order?_withOrders, OrderManager.placed_lookup] at found
        split at found
        · cases found
          rfl
        next other => exact absurd rfl other
      · intro id mine other found
        rw [order?_setSlot, order?_withOrders, OrderManager.placed_lookup] at found
        split at found
        next same => exact absurd same other
        next => exact found
  next => exact Leads.quiet rfl

theorem amendInPlace_paper {side : Side} {ticker : Ticker} {desired : Int} {now : TimePoint}
    {wouldCross : Bool} {s : Desk ℚ (PaperWorld ℚ Y)} (held : (s.quoter.ownQuotes ticker side).orderId ≠ "") :
    Leads paperView KeepsPaper
      (amendInPlace (paperVenue rest world) (legOf side) ticker desired now wouldCross) s := by
  unfold amendInPlace
  simp only [legOf_side]
  refine Leads.bind (Leads.quiet rfl) ?_
  rintro s₀ _ ⟨⟩
  split
  next allowed =>
    have passed := (Bool.and_eq_true _ _ ▸ allowed).2
    unfold Leads
    rw [bind_apply, amend_paper]
    simp only [andThen_ok, bind_apply, andThen_pure_state]
    rw [fillSlot]
    unfold paperView
    rw [ledger_updateSlot]
    refine .single fun on => ?_
    obtain ⟨order, found, onMarket, _⟩ := on.agrees ticker side held
    have older : s.outside.paper.nextOrderId ≠ (s.ledger.slots ticker side).1 :=
      fun same => on.next_new (same ▸ on.issued _ order found)
    have lookup : ∀ id, (s.orderMgr.amended (s.ledger.slots ticker side).1 s.outside.paper.nextOrderId
        ((legOf side).orderPrice desired)).openOrders.lookup id = _ := OrderManager.amended_lookup found
    refine on.accepted (.amended held passed) ?_ _ ?_ ?_ ?_
    · refine (issuedIds_append _ _).trans ?_
      simp only [issuedIds, Call.issued]
      simpa using older
    · intro id mine here
      rw [order?_setSlot, order?_withOrders] at here
      replace here := (lookup id).symm.trans here
      split at here
      · cases here
        exact on.left _ order found
      · split at here
        · cases here
        · exact on.left id mine here
    · intro mine here
      rw [order?_setSlot, order?_withOrders] at here
      replace here := (lookup _).symm.trans here
      rw [if_pos rfl] at here
      cases here
      exact onMarket
    · intro id mine other here
      rw [order?_setSlot, order?_withOrders] at here
      replace here := (lookup id).symm.trans here
      rw [if_neg other] at here
      split at here
      · cases here
      · exact here
  next => exact Leads.quiet rfl

theorem releaseSlot_paper (ticker : Ticker) (side : Side) (s : Desk ℚ (PaperWorld ℚ Y)) :
    Leads paperView KeepsPaper (releaseSlot (paperVenue rest world) ticker side) s := by
  unfold releaseSlot releaseOrder
  refine Leads.bind (Leads.quiet rfl) ?_
  rintro s₀ _ ⟨⟩
  unfold Leads
  simp only [bind_apply, cancel_paper, andThen_ok, ↓reduceIte, pure_apply, andThen_pure_state]
  rw [clearSlot]
  unfold paperView
  rw [ledger_updateSlot]
  refine .single fun on => ?_
  have step := @QuoteStep.released _ _ ticker s.ledger side
  have gave : issuedIds (s.ledger.calls ++ [⟨Call.cancel (s.ledger.slots ticker side).1 true, s.ledger.tickers⟩]) =
      issuedIds s.ledger.calls := by
    rw [issuedIds_append]
    exact List.append_nil _
  refine on.shrunk (quoteStep_issued step on.issued)
    (quoteStep_agrees step on.issued (gave.symm ▸ on.fresh :) on.agrees) gave ?_ ?_ ?_
  · intro id mine found
    rw [order?_setSlot, ledger_withOrders, order?_withOrders, OrderManager.cancelled_lookup] at found
    split at found
    · cases found
    · exact ⟨on.left id mine found, mine, found, rfl⟩
  · exact (by unfold PaperTransport.delete; split <;> exact le_rfl)
  · intro order member
    unfold PaperTransport.delete at member
    dsimp only at member
    split at member
    · exact ⟨order, List.mem_of_mem_eraseP member, rfl, rfl⟩
    · exact ⟨order, member, rfl, rfl⟩

theorem paper_moves (ticker : Ticker) :
    Moves (paperVenue rest world) ticker (paperView (Y := Y)) KeepsPaper where
  steady _ := rfl
  system _ := rfl
  ema _ _ := rfl
  emit _ _ _ := rfl
  fade side fadePending s := by
    unfold paperView
    rw [setFadePending_quiet]
    rfl
  enter := enter_paper world rest
  amend := amendInPlace_paper world rest
  release := releaseSlot_paper world rest ticker

end Quoter

/-! ### Prints -/

/-- A fill of a market that its open order is on. -/
theorem onFill_paper (fill : Fill ℚ) (s : Desk ℚ (PaperWorld ℚ Y)) (on : s.ledger.OnPaper s.outside.paper)
    (tolerates : s.ledger.Tolerates (.fill fill)) :
    (onFill fill s).2.ledger.OnPaper s.outside.paper ∧ (onFill fill s).2.ledger.Within s.ledger := by
  rcases onFill_cases fill s with ⟨same, _⟩ | ⟨refilled, _⟩ | ⟨_, valid, tracked, new, filled⟩
  · rw [same]
    exact ⟨on, fun _ order found => ⟨order, found, rfl, rfl⟩⟩
  · rw [refilled]
    have gave : issuedIds (s.ledger.called (.recordFill fill false)).calls = issuedIds s.ledger.calls :=
      (issuedIds_append _ _).trans (List.append_nil _)
    refine ⟨on.shrunk (step_issued .refill on.issued) on.agrees gave ?_ le_rfl ?_,
      fun _ order found => ⟨order, found, rfl, rfl⟩⟩
    · exact fun id mine found => ⟨on.left id mine found, mine, found, rfl⟩
    · exact fun order member => ⟨order, member, rfl, rfl⟩
  · rw [filled]
    have step := Step.fill (L := s.ledger) valid tracked new
    have within : ((s.ledger.recorded fill).forgetFilled fill.marketTicker fill.orderId).Within s.ledger :=
      (step_shrinks step nofun).1
    have gave : issuedIds ((s.ledger.recorded fill).forgetFilled fill.marketTicker fill.orderId).calls =
        issuedIds s.ledger.calls := by
      rw [forgetFilled_calls]
      exact (issuedIds_append _ _).trans (List.append_nil _)
    have issued := step_issued step on.issued
    refine ⟨on.shrunk issued (fill_agrees tolerates on.agrees) gave ?_ le_rfl ?_, within⟩
    · intro id mine found
      obtain ⟨before, was, onMarket, _⟩ := within id mine found
      refine ⟨?_, before, was, onMarket⟩
      exact OrderManager.fillOrder_left on.left ((order?_forgetFilled _ _ _ _).symm.trans found)
    · exact fun order member => ⟨order, member, rfl, rfl⟩

/-- What the paper exchange alone fills stays in its order's market. -/
theorem Ledger.OnPaper.filled {L : Ledger ℚ} {paper : PaperTransport ℚ} (on : L.OnPaper paper) {order : Order}
    (opened : order ∈ paper.openOrders) (quantity : Quantity) (now : TimePoint) :
    L.OnPaper (paper.filled order quantity now) := by
  refine on.shrunk on.issued on.agrees rfl (fun id mine found => ⟨on.left id mine found, mine, found, rfl⟩)
    (Nat.le_succ _) fun other member => ?_
  rcases mem_filled member with before | ⟨rfl, _⟩
  · exact ⟨other, before, rfl, rfl⟩
  · exact ⟨order, opened, rfl, rfl⟩

/-- Open orders under the targets' ids are on the print's market. -/
def OnMarket (print : PublicTrade) (targets : List Crossable) (L : Ledger ℚ) : Prop :=
  ∀ target ∈ targets, ∀ order, L.order? target.orderId = some order → order.marketTicker = print.marketTicker

def KeepsTargets (print : PublicTrade) (targets : List Crossable) (before after : Ledger ℚ × PaperTransport ℚ) :
    Prop :=
  before.1.OnPaper before.2 ∧ OnMarket print targets before.1 →
    after.1.OnPaper after.2 ∧ OnMarket print targets after.1

theorem simulateFill_paper (print : PublicTrade) (targets : List Crossable) (id : OrderId) (quantity : Int)
    (s : Desk ℚ (PaperWorld ℚ Y)) : Leads paperView (KeepsTargets print targets)
    (simulateFill world id quantity) s := by
  unfold Leads simulateFill PaperWorld.simulateFill
  cases found : s.outside.paper.openOrders.find? (fillable id) with
  | none => exact .refl
  | some order =>
    exact .single fun ⟨on, onMarket⟩ => ⟨on.filled (List.mem_of_find?_eq_some found) _ _, onMarket⟩

theorem fillCrossable_paper (print : PublicTrade) {all targets : List Crossable} (among : targets ⊆ all)
    (printRemaining : Int) (s : Desk ℚ (PaperWorld ℚ Y)) :
    Leads paperView (KeepsTargets print all) (fillCrossable world print targets printRemaining) s := by
  induction targets generalizing printRemaining s with
  | nil => exact Leads.quiet rfl
  | cons target targets ih =>
    have later : targets ⊆ all := fun other member => among (List.mem_cons_of_mem _ member)
    rw [fillCrossable]
    refine Leads.ite (fun _ => Leads.quiet rfl) (fun _ => Leads.ite (fun _ => ih later _ s) (fun _ => ?_))
    refine Leads.bind (simulateFill_paper world print all _ _ s) (fun filled s₁ _ => ?_)
    refine Leads.ite (fun _ => ?_) (fun _ => ih later _ s₁)
    refine Leads.bind (Leads.quiet rfl) (fun s₀ s₂ _ => ?_)
    refine Leads.bind (Leads.single fun ⟨on, onMarket⟩ => ?_) (fun new s₃ _ => ?_)
    · obtain ⟨kept, within⟩ := onFill_paper (simFill print target (min printRemaining target.remaining)
        s₀.outside.paper.fills.length) s₂ on (onMarket target (among List.mem_cons_self))
      unfold paperView
      rw [onFill_outside]
      refine ⟨kept, fun other member order found => ?_⟩
      obtain ⟨before, was, same, _⟩ := within _ order found
      exact same.trans (onMarket other member before was)
    · exact Leads.bind (ih later _ s₃) (fun count s₄ _ => Leads.quiet rfl)

theorem crossable_onMarket {L : Ledger ℚ} {paper : PaperTransport ℚ} (on : L.OnPaper paper) (print : PublicTrade) :
    OnMarket print (crossable paper print) L := by
  intro target member mine found
  obtain ⟨order, opened, taken⟩ := List.mem_filterMap.mp member
  split at taken
  · cases taken
  next here =>
    simp only [not_or, not_not] at here
    split at taken
    · dsimp only at taken
      split at taken
      · cases taken
        exact (on.markets order opened mine found).trans here.1
      · cases taken
    · cases taken

/-! ### Frames -/

theorem paper_reacts : Reacts (paperVenue rest world) (paperView (Y := Y)) fun _ => KeepsPaper where
  session s session same _ := by
    simp only [paperView, ledger, same]
  steady _ := rfl
  update ticker book s := Quoter.update_moves (Quoter.paper_moves world rest ticker) book s

theorem simulateMakerFills_paper (print : PublicTrade) (s : Desk ℚ (PaperWorld ℚ Y))
    (on : s.ledger.OnPaper s.outside.paper) :
    (simulateMakerFills world print s).2.ledger.OnPaper (simulateMakerFills world print s).2.outside.paper := by
  let P : Ledger ℚ × PaperTransport ℚ → Prop := fun pair =>
    pair.1.OnPaper pair.2 ∧ OnMarket print (crossable s.outside.paper print) pair.1
  have walk : Leads paperView (KeepsTargets print (crossable s.outside.paper print))
      (simulateMakerFills world print) s := fillCrossable_paper world print (List.Subset.refl _) _ s
  exact (chain_invariant P (fun _ _ step => step) walk ⟨on, crossable_onMarket on print⟩).1

theorem handleFrame_paper (frame : Frame) (s : Desk ℚ (PaperWorld ℚ Y)) (on : s.ledger.OnPaper s.outside.paper) :
    (handleFrame world rest frame s).2.ledger.OnPaper (handleFrame world rest frame s).2.outside.paper := by
  let P : Ledger ℚ × PaperTransport ℚ → Prop := fun pair => pair.1.OnPaper pair.2
  refine handleFrame_keeps P (paper_reacts world rest) (fun _ _ step => step) (fun s ticker on => ?_)
    (fun print s on => simulateMakerFills_paper world print s on) (fun _ _ => rfl) frame on
  -- adopting a market changes the tracked tickers alone
  exact ⟨on.issued, on.agrees, on.fresh, on.numbered, on.ids, on.left, on.markets⟩

end Kalshi
