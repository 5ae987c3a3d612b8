import KalshiMaker.Strategy.Quoter

/-! The quoter on one market as a walk: where each of its requests moves a view of the desk, so does
the whole of it. -/
namespace Kalshi

open Effect Eff Desk Relation

variable {F X : Type} [Floating F]

namespace Quoter

variable (venue : Venue X)

/-- Pricing leaves the view alone. -/
structure Still (ticker : Ticker) {υ : Type} (view : Desk F X → υ) : Prop where
  steady : ∀ s, view (steadyNow venue s).2 = view s
  system : ∀ s, view (systemNow venue s).2 = view s
  ema : ∀ micro s, view (smoothedMicro ticker micro s).2 = view s
  emit : ∀ emission, (∀ totals, emission ≠ .persist totals) → ∀ s, view (Desk.emit emission s).2 = view s

/-- Pricing and bookkeeping leave the view alone; each request on a side moves it along `R side`, and
an order is sent at allowed prices only. -/
structure Guided (ticker : Ticker) {υ : Type} (view : Desk F X → υ) (R : Side → υ → υ → Prop)
    (allowed : Side → Int → υ → Prop) : Prop where
  still : Still venue ticker view
  fade : ∀ side fadePending s, view (setFadePending ticker side fadePending s).2 = view s
  enter : ∀ {side desired now s}, (s.quoter.ownQuotes ticker side).orderId = "" →
    allowed side desired (view s) → Leads view (R side) (enter venue (legOf side) ticker desired now) s
  amend : ∀ {side desired now wouldCross s}, (s.quoter.ownQuotes ticker side).orderId ≠ "" →
    (wouldCross = false → allowed side desired (view s)) →
    Leads view (R side) (amendInPlace venue (legOf side) ticker desired now wouldCross) s
  release : ∀ side s, Leads view (R side) (releaseSlot venue ticker side) s
  keeps : ∀ {side desired u v}, R side u v → allowed side desired u → allowed side desired v

/-- Pricing and bookkeeping leave the view alone; each request moves it along `R`. -/
structure Moves (ticker : Ticker) {υ : Type} (view : Desk F X → υ) (R : υ → υ → Prop) : Prop where
  steady : ∀ s, view (steadyNow venue s).2 = view s
  system : ∀ s, view (systemNow venue s).2 = view s
  ema : ∀ micro s, view (smoothedMicro ticker micro s).2 = view s
  emit : ∀ emission, (∀ totals, emission ≠ .persist totals) → ∀ s, view (Desk.emit emission s).2 = view s
  fade : ∀ side fadePending s, view (setFadePending ticker side fadePending s).2 = view s
  enter : ∀ {side desired now s}, (s.quoter.ownQuotes ticker side).orderId = "" →
    Leads view R (enter venue (legOf side) ticker desired now) s
  amend : ∀ {side desired now wouldCross s}, (s.quoter.ownQuotes ticker side).orderId ≠ "" →
    Leads view R (amendInPlace venue (legOf side) ticker desired now wouldCross) s
  release : ∀ side s, Leads view R (releaseSlot venue ticker side) s

/-- The prices an update works towards, none on a side without a price or barred from trading. -/
abbrev Aim := Side → Option Int

def aimOf (barred : Side → Bool) (desiredBid desiredAsk : Option Int) : Aim
  | .yes => if barred .yes then none else desiredBid
  | .no => if barred .no then none else desiredAsk

/-- Whether a desired price meets our own live quote on the other side. -/
def wouldCross (s : Desk F X) (ticker : Ticker) (side : Side) (desired : Int) : Bool :=
  (s.quoter.ownQuotes ticker side.opposite).orderId != "" &&
    (legOf side).crosses desired (s.quoter.ownQuotes ticker side.opposite).quotedCents

/-- A side is aimed at a price that is passive on the visible book, and only where it may trade. -/
structure Aimed (s : Desk F X) (ticker : Ticker) (visible : LocalOrderbook) (aim : Aim) : Prop where
  bid : ∀ desired, aim .yes = some desired →
    ∃ ask, visible.bestAsk = some ask ∧ desired < ask.priceCents
  ask : ∀ desired, aim .no = some desired →
    ∃ bid, visible.bestBid = some bid ∧ bid.priceCents < desired
  trades : ∀ side desired, aim side = some desired →
    s.quoter.suppressed (s.orderMgr.netPosition ticker).contracts side = false

theorem releaseSlot_vacant {ticker : Ticker} {side : Side} {s s' : Desk F X}
    (released : releaseSlot venue ticker side s = (.ok true, s')) :
    (s'.quoter.ownQuotes ticker side).orderId = "" := by
  have cleared : ∀ s : Desk F X,
      ((clearSlot ticker side s).2.quoter.ownQuotes ticker side).orderId = "" := by
    intro s
    simp [clearSlot, updateSlot, mapQuoter, setSlot]
  unfold releaseSlot at released
  simp only [bind_apply, get_apply, andThen_ok] at released
  cases h : releaseOrder venue (s.quoter.ownQuotes ticker side).orderId s with
  | mk r s₁ =>
    rw [h] at released
    rcases r with stop | (_ | _)
    · cases released
    · cases released
    · have final : (clearSlot ticker side s₁).2 = s' := congrArg Prod.snd released
      exact final ▸ cleared s₁

theorem setFadePending_held (ticker : Ticker) (side : Side) (fadePending : Bool) (s : Desk F X) :
    ((setFadePending ticker side fadePending s).2.quoter.ownQuotes ticker side).orderId =
      (s.quoter.ownQuotes ticker side).orderId := by
  simp [setFadePending, updateSlot, mapQuoter, setSlot]

/-- A view of nothing that the requests on one side of a market touch. -/
structure Beside (ticker : Ticker) (side : Side) {υ : Type} (view : Desk F X → υ) : Prop where
  slot : ∀ s slot, view { s with quoter := s.quoter.setSlot ticker side slot } = view s
  outside : ∀ s outside, view { s with outside } = view s
  called : ∀ s call outside, view (s.called call outside) = view s
  orders : ∀ s orderMgr, view (s.withOrders orderMgr) = view s

namespace Beside

variable {υ : Type} {view : Desk F X → υ} {ticker : Ticker} {side : Side}

theorem enter (beside : Beside ticker side view) (desired : Int) (now : TimePoint) (s : Desk F X) :
    Leads view (fun _ _ => False) (enter venue (legOf side) ticker desired now) s := by
  unfold Quoter.enter
  rw [legOf_side]
  refine Leads.bind (Leads.quiet rfl) ?_
  rintro s₀ _ ⟨⟩
  refine Leads.ite (fun _ => Leads.bind ?_ (fun order s₁ _ => Leads.quiet (beside.slot s₁ _)))
    (fun _ => Leads.quiet rfl)
  apply Leads.quiet
  rcases OrderManager.place_cases venue ticker side ((legOf side).orderPrice desired) s.quoter.config.quoteSize s
    with ⟨what, h⟩ | ⟨order, x, h, _⟩ | ⟨what, x, h⟩
  · rw [h]
  · rw [h, beside.orders, beside.called]
  · rw [h, beside.called]

theorem amendInPlace (beside : Beside ticker side view) (desired : Int) (now : TimePoint) (crossing : Bool)
    (s : Desk F X) :
    Leads view (fun _ _ => False) (amendInPlace venue (legOf side) ticker desired now crossing) s := by
  unfold Quoter.amendInPlace
  rw [legOf_side]
  refine Leads.bind (Leads.quiet rfl) ?_
  rintro s₀ _ ⟨⟩
  refine Leads.ite (fun _ => Leads.bind ?_ (fun newId s₁ _ => ?_)) (fun _ => Leads.quiet rfl)
  · apply Leads.quiet
    rcases OrderManager.amend_cases venue (s.quoter.ownQuotes ticker side).orderId ticker side
      ((legOf side).orderPrice desired) (Quantity.fromContracts s.quoter.config.quoteSize) s
      with ⟨newId, x, h⟩ | ⟨x, h⟩ | ⟨what, x, h⟩
    · rw [h, beside.orders, beside.called]
    · rw [h, beside.called]
    · rw [h, beside.called]
  · cases newId with
    | none => exact Leads.quiet rfl
    | some newId => exact Leads.bind (Leads.quiet (beside.slot s₁ _)) fun _ s₂ _ => Leads.quiet rfl

theorem releaseSlot (beside : Beside ticker side view) (s : Desk F X) :
    Leads view (fun _ _ => False) (releaseSlot venue ticker side) s := by
  unfold Quoter.releaseSlot releaseOrder
  refine Leads.bind (Leads.quiet rfl) ?_
  rintro s₀ _ ⟨⟩
  refine Leads.bind (Leads.bind ?_ (fun success s₁ _ => ?_)) (fun released s₂ _ => ?_)
  · apply Leads.quiet
    rcases OrderManager.cancel_cases venue (s.quoter.ownQuotes ticker side).orderId s
      with ⟨x, h⟩ | ⟨x, h⟩ | ⟨what, x, h⟩
    · rw [h, beside.orders, beside.called]
    · rw [h, beside.called]
    · rw [h, beside.called]
  · cases success <;> exact Leads.quiet rfl
  · cases released with
    | false => exact Leads.quiet rfl
    | true => exact Leads.bind (Leads.quiet (beside.slot s₂ _)) fun _ s₃ _ => Leads.quiet rfl

end Beside

variable {venue} {υ : Type} {view : Desk F X → υ} {R : Side → υ → υ → Prop}
  {allowed : Side → Int → υ → Prop} {ticker : Ticker}

theorem Guided.keeps_chain (guided : Guided venue ticker view R allowed) {side : Side} {desired : Int} {u v : υ}
    (chain : ReflTransGen (R side) u v) (clear : allowed side desired u) : allowed side desired v :=
  chain_invariant (allowed side desired) (fun _ _ step => guided.keeps step) chain clear

theorem reprice_leads (guided : Guided venue ticker view R allowed) {side : Side} {desired : Int}
    {now : TimePoint} {crossing : Bool} {s : Desk F X} (held : (s.quoter.ownQuotes ticker side).orderId ≠ "")
    (clear : crossing = false → allowed side desired (view s)) :
    Leads view (R side) (reprice venue (legOf side) ticker desired now crossing) s := by
  unfold reprice
  have amends : Leads view (R side) (amendInPlace venue (legOf side) ticker desired now crossing) s :=
    guided.amend held clear
  refine Leads.bind amends ?_
  rintro (_ | _) s₁ amended
  · simp only [Bool.false_eq_true, ↓reduceIte, legOf_side]
    refine Leads.bind (guided.release side s₁) ?_
    rintro (_ | _) s₂ released
    · exact Leads.quiet rfl
    · have vacant := releaseSlot_vacant venue released
      cases crossing with
      | true => exact Leads.quiet rfl
      | false =>
        -- the price was allowed before the amend and the release, and both act on this side only
        have first : ReflTransGen (R side) (view s) (view s₁) := by simpa only [Leads, amended] using amends
        have second : ReflTransGen (R side) (view s₁) (view s₂) := by
          simpa only [Leads, released] using guided.release side s₁
        exact guided.enter vacant (guided.keeps_chain (first.trans second) (clear rfl))
  · exact Leads.quiet rfl

/-- Setting the fade flag, if at all, and going on. -/
theorem fadeThen_leads (guided : Guided venue ticker view R allowed) {side : Side}
    {fadePending condition : Bool} {s : Desk F X} {next : Eff (Desk F X) String Unit}
    (leads : ∀ s', (s'.quoter.ownQuotes ticker side).orderId = (s.quoter.ownQuotes ticker side).orderId →
      view s' = view s → Leads view (R side) next s') :
    Leads view (R side)
      (do if condition then setFadePending ticker side fadePending
          next) s := by
  cases condition with
  | false => exact leads s rfl rfl
  | true =>
    refine Leads.bind (Leads.quiet (guided.fade side fadePending s)) ?_
    intro _ s' ran
    have final : (setFadePending ticker side fadePending s).2 = s' := congrArg Prod.snd ran
    refine leads s' ?_ ?_
    · rw [← final, setFadePending_held]
    · rw [← final, guided.fade]

theorem refresh_leads (guided : Guided venue ticker view R allowed) (side : Side) (desired : Int)
    (now : TimePoint) (s : Desk F X)
    (clear : wouldCross s ticker side desired = false → allowed side desired (view s)) :
    Leads view (R side) (refresh venue (legOf side) ticker desired now) s := by
  unfold refresh
  refine Leads.bind (Leads.quiet rfl) ?_
  rintro s₀ _ ⟨⟩
  simp only [legOf_side]
  split
  next vacant =>
    refine Leads.ite (fun _ => Leads.quiet rfl) (fun apart => ?_)
    exact guided.enter vacant (clear (Bool.eq_false_iff.mpr apart))
  next held =>
    refine Leads.ite (fun _ => ?_) (fun _ => Leads.quiet rfl)
    refine Leads.ite (fun _ => Leads.quiet (guided.fade side true s)) (fun _ => ?_)
    refine fadeThen_leads guided (fun s₁ same₁ view₁ => Leads.ite (fun _ => Leads.quiet rfl) (fun _ => ?_))
    refine fadeThen_leads guided (fun s₂ same₂ view₂ => ?_)
    refine reprice_leads guided (by rw [same₂, same₁]; exact held) (fun apart => ?_)
    rw [view₂, view₁]
    exact clear apart

theorem releaseSuppressed_leads (guided : Guided venue ticker view R allowed) (side : Side) (suppressed : Bool)
    (s : Desk F X) : Leads view (R side) (releaseSuppressed venue (legOf side) ticker suppressed) s := by
  unfold releaseSuppressed
  refine Leads.bind (Leads.quiet rfl) ?_
  rintro s₀ _ ⟨⟩
  refine Leads.ite (fun _ => ?_) (fun _ => Leads.quiet rfl)
  rw [legOf_side]
  exact Leads.bind (guided.release side s) fun _ s' _ => Leads.quiet rfl

theorem refreshUnless_leads (guided : Guided venue ticker view R allowed) (suppressed : Bool) (side : Side)
    (target : Option Int) (now : TimePoint) (s : Desk F X)
    (clear : ∀ desired, suppressed = false → target = some desired →
      wouldCross s ticker side desired = false → allowed side desired (view s)) :
    Leads view (R side) (refreshUnless venue suppressed (legOf side) ticker target now) s := by
  cases target with
  | none => exact Leads.quiet rfl
  | some desired =>
    refine Leads.ite (fun _ => Leads.quiet rfl) (fun unsuppressed => ?_)
    exact refresh_leads guided side desired now s (clear desired (Bool.eq_false_iff.mpr unsuppressed) rfl)

theorem applyQuotes_leads (guided : Guided venue ticker view R allowed) (inventory : F)
    (desiredBid desiredAsk : Option Int) (s : Desk F X)
    (clear : ∀ side desired s',
      aimOf (s.quoter.suppressed inventory) desiredBid desiredAsk side = some desired →
      wouldCross s' ticker side desired = false → allowed side desired (view s')) :
    Leads view (fun u v => ∃ side, R side u v)
      (applyQuotes venue ticker inventory desiredBid desiredAsk) s := by
  have widen : ∀ side u v, R side u v → ∃ side, R side u v := fun side _ _ step => ⟨side, step⟩
  unfold applyQuotes
  refine Leads.bind (Leads.quiet (guided.still.steady s)) (fun now s₁ looked => ?_)
  refine Leads.bind (Leads.quiet rfl) ?_
  rintro s₀ s₂ ⟨⟩
  have quoter : s₁.quoter = s.quoter := by
    rw [← show (steadyNow venue s).2 = s₁ from congrArg Prod.snd looked]
    rfl
  rw [quoter]
  refine Leads.bind ((releaseSuppressed_leads guided .yes _ s₁).mono (widen .yes)) (fun _ s₃ _ => ?_)
  refine Leads.bind ((releaseSuppressed_leads guided .no _ s₃).mono (widen .no)) (fun _ s₄ _ => ?_)
  refine Leads.bind ((refreshUnless_leads guided _ .yes desiredBid now s₄ ?_).mono (widen .yes)) (fun _ s₅ _ => ?_)
  · intro desired opened target
    exact clear .yes desired s₄ (by simp only [aimOf, opened, target, Bool.false_eq_true, ↓reduceIte])
  · refine (refreshUnless_leads guided _ .no desiredAsk now s₅ ?_).mono (widen .no)
    intro desired opened target
    exact clear .no desired s₅ (by simp only [aimOf, opened, target, Bool.false_eq_true, ↓reduceIte])

section

variable {S : υ → υ → Prop}

theorem fairValue_leads (still : Still venue ticker view) (micro : F) (s : Desk F X) :
    Leads view S (fairValue venue ticker micro) s := by
  unfold fairValue tapeVwap
  refine Leads.bind (Leads.quiet (still.ema micro s)) (fun smoothed s₁ _ => ?_)
  refine Leads.bind ?_ (fun tape s₂ _ => ?_)
  · refine Leads.bind (Leads.quiet rfl) (fun s₀ s₂ _ => ?_)
    cases s₀.tradeTape with
    | none => exact Leads.quiet rfl
    | some tape => exact Leads.bind (Leads.quiet (still.system s₂)) fun _ s₃ _ => Leads.quiet rfl
  · refine Leads.bind (Leads.quiet rfl) (fun s₀ s₃ _ => ?_)
    refine Leads.bind (Leads.ite (fun _ => Leads.quiet rfl) (fun _ => Leads.quiet rfl)) ?_
    exact fun _ s₄ _ => Leads.quiet rfl

theorem imbalanced_leads (still : Still venue ticker view) (s : Desk F X) :
    Leads view S (imbalanced venue ticker) s := by
  unfold imbalanced
  refine Leads.bind (Leads.quiet rfl) (fun s₀ s₁ _ => ?_)
  cases s₀.flowGuard with
  | none => exact Leads.quiet rfl
  | some guard => exact Leads.bind (Leads.quiet (still.system s₁)) fun _ s₂ _ => Leads.quiet rfl

theorem takerSide_leads (still : Still venue ticker view) (imbalanced : Bool) (s : Desk F X) :
    Leads view S (takerSide venue ticker imbalanced) s := by
  unfold takerSide
  refine Leads.bind (Leads.quiet rfl) (fun s₀ s₁ _ => ?_)
  cases s₀.flowGuard with
  | none => exact Leads.quiet rfl
  | some guard =>
    refine Leads.ite (fun _ => ?_) (fun _ => Leads.quiet rfl)
    exact Leads.bind (Leads.quiet (still.system s₁)) fun _ s₂ _ => Leads.quiet rfl

theorem desiredQuotes_leads (still : Still venue ticker view) (visible : LocalOrderbook)
    (marketBid marketAsk : Int) (s : Desk F X) :
    Leads view S (desiredQuotes venue ticker visible marketBid marketAsk) s := by
  unfold desiredQuotes
  refine Leads.bind (fairValue_leads still _ s) (fun fairVal s₁ _ => ?_)
  refine Leads.bind (imbalanced_leads still s₁) (fun imbalanced s₂ _ => ?_)
  refine Leads.bind (Leads.quiet rfl) (fun s₀ s₃ _ => ?_)
  refine Leads.bind (takerSide_leads still imbalanced s₃) (fun takerSide s₄ _ => ?_)
  refine Leads.ite (fun _ => ?_) (fun _ => Leads.quiet rfl)
  exact Leads.bind (Leads.quiet (still.emit _ (fun _ persists => by cases persists) s₄)) fun _ s₅ _ => Leads.quiet rfl

end

/-- What pricing does not touch: the orders, and what bars a side from trading. -/
def stance (s : Desk F X) : OrderManager F × QuoterConfig F × Bool :=
  (s.orderMgr, s.quoter.config, s.quoter.reduceOnly)

variable (venue) in
theorem stance_still (ticker : Ticker) : Still venue ticker (stance (F := F) (X := X)) where
  steady _ := rfl
  system _ := rfl
  ema _ _ := rfl
  emit _ _ _ := rfl

theorem passiveBid_below {raw ask desired : Int} (found : passiveBid raw ask = some desired) : desired < ask := by
  unfold passiveBid at found
  dsimp only at found
  split at found
  · cases found
  · have := Option.some.inj found
    omega

theorem passiveAsk_above {raw bid desired : Int} (found : passiveAsk raw bid = some desired) : bid < desired := by
  unfold passiveAsk at found
  dsimp only at found
  split at found
  · cases found
  · have := Option.some.inj found
    omega

/-- The inventory and the desired prices that pricing comes to, on a market with this bid and ask. -/
structure Priced (s : Desk F X) (ticker : Ticker) (marketBid marketAsk : Int)
    (desired : F × Option Int × Option Int) : Prop where
  inventory : desired.1 = (s.orderMgr.netPosition ticker).contracts
  bid : ∀ price, desired.2.1 = some price → price < marketAsk
  ask : ∀ price, desired.2.2 = some price → marketBid < price

theorem desiredQuotes_priced {visible : LocalOrderbook} {marketBid marketAsk : Int} {s s' : Desk F X}
    {desired : F × Option Int × Option Int}
    (ran : desiredQuotes venue ticker visible marketBid marketAsk s = (.ok desired, s')) :
    Priced s ticker marketBid marketAsk desired := by
  have still := stance_still (F := F) venue ticker
  unfold desiredQuotes at ran
  obtain ⟨fairVal, s₁, first, ran⟩ := bind_ok ran
  obtain ⟨imbalance, s₂, second, ran⟩ := bind_ok ran
  obtain ⟨s₀, s₃, ⟨⟩, ran⟩ := bind_ok ran
  obtain ⟨side, s₄, _, ran⟩ := bind_ok ran
  -- pricing only reads, so the position is that of the start
  have orders : s₂.orderMgr = s.orderMgr := by
    have one : stance s₁ = stance s := by
      have leads : Leads stance (fun _ _ => False) (fairValue venue ticker visible.microPriceCents) s :=
        fairValue_leads still _ s
      simpa only [first] using leads.unmoved
    have two : stance s₂ = stance s₁ := by
      have leads : Leads stance (fun _ _ => False) (imbalanced venue ticker) s₁ := imbalanced_leads still s₁
      simpa only [second] using leads.unmoved
    exact congrArg Prod.fst (two.trans one)
  have result : ∀ {value : F × Option Int × Option Int} {report : Bool} {emission : Emission F},
      (do if report then Desk.emit emission
          pure value : Eff (Desk F X) String _) s₄ = (.ok desired, s') → desired = value := by
    intro value report emission ran
    cases report <;> exact (Except.ok.inj (congrArg Prod.fst ran)).symm
  rw [result ran]
  refine ⟨?_, fun price found => passiveBid_below found, fun price found => passiveAsk_above found⟩
  rw [← orders]

theorem Priced.aimed {s noted : Desk F X} {bestBid bestAsk : Level} {visible : LocalOrderbook}
    {desired : F × Option Int × Option Int}
    (priced : Priced noted ticker bestBid.priceCents bestAsk.priceCents desired)
    (bids : visible.bestBid = some bestBid) (asks : visible.bestAsk = some bestAsk) :
    Aimed s ticker visible
      (aimOf (s.quoter.suppressed (s.orderMgr.netPosition ticker).contracts) desired.2.1 desired.2.2) := by
  refine ⟨fun price found => ?_, fun price found => ?_, fun side price found => ?_⟩
  · simp only [aimOf] at found
    split at found
    · cases found
    · exact ⟨bestAsk, asks, priced.bid price found⟩
  · simp only [aimOf] at found
    split at found
    · cases found
    · exact ⟨bestBid, bids, priced.ask price found⟩
  · cases side with
    | yes | no =>
      simp only [aimOf] at found
      split at found
      next => cases found
      next trades => exact Bool.eq_false_iff.mpr trades

/-- Once the look at the book is noted, the rest of an update is requests towards a passive aim. -/
theorem update_guided {R : Aim → Side → υ → υ → Prop} {allowed : Aim → Side → Int → υ → Prop}
    (guided : ∀ aim, Guided venue ticker view (R aim) (allowed aim))
    (clear : ∀ aim side desired s, aim side = some desired → wouldCross s ticker side desired = false →
      allowed aim side desired (view s))
    (book : LocalOrderbook) (s : Desk F X) :
    ∃ aim, Aimed s ticker (s.bookWithoutOwnQuotes ticker book) aim ∧
      ReflTransGen (fun u v => ∃ side, R aim side u v) (view (notePriced ticker book s).2)
        (view (update venue ticker book s).2) := by
  have idle : Aimed s ticker (s.bookWithoutOwnQuotes ticker book) fun _ => none := ⟨nofun, nofun, nofun⟩
  have noted : notePriced ticker book s = (.ok (), (notePriced ticker book s).2) := rfl
  unfold update
  rw [bind_apply, get_apply, andThen_ok, bind_apply, noted, andThen_ok]
  cases bids : (s.bookWithoutOwnQuotes ticker book).bestBid with
  | none => exact ⟨_, idle, .refl⟩
  | some bestBid =>
    cases asks : (s.bookWithoutOwnQuotes ticker book).bestAsk with
    | none => exact ⟨_, idle, .refl⟩
    | some bestAsk =>
      dsimp only
      by_cases crossed : bestAsk.priceCents ≤ bestBid.priceCents
      · rw [if_pos crossed]
        exact ⟨_, idle, .refl⟩
      · rw [if_neg crossed, bind_apply]
        have leads : ReflTransGen _ (view (notePriced ticker book s).2) _ := desiredQuotes_leads
          (S := fun _ _ => False) (guided fun _ => none).still (s.bookWithoutOwnQuotes ticker book)
          bestBid.priceCents bestAsk.priceCents (notePriced ticker book s).2
        have stood : ReflTransGen _ (stance (notePriced ticker book s).2) _ := desiredQuotes_leads
          (S := fun _ _ => False) (stance_still venue ticker) (s.bookWithoutOwnQuotes ticker book)
          bestBid.priceCents bestAsk.priceCents (notePriced ticker book s).2
        cases wanted : desiredQuotes venue ticker (s.bookWithoutOwnQuotes ticker book) bestBid.priceCents
            bestAsk.priceCents (notePriced ticker book s).2 with
        | mk r s₃ =>
          rw [wanted] at leads stood
          have viewed := chain_unmoved leads
          have same := chain_unmoved stood
          cases r with
          | error stop => exact ⟨_, idle, by rw [andThen_error, viewed]⟩
          | ok desired =>
            have priced := desiredQuotes_priced wanted
            have config : s₃.quoter.config = s.quoter.config := congrArg (fun stance => stance.2.1) same
            have reduceOnly : s₃.quoter.reduceOnly = s.quoter.reduceOnly := congrArg (fun stance => stance.2.2) same
            -- the suppression too is judged on the desk that the update found
            have barred : s₃.quoter.suppressed desired.1 =
                s.quoter.suppressed (s.orderMgr.netPosition ticker).contracts := by
              funext side
              rw [priced.inventory]
              cases side <;> simp only [suppressed, inventoryCap, config, reduceOnly] <;> rfl
            refine ⟨aimOf (s₃.quoter.suppressed desired.1) desired.2.1 desired.2.2, ?_, ?_⟩
            · rw [barred]
              exact priced.aimed bids asks
            · rw [andThen_ok, ← viewed]
              exact applyQuotes_leads (guided _) _ _ _ s₃ fun side price s' aimed apart =>
                clear _ side price s' aimed apart

/-- Once the look at the book is noted, the rest of an update is requests. -/
theorem update_moves {S : υ → υ → Prop} (moves : Moves venue ticker view S) (book : LocalOrderbook)
    (s : Desk F X) :
    ReflTransGen S (view (notePriced ticker book s).2) (view (update venue ticker book s).2) := by
  have guided : ∀ _ : Aim, Guided venue ticker view (fun _ => S) (fun _ _ _ => True) := fun _ =>
    { still := ⟨moves.steady, moves.system, moves.ema, moves.emit⟩
      fade := moves.fade
      enter := fun vacant _ => moves.enter vacant
      amend := fun held _ => moves.amend held
      release := moves.release
      keeps := fun _ _ => trivial }
  obtain ⟨_, _, chain⟩ := update_guided guided (fun _ _ _ _ _ _ => trivial) book s
  exact ReflTransGen.mono (fun _ _ ⟨_, step⟩ => step) _ _ chain

end Quoter

end Kalshi
