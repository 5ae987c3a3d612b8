import KalshiMaker.Strategy.QuoterWalk

/-! Two desks side by side: the quoter sends the same requests on both where its clock readings decide
the same. -/
namespace Kalshi

open Effect Eff Desk

variable {F X X' : Type} [Floating F]

/-- What a refresh of a slot comes to, before our own quote on the other side is looked at. -/
inductive Choice where
  | enter
  | keep
  | flag
  | wait (adverse : Bool)
  | reprice
  deriving DecidableEq, Repr

/-- How long a slot's order must have rested before it is repriced; none where no reprice is due. -/
def QuoterConfig.dueRest (config : QuoterConfig F) (leg : QuoteLeg) (slot : QuoteSlot) (desired : Int) : Option Int :=
  if slot.orderId ≠ "" ∧ config.repriceThresholdCents < |slot.quotedCents - desired| then
    if config.theoJumpCents ≤ leg.adverseMove slot.quotedCents desired then
      if slot.fadePending then some config.fadeRestMs else none
    else some config.minRestMs
  else none

theorem QuoterConfig.dueRest_held {config : QuoterConfig F} {leg : QuoteLeg} {slot : QuoteSlot} {desired restMs : Int}
    (due : config.dueRest leg slot desired = some restMs) : slot.orderId ≠ "" := by
  unfold QuoterConfig.dueRest at due
  split at due
  next moved => exact moved.1
  next => cases due

/-- A rest of no time is over at once. -/
theorem restingTooYoung_expired {placedAt now : TimePoint} {restMs : Int} (placed : placedAt ≤ now)
    (brief : restMs ≤ 0) : restingTooYoung placedAt now restMs = false := by
  have scaled : restMs * nanosPerMilli ≤ 0 := Int.mul_nonpos_of_nonpos_of_nonneg brief (by decide)
  unfold restingTooYoung
  rw [decide_eq_false_iff_not, not_lt]
  exact scaled.trans (sub_nonneg.mpr placed)

namespace Quoter

def choice (config : QuoterConfig F) (leg : QuoteLeg) (slot : QuoteSlot) (desired : Int) (now : TimePoint) : Choice :=
  if slot.orderId = "" then .enter
  else if config.repriceThresholdCents < |slot.quotedCents - desired| then
    let adverseJump := decide (config.theoJumpCents ≤ leg.adverseMove slot.quotedCents desired)
    if adverseJump && !slot.fadePending then .flag
    else if restingTooYoung slot.placedAt now (if adverseJump then config.fadeRestMs else config.minRestMs) then
      .wait adverseJump
    else .reprice
  else .keep

section

variable (venue : Venue X)

def carryOut (side : Side) (ticker : Ticker) (desired : Int) (now : TimePoint) (crossing : Bool) :
    Choice → Eff (Desk F X) String Unit
  | .enter => if crossing then pure () else enter venue (legOf side) ticker desired now
  | .keep => pure ()
  | .flag => setFadePending ticker side true
  | .wait adverse => if adverse then pure () else setFadePending ticker side false
  | .reprice => do
    setFadePending ticker side false
    reprice venue (legOf side) ticker desired now crossing

/-- A refresh carries out one choice, made off its own slot. -/
theorem refresh_choice (side : Side) (ticker : Ticker) (desired : Int) (now : TimePoint) (s : Desk F X) :
    refresh venue (legOf side) ticker desired now s =
      carryOut venue side ticker desired now (wouldCross s ticker side desired)
        (choice s.quoter.config (legOf side) (s.quoter.ownQuotes ticker side) desired now) s := by
  unfold refresh choice
  rw [bind_apply, get_apply, andThen_ok, legOf_side]
  by_cases vacant : (s.quoter.ownQuotes ticker side).orderId = ""
  case pos =>
    simp only [vacant, ↓reduceIte]
    rfl
  simp only [vacant, ↓reduceIte]
  by_cases moved : s.quoter.config.repriceThresholdCents < |(s.quoter.ownQuotes ticker side).quotedCents - desired|
  case neg =>
    simp only [moved, ↓reduceIte]
    rfl
  simp only [moved, ↓reduceIte]
  -- an adverse move past the jump asks for the fade's rest, any other for the minimal one
  cases decide (s.quoter.config.theoJumpCents ≤
      (legOf side).adverseMove (s.quoter.ownQuotes ticker side).quotedCents desired) with
  | true =>
    cases (s.quoter.ownQuotes ticker side).fadePending with
    | false => rfl
    | true =>
      simp only [Bool.not_true, Bool.and_false, Bool.false_eq_true, ↓reduceIte]
      cases restingTooYoung (s.quoter.ownQuotes ticker side).placedAt now s.quoter.config.fadeRestMs <;> rfl
  | false =>
    simp only [Bool.not_false, Bool.false_and, Bool.false_eq_true, ↓reduceIte]
    cases restingTooYoung (s.quoter.ownQuotes ticker side).placedAt now s.quoter.config.minRestMs <;> rfl

/-! ### What a side leaves alone -/

namespace Beside

variable {υ : Type} {view : Desk F X → υ} {ticker : Ticker} {side : Side}

theorem refresh (beside : Beside ticker side view) (desired : Int) (now : TimePoint) (s : Desk F X) :
    Leads view (fun _ _ => False) (refresh venue (legOf side) ticker desired now) s := by
  unfold Leads
  rw [refresh_choice]
  change Leads view _ (carryOut venue side ticker desired now _ _) s
  cases choice s.quoter.config (legOf side) (s.quoter.ownQuotes ticker side) desired now with
  | enter => exact Leads.ite (fun _ => Leads.quiet rfl) (fun _ => beside.enter venue desired now s)
  | keep => exact Leads.quiet rfl
  | flag => exact Leads.quiet (beside.slot s _)
  | wait adverse => exact Leads.ite (fun _ => Leads.quiet rfl) (fun _ => Leads.quiet (beside.slot s _))
  | reprice =>
    refine Leads.bind (Leads.quiet (beside.slot s _)) (fun _ s₁ _ => ?_)
    refine Leads.bind (beside.amendInPlace venue desired now _ s₁) (fun amended s₂ _ => ?_)
    refine Leads.ite (fun _ => Leads.quiet rfl) (fun _ => ?_)
    rw [legOf_side]
    refine Leads.bind (beside.releaseSlot venue s₂) (fun released s₃ _ => ?_)
    refine Leads.ite (fun _ => ?_) (fun _ => Leads.quiet rfl)
    exact Leads.ite (fun _ => Leads.quiet rfl) (fun _ => beside.enter venue desired now s₃)

theorem releaseSuppressed (beside : Beside ticker side view) (suppressed : Bool) (s : Desk F X) :
    Leads view (fun _ _ => False) (releaseSuppressed venue (legOf side) ticker suppressed) s := by
  unfold Quoter.releaseSuppressed
  rw [legOf_side]
  refine Leads.bind (Leads.quiet rfl) ?_
  rintro s₀ _ ⟨⟩
  refine Leads.ite (fun _ => ?_) (fun _ => Leads.quiet rfl)
  exact Leads.bind (beside.releaseSlot venue s) fun _ s₁ _ => Leads.quiet rfl

theorem refreshUnless (beside : Beside ticker side view) (suppressed : Bool) (target : Option Int) (now : TimePoint)
    (s : Desk F X) :
    Leads view (fun _ _ => False) (refreshUnless venue suppressed (legOf side) ticker target now) s := by
  cases target with
  | none => exact Leads.quiet rfl
  | some desired => exact Leads.ite (fun _ => Leads.quiet rfl) (fun _ => beside.refresh venue desired now s)

end Beside

/-- The configuration, and the slot a refresh of this side goes by. -/
def ownView (ticker : Ticker) (side : Side) (s : Desk F X) : QuoterConfig F × QuoteSlot :=
  (s.quoter.config, s.quoter.ownQuotes ticker side)

theorem ownView_beside (ticker : Ticker) {side other : Side} (apart : side ≠ other) :
    Beside ticker other (ownView (F := F) (X := X) ticker side) where
  slot s slot := by simp [ownView, setSlot, apart]
  outside _ _ := rfl
  called _ _ _ := rfl
  orders _ _ := rfl

end

/-- Equal orders in the two slots call for the same choice where their rests are over at once. -/
theorem choice_alike {config : QuoterConfig F} {leg : QuoteLeg} {slot slot' : QuoteSlot} {desired : Int}
    {now now' : TimePoint} (same : slot.orderId = slot'.orderId)
    (held : slot.orderId ≠ "" → slot.quotedCents = slot'.quotedCents ∧ slot.fadePending = slot'.fadePending)
    (rested : ∀ restMs, config.dueRest leg slot desired = some restMs →
      restingTooYoung slot.placedAt now restMs = restingTooYoung slot'.placedAt now' restMs) :
    choice config leg slot desired now = choice config leg slot' desired now' := by
  unfold choice
  rw [← same]
  by_cases vacant : slot.orderId = ""
  · rw [if_pos vacant, if_pos vacant]
  · obtain ⟨quoted, fade⟩ := held vacant
    rw [if_neg vacant, if_neg vacant, ← quoted, ← fade]
    by_cases moved : config.repriceThresholdCents < |slot.quotedCents - desired|
    · rw [if_pos moved, if_pos moved]
      unfold QuoterConfig.dueRest at rested
      rw [if_pos ⟨vacant, moved⟩] at rested
      -- the time enters through the rest alone, and only where one is due
      by_cases adverse : config.theoJumpCents ≤ leg.adverseMove slot.quotedCents desired
      · cases pending : slot.fadePending with
        | false => simp [adverse]
        | true =>
          have young := rested config.fadeRestMs (by simp [adverse, pending])
          simp [adverse, young]
      · have young := rested config.minRestMs (by simp [adverse])
        simp [adverse, young]
    · rw [if_neg moved, if_neg moved]

end Quoter

/-- In what two desks are to be alike: which markets' slots, what of the outside, which pairs of clock
readings count as the same, whether the flags of a first adverse sighting are compared, and what of the
smoothed prices. -/
structure Likeness (F X X' : Type) where
  scope : Ticker → Prop
  outside : X → X' → Prop
  readings : X → X' → TimePoint → TimePoint → Prop
  flags : Prop
  smoothing : (Ticker → Option F) → (Ticker → Option F) → Prop

/-- Two slots that hold the same order at the same price, or none. -/
structure QuoteSlot.Alike (readings : TimePoint → TimePoint → Prop) (flags : Prop) (slot slot' : QuoteSlot) :
    Prop where
  orderId : slot.orderId = slot'.orderId
  quoted : slot.orderId ≠ "" → slot.quotedCents = slot'.quotedCents
  placed : slot.orderId ≠ "" → readings slot.placedAt slot'.placedAt
  fade : flags → slot.fadePending = slot'.fadePending

namespace Likeness

variable (like : Likeness F X X')

/-- The two outsides move on, and readings that counted as the same still do. -/
structure Later (x : X) (x' : X') (y : X) (y' : X') : Prop where
  outside : like.outside y y'
  readings : ∀ now now', like.readings x x' now now' → like.readings y y' now now'

structure Twins (s : Desk F X) (s' : Desk F X') : Prop where
  outside : like.outside s.outside s'.outside
  orderMgr : s.orderMgr = s'.orderMgr
  riskMgr : s.riskMgr = s'.riskMgr
  calls : s.calls = s'.calls
  tickers : s.session.tickers = s'.session.tickers
  config : s.quoter.config = s'.quoter.config
  model : s.quoter.model = s'.quoter.model
  inventoryB : s.quoter.inventoryBContracts = s'.quoter.inventoryBContracts
  reduceOnly : s.quoter.reduceOnly = s'.quoter.reduceOnly
  smoothing : like.smoothing s.quoter.fvEma s'.quoter.fvEma
  slots : ∀ ticker side, like.scope ticker →
    (s.quoter.ownQuotes ticker side).Alike (like.readings s.outside s'.outside) like.flags
      (s'.quoter.ownQuotes ticker side)

/-- The two exchanges answer alike. -/
structure Venues (venue : Venue X) (venue' : Venue X') : Prop where
  rest : venue.rest = venue'.rest
  post : ∀ url body x x', like.outside x x' →
    (venue.host.post url body x).1 = (venue'.host.post url body x').1 ∧
      like.Later x x' (venue.host.post url body x).2 (venue'.host.post url body x').2
  delete : ∀ url x x', like.outside x x' →
    (venue.host.delete url x).1 = (venue'.host.delete url x').1 ∧
      like.Later x x' (venue.host.delete url x).2 (venue'.host.delete url x').2
  steady : ∀ x x', like.outside x x' → like.Later x x' (venue.host.steadyNow x).2 (venue'.host.steadyNow x').2 ∧
    like.readings (venue.host.steadyNow x).2 (venue'.host.steadyNow x').2 (venue.host.steadyNow x).1
      (venue'.host.steadyNow x').1

/-- Two desks alike while an update goes by these readings. -/
def TwinsAt (now now' : TimePoint) (s : Desk F X) (s' : Desk F X') : Prop :=
  like.Twins s s' ∧ like.readings s.outside s'.outside now now'

end Likeness

/-! ### Requests -/

section

variable {like : Likeness F X X'} {venue : Venue X} {venue' : Venue X'} {now now' : TimePoint} {s : Desk F X}
  {s' : Desk F X'}

theorem QuoteSlot.Alike.mono {readings later : TimePoint → TimePoint → Prop} {flags : Prop} {slot slot' : QuoteSlot}
    (alike : slot.Alike readings flags slot') (weaker : ∀ now now', readings now now' → later now now') :
    slot.Alike later flags slot' :=
  ⟨alike.orderId, alike.quoted, fun held => weaker _ _ (alike.placed held), alike.fade⟩

namespace Likeness

theorem Twins.later (twins : like.Twins s s') {y : X} {y' : X'} (later : like.Later s.outside s'.outside y y') :
    like.Twins { s with outside := y } { s' with outside := y' } :=
  { twins with
    outside := later.outside
    slots := fun ticker side within => (twins.slots ticker side within).mono later.readings }

theorem Twins.called (twins : like.Twins s s') (call : Call F) {y : X} {y' : X'}
    (later : like.Later s.outside s'.outside y y') : like.Twins (s.called call y) (s'.called call y') :=
  { twins.later later with
    calls := by
      unfold Desk.called
      rw [twins.calls, twins.tickers] }

theorem Twins.withOrders (twins : like.Twins s s') (orderMgr : OrderManager F) :
    like.Twins (s.withOrders orderMgr) (s'.withOrders orderMgr) :=
  { twins with orderMgr := rfl }

/-- The same slot is put to the same use on both desks. -/
theorem Twins.setSlot (twins : like.Twins s s') (ticker : Ticker) (side : Side) {slot slot' : QuoteSlot}
    (alike : slot.Alike (like.readings s.outside s'.outside) like.flags slot') :
    like.Twins { s with quoter := s.quoter.setSlot ticker side slot }
      { s' with quoter := s'.quoter.setSlot ticker side slot' } :=
  { twins with
    slots := by
      intro other otherSide within
      have before := twins.slots other otherSide within
      unfold Quoter.setSlot
      by_cases here : other = ticker
      · subst here
        by_cases there : otherSide = side
        · subst there
          simpa only [Function.update_self] using alike
        · simpa only [Function.update_self, Function.update_of_ne there] using before
      · simpa only [Function.update_of_ne here] using before }

theorem Twins.forgetOrder (twins : like.Twins s s') (ticker : Ticker) (orderId : OrderId) :
    like.Twins { s with quoter := s.quoter.forgetOrder ticker orderId }
      { s' with quoter := s'.quoter.forgetOrder ticker orderId } :=
  { twins with
    slots := by
      intro other side within
      have before := twins.slots other side within
      unfold Quoter.forgetOrder
      by_cases here : other = ticker
      · subst here
        simp only [Function.update_self, ← before.orderId]
        split
        · exact ⟨rfl, fun held => absurd rfl held, fun held => absurd rfl held, before.fade⟩
        · exact before
      · simpa only [Function.update_of_ne here] using before }

end Likeness

open Likeness

omit [Floating F] in
theorem request_alike {call : X → Except String HttpResponse × X} {call' : X' → Except String HttpResponse × X'}
    {x : X} {x' : X'} (answered : (call x).1 = (call' x').1 ∧ like.Later x x' (call x).2 (call' x').2) :
    Alike (like.Later x x') (Host.request call) (Host.request call') x x' := by
  have both : ∀ (r r' : Except String HttpResponse) (y : X) (y' : X'), r = r' → like.Later x x' y y' →
      Alike (like.Later x x') (Eff.ofExcept r) (Eff.ofExcept r') y y' := by
    rintro r _ y y' rfl later
    exact Alike.ofExcept r later
  exact both _ _ _ _ answered.1 answered.2

theorem issue_alike {α : Type} {request : Eff X String α} {request' : Eff X' String α} (call : Option α → Call F)
    (asked : Alike (like.Later s.outside s'.outside) request request' s.outside s'.outside)
    (twins : like.TwinsAt now now' s s') : Alike (like.TwinsAt now now') (issue request call)
    (issue request' call) s s' := by
  obtain ⟨same, later⟩ := asked
  refine ⟨same, ?_, later.readings _ _ twins.2⟩
  unfold issue
  rw [same]
  exact twins.1.called _ later

theorem ensure_alike {σ σ' : Type} {R : σ → σ' → Prop} (condition : Bool) (what : String) {t : σ} {t' : σ'}
    (related : R t t') : Alike R (ensure condition what) (ensure condition what) t t' := by
  cases condition with
  | true => exact ⟨rfl, related⟩
  | false => exact ⟨rfl, related⟩

variable (venues : like.Venues venue venue')

include venues

theorem place_alike (ticker : Ticker) (side : Side) (price quantity : Int) (twins : like.TwinsAt now now' s s') :
    Alike (like.TwinsAt now now') (OrderManager.place venue ticker side price quantity)
      (OrderManager.place venue' ticker side price quantity) s s' := by
  unfold OrderManager.place
  refine Alike.bind (ensure_alike _ _ twins) (fun _ t₁ t₁' _ _ twins₁ => ?_)
  refine Alike.bind (ensure_alike _ _ twins₁) (fun _ t₂ t₂' _ _ twins₂ => ?_)
  refine Alike.bind (issue_alike _ ?_ twins₂) (fun order t₃ t₃' _ _ twins₃ => ?_)
  · unfold RestClient.placeOrder
    rw [← venues.rest]
    refine Alike.bind (request_alike (venues.post _ _ _ _ twins₂.1.outside)) ?_
    exact fun resp y y' _ _ later => Alike.ofExcept _ later
  · refine Alike.bind (Alike.modify ⟨?_, twins₃.2⟩) (fun _ t₄ t₄' _ _ twins₄ => Alike.pure order twins₄)
    rw [← twins₃.1.orderMgr]
    exact twins₃.1.withOrders _

theorem cancel_alike (orderId : OrderId) (twins : like.TwinsAt now now' s s') :
    Alike (like.TwinsAt now now') (OrderManager.cancel venue orderId) (OrderManager.cancel venue' orderId) s s' := by
  unfold OrderManager.cancel
  refine Alike.bind (issue_alike _ ?_ twins) (fun success t₁ t₁' _ _ twins₁ => ?_)
  · unfold RestClient.cancelOrder
    rw [← venues.rest]
    refine Alike.bind (request_alike (venues.delete _ _ _ twins.1.outside)) ?_
    exact fun resp y y' _ _ later => Alike.pure _ later
  · cases success with
    | false => exact Alike.pure false twins₁
    | true =>
      refine Alike.bind (Alike.modify ⟨?_, twins₁.2⟩) (fun _ t₂ t₂' _ _ twins₂ => Alike.pure true twins₂)
      rw [← twins₁.1.orderMgr]
      exact twins₁.1.withOrders _

theorem amend_alike (orderId : OrderId) (ticker : Ticker) (side : Side) (price : Int) (count : Quantity)
    (twins : like.TwinsAt now now' s s') :
    Alike (like.TwinsAt now now') (OrderManager.amend venue orderId ticker side price count)
      (OrderManager.amend venue' orderId ticker side price count) s s' := by
  unfold OrderManager.amend
  refine Alike.bind (issue_alike _ ?_ twins) (fun newId t₁ t₁' _ _ twins₁ => ?_)
  · unfold RestClient.amendOrder
    rw [← venues.rest]
    refine Alike.bind (request_alike (venues.post _ _ _ _ twins.1.outside)) ?_
    exact fun resp y y' _ _ later => Alike.pure _ later
  · cases newId with
    | none => exact Alike.pure none twins₁
    | some newId =>
      refine Alike.bind (Alike.modify ⟨?_, twins₁.2⟩) (fun _ t₂ t₂' _ _ twins₂ => Alike.pure (some newId) twins₂)
      rw [← twins₁.1.orderMgr]
      exact twins₁.1.withOrders _

end

/-! ### The quoter -/

namespace Quoter

open Likeness

section

variable {like : Likeness F X X'} {ticker : Ticker} {now now' : TimePoint} {s : Desk F X} {s' : Desk F X'}
  (within : like.scope ticker)

include within

theorem fillSlot_alike (side : Side) (orderId : OrderId) (quotedCents : Int) (twins : like.TwinsAt now now' s s') :
    Alike (like.TwinsAt now now') (fillSlot ticker side orderId quotedCents now)
      (fillSlot ticker side orderId quotedCents now') s s' := by
  have before := twins.1.slots ticker side within
  refine Alike.modify ⟨twins.1.setSlot ticker side ?_, twins.2⟩
  exact ⟨rfl, fun _ => rfl, fun _ => twins.2, before.fade⟩

theorem clearSlot_alike (side : Side) (twins : like.TwinsAt now now' s s') :
    Alike (like.TwinsAt now now') (clearSlot ticker side) (clearSlot ticker side) s s' := by
  have before := twins.1.slots ticker side within
  refine Alike.modify ⟨twins.1.setSlot ticker side ?_, twins.2⟩
  exact ⟨rfl, fun held => absurd rfl held, fun held => absurd rfl held, before.fade⟩

theorem setFadePending_alike (side : Side) (fadePending : Bool) (twins : like.TwinsAt now now' s s') :
    Alike (like.TwinsAt now now') (setFadePending ticker side fadePending) (setFadePending ticker side fadePending)
      s s' := by
  have before := twins.1.slots ticker side within
  refine Alike.modify ⟨twins.1.setSlot ticker side ?_, twins.2⟩
  exact ⟨before.orderId, before.quoted, before.placed, fun _ => rfl⟩

/-- Our own quote on the other side stands in the way on both desks or on neither. -/
theorem wouldCross_alike (side : Side) (desired : Int) (twins : like.Twins s s') :
    wouldCross s ticker side desired = wouldCross s' ticker side desired := by
  obtain ⟨same, quoted, _, _⟩ := twins.slots ticker side.opposite within
  unfold wouldCross
  rw [← same]
  by_cases held : (s.quoter.ownQuotes ticker side.opposite).orderId = ""
  · simp [held]
  · rw [quoted held]

variable {venue : Venue X} {venue' : Venue X'} (venues : like.Venues venue venue')

include venues

theorem enter_alike (side : Side) (desired : Int) (twins : like.TwinsAt now now' s s') :
    Alike (like.TwinsAt now now') (enter venue (legOf side) ticker desired now)
      (enter venue' (legOf side) ticker desired now') s s' := by
  unfold enter
  refine Alike.get_bind ?_
  rw [← twins.1.riskMgr, ← twins.1.config]
  refine Alike.ite Iff.rfl (fun _ => ?_) (fun _ => Alike.pure () twins)
  refine Alike.bind (place_alike venues _ _ _ _ twins) (fun order t t' _ _ twins => ?_)
  exact fillSlot_alike within _ _ _ twins

theorem amendInPlace_alike (side : Side) (desired : Int) (crossing : Bool) (twins : like.TwinsAt now now' s s') :
    Alike (like.TwinsAt now now') (amendInPlace venue (legOf side) ticker desired now crossing)
      (amendInPlace venue' (legOf side) ticker desired now' crossing) s s' := by
  unfold amendInPlace
  refine Alike.get_bind ?_
  rw [← twins.1.riskMgr, ← twins.1.config]
  refine Alike.ite Iff.rfl (fun _ => ?_) (fun _ => Alike.pure false twins)
  rw [← (twins.1.slots ticker (legOf side).side within).orderId]
  refine Alike.bind (amend_alike venues _ _ _ _ _ twins) (fun newId t t' _ _ twins => ?_)
  cases newId with
  | none => exact Alike.pure false twins
  | some newId =>
    refine Alike.bind (fillSlot_alike within _ _ _ twins) ?_
    exact fun _ t t' _ _ twins => Alike.pure true twins

theorem releaseSlot_alike (side : Side) (twins : like.TwinsAt now now' s s') :
    Alike (like.TwinsAt now now') (releaseSlot venue ticker side) (releaseSlot venue' ticker side) s s' := by
  unfold releaseSlot releaseOrder
  refine Alike.get_bind ?_
  rw [← (twins.1.slots ticker side within).orderId]
  refine Alike.bind (Alike.bind (cancel_alike venues _ twins) (fun success t t' _ _ twins => ?_))
    (fun released t t' _ _ twins => ?_)
  · cases success with
    | true => exact Alike.pure true twins
    | false =>
      refine Alike.get_bind ?_
      rw [← twins.1.orderMgr]
      exact Alike.pure _ twins
  · cases released with
    | false => exact Alike.pure false twins
    | true =>
      refine Alike.bind (clearSlot_alike within side twins) ?_
      exact fun _ t t' _ _ twins => Alike.pure true twins

theorem reprice_alike (side : Side) (desired : Int) (crossing : Bool) (twins : like.TwinsAt now now' s s') :
    Alike (like.TwinsAt now now') (reprice venue (legOf side) ticker desired now crossing)
      (reprice venue' (legOf side) ticker desired now' crossing) s s' := by
  unfold reprice
  refine Alike.bind (amendInPlace_alike within venues side desired crossing twins) (fun amended t t' _ _ twins => ?_)
  refine Alike.ite Iff.rfl (fun _ => Alike.pure () twins) (fun _ => ?_)
  refine Alike.bind (releaseSlot_alike within venues _ twins) (fun released t t' _ _ twins => ?_)
  refine Alike.ite Iff.rfl (fun _ => ?_) (fun _ => Alike.pure () twins)
  refine Alike.ite Iff.rfl (fun _ => Alike.pure () twins) (fun _ => ?_)
  exact enter_alike within venues side desired twins

theorem refresh_alike (side : Side) (desired : Int) (twins : like.TwinsAt now now' s s')
    (same : choice s.quoter.config (legOf side) (s.quoter.ownQuotes ticker side) desired now =
      choice s.quoter.config (legOf side) (s'.quoter.ownQuotes ticker side) desired now') :
    Alike (like.TwinsAt now now') (refresh venue (legOf side) ticker desired now)
      (refresh venue' (legOf side) ticker desired now') s s' := by
  unfold Eff.Alike
  rw [refresh_choice, refresh_choice, ← twins.1.config, ← same, ← wouldCross_alike within side desired twins.1]
  cases choice s.quoter.config (legOf side) (s.quoter.ownQuotes ticker side) desired now with
  | enter =>
    exact Alike.ite Iff.rfl (fun _ => Alike.pure () twins)
      (fun _ => enter_alike within venues side desired twins)
  | keep => exact Alike.pure () twins
  | flag => exact setFadePending_alike within side true twins
  | wait adverse =>
    exact Alike.ite Iff.rfl (fun _ => Alike.pure () twins) (fun _ => setFadePending_alike within side false twins)
  | reprice =>
    refine Alike.bind (setFadePending_alike within side false twins) (fun _ t t' _ _ twins => ?_)
    exact reprice_alike within venues side desired _ twins

theorem releaseSuppressed_alike (side : Side) (suppressed : Bool) (twins : like.TwinsAt now now' s s') :
    Alike (like.TwinsAt now now') (releaseSuppressed venue (legOf side) ticker suppressed)
      (releaseSuppressed venue' (legOf side) ticker suppressed) s s' := by
  unfold releaseSuppressed
  refine Alike.get_bind ?_
  rw [← (twins.1.slots ticker (legOf side).side within).orderId]
  refine Alike.ite Iff.rfl (fun _ => ?_) (fun _ => Alike.pure () twins)
  refine Alike.bind (releaseSlot_alike within venues _ twins) ?_
  exact fun _ t t' _ _ twins => Alike.pure () twins

theorem refreshUnless_alike (side : Side) (suppressed : Bool) (target : Option Int)
    (twins : like.TwinsAt now now' s s')
    (same : ∀ desired, suppressed = false → target = some desired →
      choice s.quoter.config (legOf side) (s.quoter.ownQuotes ticker side) desired now =
        choice s.quoter.config (legOf side) (s'.quoter.ownQuotes ticker side) desired now') :
    Alike (like.TwinsAt now now') (refreshUnless venue suppressed (legOf side) ticker target now)
      (refreshUnless venue' suppressed (legOf side) ticker target now') s s' := by
  cases target with
  | none => exact Alike.pure () twins
  | some desired =>
    refine Alike.ite Iff.rfl (fun _ => Alike.pure () twins) (fun trades => ?_)
    exact refresh_alike within venues side desired twins (same desired (Bool.eq_false_iff.mpr trades) rfl)

end

section

variable {like : Likeness F X X'} {ticker : Ticker} {s : Desk F X} {s' : Desk F X'}
  {venue : Venue X} {venue' : Venue X'}

/-- `applyQuotes` once it has read the clock. -/
theorem applyQuotes_at (venue : Venue X) (ticker : Ticker) (inventory : F) (desiredBid desiredAsk : Option Int)
    (s : Desk F X) :
    applyQuotes venue ticker inventory desiredBid desiredAsk s =
      (do
        releaseSuppressed venue (legOf .yes) ticker (s.quoter.suppressed inventory .yes)
        releaseSuppressed venue (legOf .no) ticker (s.quoter.suppressed inventory .no)
        refreshUnless venue (s.quoter.suppressed inventory .yes) (legOf .yes) ticker desiredBid
          (venue.host.steadyNow s.outside).1
        refreshUnless venue (s.quoter.suppressed inventory .no) (legOf .no) ticker desiredAsk
          (venue.host.steadyNow s.outside).1) { s with outside := (venue.host.steadyNow s.outside).2 } := rfl

theorem suppressed_alike (twins : like.Twins s s') (inventory : F) (side : Side) :
    s.quoter.suppressed inventory side = s'.quoter.suppressed inventory side := by
  cases side <;>
    unfold suppressed inventoryCap <;>
    rw [twins.config, twins.reduceOnly]

/-- A side that trades is left alone by the release of the suppressed sides. -/
theorem released_ownView {side : Side} {suppressed : Side → Bool} (trades : suppressed side = false)
    {s s₁ s₂ : Desk F X} (first : releaseSuppressed venue (legOf .yes) ticker (suppressed .yes) s = (.ok (), s₁))
    (second : releaseSuppressed venue (legOf .no) ticker (suppressed .no) s₁ = (.ok (), s₂)) :
    ownView ticker side s₂ = ownView ticker side s := by
  cases side with
  | yes =>
    rw [trades] at first
    cases first
    exact ((ownView_beside ticker (by decide)).releaseSuppressed venue _ s).unmoved_at second
  | no =>
    rw [trades] at second
    cases second
    exact ((ownView_beside ticker (by decide)).releaseSuppressed venue _ s).unmoved_at first

theorem applyQuotes_alike (within : like.scope ticker) (venues : like.Venues venue venue') (inventory : F)
    (desiredBid desiredAsk : Option Int) (twins : like.Twins s s')
    (same : ∀ side desired, aimOf (s.quoter.suppressed inventory) desiredBid desiredAsk side = some desired →
      choice s.quoter.config (legOf side) (s.quoter.ownQuotes ticker side) desired
          (venue.host.steadyNow s.outside).1 =
        choice s.quoter.config (legOf side) (s'.quoter.ownQuotes ticker side) desired
          (venue'.host.steadyNow s'.outside).1) :
    Alike like.Twins (applyQuotes venue ticker inventory desiredBid desiredAsk)
      (applyQuotes venue' ticker inventory desiredBid desiredAsk) s s' := by
  have ticked := venues.steady _ _ twins.outside
  have started : like.TwinsAt (venue.host.steadyNow s.outside).1 (venue'.host.steadyNow s'.outside).1
      { s with outside := (venue.host.steadyNow s.outside).2 }
      { s' with outside := (venue'.host.steadyNow s'.outside).2 } := ⟨twins.later ticked.1, ticked.2⟩
  -- the choice of a side that trades is still the one made off the slots at the start
  have chosen : ∀ {side : Side} {t : Desk F X} {t' : Desk F X'} (desired : Int),
      ownView ticker side t = ownView ticker side s → ownView ticker side t' = ownView ticker side s' →
      aimOf (s.quoter.suppressed inventory) desiredBid desiredAsk side = some desired →
      choice t.quoter.config (legOf side) (t.quoter.ownQuotes ticker side) desired
          (venue.host.steadyNow s.outside).1 =
        choice t.quoter.config (legOf side) (t'.quoter.ownQuotes ticker side) desired
          (venue'.host.steadyNow s'.outside).1 := by
    intro side t t' desired kept kept' aimed
    rw [show t.quoter.config = s.quoter.config from congrArg Prod.fst kept,
      show t.quoter.ownQuotes ticker side = s.quoter.ownQuotes ticker side from congrArg Prod.snd kept,
      show t'.quoter.ownQuotes ticker side = s'.quoter.ownQuotes ticker side from congrArg Prod.snd kept']
    exact same side desired aimed
  unfold Eff.Alike
  rw [applyQuotes_at, applyQuotes_at, ← suppressed_alike twins, ← suppressed_alike twins]
  apply Alike.mono (R := like.TwinsAt (venue.host.steadyNow s.outside).1 (venue'.host.steadyNow s'.outside).1)
  · exact fun _ _ twinsAt => twinsAt.1
  refine Alike.bind (releaseSuppressed_alike within venues .yes _ started) (fun _ t₁ t₁' ran₁ ran₁' twins₁ => ?_)
  refine Alike.bind (releaseSuppressed_alike within venues .no _ twins₁) (fun _ t₂ t₂' ran₂ ran₂' twins₂ => ?_)
  refine Alike.bind (refreshUnless_alike within venues .yes _ desiredBid twins₂ ?_)
    (fun _ t₃ t₃' ran₃ ran₃' twins₃ => ?_)
  · intro desired trades target
    apply chosen desired
    · exact (released_ownView trades ran₁ ran₂ :)
    · exact (released_ownView trades ran₁' ran₂' :)
    · simp only [aimOf, trades, target, Bool.false_eq_true, ↓reduceIte]
  · refine refreshUnless_alike within venues .no _ desiredAsk twins₃ ?_
    intro desired trades target
    have aside : Beside ticker .yes (ownView (F := F) (X := X) ticker .no) := ownView_beside ticker (by decide)
    have aside' : Beside ticker .yes (ownView (F := F) (X := X') ticker .no) := ownView_beside ticker (by decide)
    apply chosen desired
    · rw [(aside.refreshUnless venue _ desiredBid _ t₂).unmoved_at ran₃]
      exact (released_ownView trades ran₁ ran₂ :)
    · rw [(aside'.refreshUnless venue' _ desiredBid _ t₂').unmoved_at ran₃']
      exact (released_ownView trades ran₁' ran₂' :)
    · simp only [aimOf, trades, target, Bool.false_eq_true, ↓reduceIte]

theorem bookWithoutOwnQuotes_alike (within : like.scope ticker) (twins : like.Twins s s') (book : LocalOrderbook) :
    s.bookWithoutOwnQuotes ticker book = s'.bookWithoutOwnQuotes ticker book := by
  have side : ∀ (leg : QuoteLeg) (book : LocalOrderbook),
      s.withoutOwn leg ticker book = s'.withoutOwn leg ticker book := by
    intro leg book
    obtain ⟨same, quoted, _, _⟩ := twins.slots ticker leg.side within
    unfold Desk.withoutOwn Desk.ownOrder
    dsimp only
    rw [← same, ← twins.orderMgr]
    by_cases vacant : (s.quoter.ownQuotes ticker leg.side).orderId = ""
    · simp only [vacant, ↓reduceIte]
    · rw [quoted vacant]
  unfold Desk.bookWithoutOwnQuotes
  rw [side, side]

/-- An update does the same on both desks where its pricing comes to the same and no rest is over on one
of them only. -/
theorem update_alike (within : like.scope ticker) (venues : like.Venues venue venue') (twins : like.Twins s s')
    {book visible : LocalOrderbook} (seen : s.bookWithoutOwnQuotes ticker book = visible)
    (priced : ∀ bid ask, visible.bestBid = some bid → visible.bestAsk = some ask → bid.priceCents < ask.priceCents →
      Alike like.Twins (desiredQuotes venue ticker visible bid.priceCents ask.priceCents)
        (desiredQuotes venue' ticker visible bid.priceCents ask.priceCents)
        (notePriced ticker book s).2 (notePriced ticker book s').2)
    (same : ∀ bid ask, visible.bestBid = some bid → visible.bestAsk = some ask → bid.priceCents < ask.priceCents →
      ∀ wanted t t',
        desiredQuotes venue ticker visible bid.priceCents ask.priceCents (notePriced ticker book s).2 =
          (.ok wanted, t) →
        desiredQuotes venue' ticker visible bid.priceCents ask.priceCents (notePriced ticker book s').2 =
          (.ok wanted, t') →
        ∀ side desired, aimOf (t.quoter.suppressed wanted.1) wanted.2.1 wanted.2.2 side = some desired →
          choice t.quoter.config (legOf side) (t.quoter.ownQuotes ticker side) desired
              (venue.host.steadyNow t.outside).1 =
            choice t.quoter.config (legOf side) (t'.quoter.ownQuotes ticker side) desired
              (venue'.host.steadyNow t'.outside).1) :
    Alike like.Twins (update venue ticker book) (update venue' ticker book) s s' := by
  have noted : like.Twins (notePriced ticker book s).2 (notePriced ticker book s').2 := { twins with }
  unfold update
  refine Alike.get_bind ?_
  rw [← bookWithoutOwnQuotes_alike within twins, seen]
  refine Alike.bind (m := notePriced ticker book) ⟨rfl, noted⟩ ?_
  rintro _ _ _ ⟨⟩ ⟨⟩ _
  cases bids : visible.bestBid with
  | none => exact Alike.pure () noted
  | some bid =>
    cases asks : visible.bestAsk with
    | none => exact Alike.pure () noted
    | some ask =>
      -- both desks see the same book, so they return early together
      refine Alike.ite Iff.rfl (fun _ => Alike.pure () noted) (fun apart => ?_)
      have apart : bid.priceCents < ask.priceCents := not_le.mp apart
      refine Alike.bind (priced bid ask bids asks apart) (fun wanted t t' ran ran' twins => ?_)
      exact applyQuotes_alike within venues _ _ _ twins (same bid ask bids asks apart wanted t t' ran ran')

end

end Quoter

end Kalshi
