import KalshiMaker.Strategy.Twins
import KalshiMaker.Strategy.UpdateRun

/-! What an update makes of each side of the quote. -/
namespace Kalshi

open Effect Eff Desk

variable {F X : Type} [Floating F]

/-- The prices an update brings the quote to, and the time it goes by. -/
structure Heading where
  aim : Quoter.Aim
  now : TimePoint

/-- The price a side of the quote is refreshed towards, and the time of it. -/
structure Look where
  desired : Int
  now : TimePoint
  deriving DecidableEq, Repr

def Heading.look (heading : Heading) (side : Side) : Option Look :=
  (heading.aim side).map fun desired => ⟨desired, heading.now⟩

namespace Quoter

variable (venue : Venue X)

/-- From the prices to the first refresh: the sides that must not trade are pulled. -/
def pull (ticker : Ticker) (desired : F × Option Int × Option Int) : Eff (Desk F X) String Heading := do
  let now ← steadyNow venue
  let s ← Eff.get
  let barred := s.quoter.suppressed desired.1
  releaseSuppressed venue bidLeg ticker (barred .yes)
  releaseSuppressed venue askLeg ticker (barred .no)
  pure ⟨aimOf barred desired.2.1 desired.2.2, now⟩

/-- An update up to its first refresh; none where it leaves the quote alone. -/
def head (ticker : Ticker) (book : LocalOrderbook) : Eff (Desk F X) String (Option Heading) := do
  let s ← Eff.get
  let visible := s.bookWithoutOwnQuotes ticker book
  notePriced ticker book
  match visible.bestBid, visible.bestAsk with
  | some bestBid, some bestAsk =>
    if bestAsk.priceCents ≤ bestBid.priceCents then pure none
    else do
      let desired ← desiredQuotes venue ticker visible bestBid.priceCents bestAsk.priceCents
      let heading ← pull venue ticker desired
      pure (some heading)
  | _, _ => pure none

/-- The refresh of a side that has an aim. -/
def bring (ticker : Ticker) (heading : Heading) (side : Side) : Eff (Desk F X) String Unit :=
  refreshUnless venue false (legOf side) ticker (heading.aim side) heading.now

def bringBoth (ticker : Ticker) : Option Heading → Eff (Desk F X) String Unit
  | none => pure ()
  | some heading => do
    bring venue ticker heading .yes
    bring venue ticker heading .no

/-- The refresh of a side in an update; none where the update does not come to it. -/
def look (ticker : Ticker) (book : LocalOrderbook) (s : Desk F X) (side : Side) : Option Look :=
  match head venue ticker book s with
  | (.ok (some heading), s₁) =>
    match side with
    | .yes => heading.look .yes
    | .no =>
      match bring venue ticker heading .yes s₁ with
      | (.ok _, _) => heading.look .no
      | (.error _, _) => none
  | _ => none

theorem bring_aimOf (ticker : Ticker) (barred : Side → Bool) (desiredBid desiredAsk : Option Int) (now : TimePoint) :
    bring (F := F) venue ticker ⟨aimOf barred desiredBid desiredAsk, now⟩ .yes =
        refreshUnless venue (barred .yes) bidLeg ticker desiredBid now ∧
      bring (F := F) venue ticker ⟨aimOf barred desiredBid desiredAsk, now⟩ .no =
        refreshUnless venue (barred .no) askLeg ticker desiredAsk now := by
  unfold bring aimOf
  constructor
  · cases barred .yes <;> cases desiredBid <;> rfl
  · cases barred .no <;> cases desiredAsk <;> rfl

theorem update_eq_head (ticker : Ticker) (book : LocalOrderbook) (s : Desk F X) :
    update venue ticker book s = (do
      let heading ← head venue ticker book
      bringBoth venue ticker heading) s := by
  have nested : ∀ {α β γ : Type} (m : Eff (Desk F X) String α) (k : α → Eff (Desk F X) String β)
      (l : β → Eff (Desk F X) String γ), (m >>= k) >>= l = m >>= fun a => k a >>= l :=
    fun m k l => funext fun s => andThen_assoc k l (m s)
  -- the quotes are applied side by side, once the suppressed ones are pulled
  have applied : ∀ desired : F × Option Int × Option Int,
      applyQuotes venue ticker desired.1 desired.2.1 desired.2.2 = (do
        let heading ← pull venue ticker desired
        let heading ← pure (some heading)
        bringBoth venue ticker heading) := by
    intro desired
    unfold applyQuotes pull
    simp only [nested]
    have resumed : ∀ heading : Heading,
        (do let heading ← pure heading
            let heading ← pure (some heading)
            bringBoth venue ticker heading : Eff (Desk F X) String Unit) =
          (do bring venue ticker heading .yes
              bring venue ticker heading .no) := fun _ => rfl
    simp only [resumed, bring_aimOf]
  unfold update head
  rw [bind_apply, get_apply, andThen_ok, bind_apply, nested, bind_apply, get_apply, andThen_ok]
  dsimp only
  rw [nested, bind_apply]
  cases bid : (s.bookWithoutOwnQuotes ticker book).bestBid with
  | none => rfl
  | some bestBid =>
    cases ask : (s.bookWithoutOwnQuotes ticker book).bestAsk with
    | none => rfl
    | some bestAsk =>
      dsimp only
      by_cases crossed : bestAsk.priceCents ≤ bestBid.priceCents
      · rw [if_pos crossed, if_pos crossed]
        rfl
      · rw [if_neg crossed, if_neg crossed]
        simp only [nested, applied]

end Quoter

/-! ### Choices -/

/-- The desired price has moved against the resting order by what counts as a jump. -/
def QuoterConfig.Adverse (config : QuoterConfig F) (leg : QuoteLeg) (slot : QuoteSlot) (desired : Int) : Prop :=
  config.theoJumpCents ≤ leg.adverseMove slot.quotedCents desired

instance (config : QuoterConfig F) (leg : QuoteLeg) (slot : QuoteSlot) (desired : Int) :
    Decidable (config.Adverse leg slot desired) := inferInstanceAs (Decidable (_ ≤ _))

/-- The order of a slot has rested this long. -/
def QuoteSlot.Rested (slot : QuoteSlot) (now : TimePoint) (restMs : Int) : Prop :=
  restMs * nanosPerMilli ≤ now - slot.placedAt

instance (slot : QuoteSlot) (now : TimePoint) (restMs : Int) : Decidable (slot.Rested now restMs) :=
  inferInstanceAs (Decidable (_ ≤ _))

namespace Quoter

variable {config : QuoterConfig F} {leg : QuoteLeg} {slot : QuoteSlot} {desired : Int} {now : TimePoint}

/-- The choice on a slot whose order is more than the threshold off the desired price. -/
theorem choice_moved (held : slot.orderId ≠ "") (moved : config.repriceThresholdCents < |slot.quotedCents - desired|) :
    choice config leg slot desired now =
      if config.Adverse leg slot desired then
        if slot.fadePending = true then if slot.Rested now config.fadeRestMs then .reprice else .wait true
        else .flag
      else if slot.Rested now config.minRestMs then .reprice else .wait false := by
  have young : ∀ restMs, restingTooYoung slot.placedAt now restMs = decide (¬ slot.Rested now restMs) := by
    intro restMs
    unfold restingTooYoung QuoteSlot.Rested
    rw [decide_eq_decide, not_le]
  unfold choice
  rw [if_neg held, if_pos moved]
  by_cases adverse : config.Adverse leg slot desired
  · have jump : decide (config.theoJumpCents ≤ leg.adverseMove slot.quotedCents desired) = true :=
      decide_eq_true adverse
    cases pending : slot.fadePending with
    | false => simp [adverse, jump]
    | true => by_cases rested : slot.Rested now config.fadeRestMs <;> simp [adverse, jump, young, rested]
  · have jump : decide (config.theoJumpCents ≤ leg.adverseMove slot.quotedCents desired) = false :=
      decide_eq_false adverse
    by_cases rested : slot.Rested now config.minRestMs <;> simp [adverse, jump, young, rested]

/-- Only an empty slot is entered. -/
theorem choice_enter (chosen : choice config leg slot desired now = .enter) : slot.orderId = "" := by
  by_contra held
  unfold choice at chosen
  rw [if_neg held] at chosen
  dsimp only at chosen
  split_ifs at chosen

/-- A choice other than to enter or to keep is made on a held order that is off the desired price. -/
theorem choice_held (other : choice config leg slot desired now ≠ .keep)
    (enters : choice config leg slot desired now ≠ .enter) :
    slot.orderId ≠ "" ∧ config.repriceThresholdCents < |slot.quotedCents - desired| := by
  unfold choice at other enters
  constructor
  · intro empty
    exact enters (if_pos empty)
  · by_contra near
    by_cases empty : slot.orderId = ""
    · exact enters (if_pos empty)
    · exact other (by rw [if_neg empty, if_neg near])

theorem choice_flag (chosen : choice config leg slot desired now = .flag) : config.Adverse leg slot desired := by
  obtain ⟨held, moved⟩ := choice_held (by rw [chosen]; exact Choice.noConfusion)
    (by rw [chosen]; exact Choice.noConfusion)
  rw [choice_moved held moved] at chosen
  split_ifs at chosen with adverse
  exact adverse

theorem choice_wait (chosen : choice config leg slot desired now = .wait true) : config.Adverse leg slot desired := by
  obtain ⟨held, moved⟩ := choice_held (by rw [chosen]; exact Choice.noConfusion)
    (by rw [chosen]; exact Choice.noConfusion)
  rw [choice_moved held moved] at chosen
  split_ifs at chosen with adverse
  · exact adverse
  · cases chosen

/-- An order is repriced once it has rested long enough, sooner if an adverse jump finds the flag raised. -/
theorem choice_reprice (chosen : choice config leg slot desired now = .reprice) :
    slot.Rested now config.minRestMs ∨
      config.Adverse leg slot desired ∧ slot.fadePending = true ∧ slot.Rested now config.fadeRestMs := by
  obtain ⟨held, moved⟩ := choice_held (by rw [chosen]; exact Choice.noConfusion)
    (by rw [chosen]; exact Choice.noConfusion)
  rw [choice_moved held moved] at chosen
  split_ifs at chosen with adverse pending rested rested
  · exact .inr ⟨adverse, pending, rested⟩
  · exact .inl rested

end Quoter

/-- The price a refresh is to bring its slot to, where it is to enter it or to reprice its order. -/
def Quoter.dueAt (config : QuoterConfig F) (leg : QuoteLeg) (slot : QuoteSlot) (seen : Look) : Option Int :=
  match choice config leg slot seen.desired seen.now with
  | .enter | .reprice => some seen.desired
  | .keep | .flag | .wait _ => none

/-! ### One slot -/

/-- What a refresh makes of its slot. -/
inductive QuoteSlot.Refreshed (config : QuoterConfig F) (leg : QuoteLeg) (look : Look) (slot : QuoteSlot) :
    QuoteSlot → Prop where
  | vacant (empty : slot.orderId = "") : Refreshed config leg look slot slot
  -- a new order does not lower the flag of the one before
  | entered (empty : slot.orderId = "") (orderId : OrderId) :
      Refreshed config leg look slot ⟨orderId, look.desired, look.now, slot.fadePending⟩
  | kept (chosen : Quoter.choice config leg slot look.desired look.now = .keep) : Refreshed config leg look slot slot
  | flagged (chosen : Quoter.choice config leg slot look.desired look.now = .flag) :
      Refreshed config leg look slot { slot with fadePending := true }
  | waited (chosen : Quoter.choice config leg slot look.desired look.now = .wait true) :
      Refreshed config leg look slot slot
  | calmed (chosen : Quoter.choice config leg slot look.desired look.now = .wait false) :
      Refreshed config leg look slot { slot with fadePending := false }
  | held (chosen : Quoter.choice config leg slot look.desired look.now = .reprice) :
      Refreshed config leg look slot { slot with fadePending := false }
  | released (chosen : Quoter.choice config leg slot look.desired look.now = .reprice) :
      Refreshed config leg look slot { slot with orderId := "", fadePending := false }
  | repriced (chosen : Quoter.choice config leg slot look.desired look.now = .reprice) (orderId : OrderId) :
      Refreshed config leg look slot ⟨orderId, look.desired, look.now, false⟩

theorem Quoter.dueAt_desired {config : QuoterConfig F} {leg : QuoteLeg} {slot : QuoteSlot} {seen : Look} {price : Int}
    (due : dueAt config leg slot seen = some price) : price = seen.desired := by
  unfold dueAt at due
  split at due <;> cases due <;> rfl

/-- A slot that is live after its refresh is where it was due, or its order stands where it stood. -/
theorem QuoteSlot.Refreshed.moved {config : QuoterConfig F} {leg : QuoteLeg} {slot slot' : QuoteSlot} {seen : Look}
    (refreshed : slot.Refreshed config leg seen slot') (live : slot'.orderId ≠ "") :
    (Quoter.dueAt config leg slot seen = some seen.desired ∧ slot'.quotedCents = seen.desired) ∨
      slot.orderId ≠ "" ∧ slot'.orderId = slot.orderId ∧ slot'.quotedCents = slot.quotedCents := by
  cases refreshed with
  | vacant empty => exact absurd empty live
  | entered empty orderId =>
    left
    unfold Quoter.dueAt
    rw [show Quoter.choice config leg slot seen.desired seen.now = .enter from if_pos empty]
    exact ⟨rfl, rfl⟩
  | kept _ | flagged _ | waited _ | calmed _ | held _ => exact .inr ⟨live, rfl, rfl⟩
  | released _ => exact absurd rfl live
  | repriced chosen orderId =>
    left
    unfold Quoter.dueAt
    rw [chosen]
    exact ⟨rfl, rfl⟩

namespace Quoter

section

variable (venue : Venue X) (ticker : Ticker) (side : Side)

@[simp] theorem updateSlot_slot (f : QuoteSlot → QuoteSlot) (s : Desk F X) :
    (updateSlot ticker side f s).2.quoter.ownQuotes ticker side = f (s.quoter.ownQuotes ticker side) := by
  simp [updateSlot, mapQuoter, setSlot]

theorem fillSlot_slot (orderId : OrderId) (quotedCents : Int) (placedAt : TimePoint) (s : Desk F X) :
    (fillSlot ticker side orderId quotedCents placedAt s).2.quoter.ownQuotes ticker side =
      ⟨orderId, quotedCents, placedAt, (s.quoter.ownQuotes ticker side).fadePending⟩ := updateSlot_slot ticker side _ s

theorem clearSlot_slot (s : Desk F X) : (clearSlot ticker side s).2.quoter.ownQuotes ticker side =
    { s.quoter.ownQuotes ticker side with orderId := "" } := updateSlot_slot ticker side _ s

/-- An entry leaves its slot alone, or fills it. -/
theorem enter_slot (desired : Int) (now : TimePoint) (s : Desk F X) :
    (enter venue (legOf side) ticker desired now s).2.quoter.ownQuotes ticker side = s.quoter.ownQuotes ticker side ∨
      ∃ orderId, (enter venue (legOf side) ticker desired now s).2.quoter.ownQuotes ticker side =
        ⟨orderId, desired, now, (s.quoter.ownQuotes ticker side).fadePending⟩ := by
  unfold enter
  rw [bind_apply, get_apply, andThen_ok, legOf_side]
  split
  next passed =>
    rw [bind_apply]
    rcases OrderManager.place_cases venue ticker side ((legOf side).orderPrice desired) s.quoter.config.quoteSize s
      with ⟨what, ran⟩ | ⟨order, x, ran, _⟩ | ⟨what, x, ran⟩
    · rw [ran]
      exact .inl rfl
    · rw [ran, andThen_ok, fillSlot_slot]
      exact .inr ⟨order.id, rfl⟩
    · rw [ran]
      exact .inl rfl
  next => exact .inl rfl

/-- An amend fills its slot where it is granted, and leaves it alone where it is not. -/
theorem amendInPlace_slot (desired : Int) (now : TimePoint) (crossing : Bool) (s : Desk F X) :
    (∃ orderId t, amendInPlace venue (legOf side) ticker desired now crossing s = (.ok true, t) ∧
      t.quoter.ownQuotes ticker side = ⟨orderId, desired, now, (s.quoter.ownQuotes ticker side).fadePending⟩) ∨
    (∃ r t, amendInPlace venue (legOf side) ticker desired now crossing s = (r, t) ∧ r ≠ .ok true ∧
      t.quoter.ownQuotes ticker side = s.quoter.ownQuotes ticker side) := by
  unfold amendInPlace
  rw [bind_apply, get_apply, andThen_ok, legOf_side]
  split
  next permitted =>
    rw [bind_apply]
    rcases OrderManager.amend_cases venue (s.quoter.ownQuotes ticker side).orderId ticker side
      ((legOf side).orderPrice desired) (Quantity.fromContracts s.quoter.config.quoteSize) s
      with ⟨newId, x, ran⟩ | ⟨x, ran⟩ | ⟨what, x, ran⟩
    · rw [ran]
      exact .inl ⟨newId, (fillSlot ticker side newId desired now _).2, rfl,
        fillSlot_slot ticker side newId desired now _⟩
    · rw [ran]
      exact .inr ⟨_, _, rfl, nofun, rfl⟩
    · rw [ran]
      exact .inr ⟨_, _, rfl, nofun, rfl⟩
  next => exact .inr ⟨_, _, rfl, nofun, rfl⟩

/-- A release empties its slot where the order is gone, and leaves it alone where it is not. -/
theorem releaseSlot_slot (s : Desk F X) :
    (∃ t, releaseSlot venue ticker side s = (.ok true, t) ∧
      t.quoter.ownQuotes ticker side = { s.quoter.ownQuotes ticker side with orderId := "" }) ∨
    (∃ r t, releaseSlot venue ticker side s = (r, t) ∧ r ≠ .ok true ∧
      t.quoter.ownQuotes ticker side = s.quoter.ownQuotes ticker side) := by
  unfold releaseSlot releaseOrder
  rw [bind_apply, get_apply, andThen_ok, bind_apply, bind_apply]
  rcases OrderManager.cancel_cases venue (s.quoter.ownQuotes ticker side).orderId s
    with ⟨x, ran⟩ | ⟨x, ran⟩ | ⟨what, x, ran⟩
  · rw [ran]
    exact .inl ⟨(clearSlot ticker side _).2, rfl, clearSlot_slot ticker side _⟩
  · rw [ran]
    simp only [andThen_ok, Bool.false_eq_true, ↓reduceIte, bind_apply, get_apply, pure_apply]
    split
    · exact .inl ⟨(clearSlot ticker side _).2, rfl, clearSlot_slot ticker side _⟩
    · exact .inr ⟨_, _, rfl, nofun, rfl⟩
  · rw [ran]
    exact .inr ⟨_, _, rfl, nofun, rfl⟩

theorem reprice_slot (desired : Int) (now : TimePoint) (crossing : Bool) (s : Desk F X) :
    let slot := s.quoter.ownQuotes ticker side
    let after := (reprice venue (legOf side) ticker desired now crossing s).2.quoter.ownQuotes ticker side
    after = slot ∨ after = { slot with orderId := "" } ∨
      ∃ orderId, after = ⟨orderId, desired, now, slot.fadePending⟩ := by
  intro slot after
  have unfolded : after = (andThen (fun amended => if amended then pure () else do
      if ← releaseSlot venue ticker side then
        if crossing then pure () else enter venue (legOf side) ticker desired now
      else pure ()) (amendInPlace venue (legOf side) ticker desired now crossing s)).2.quoter.ownQuotes
        ticker side := by
    simp only [after, reprice, legOf_side]
    rfl
  rw [unfolded]
  -- an amend that is refused falls back on cancelling and placing
  rcases amendInPlace_slot venue ticker side desired now crossing s with ⟨orderId, t, ran, filled⟩ |
    ⟨r, t, ran, refused, same⟩
  · rw [ran]
    exact .inr (.inr ⟨orderId, filled⟩)
  · rw [ran]
    rcases r with stop | (_ | _)
    · exact .inl same
    · rw [andThen_ok, if_neg Bool.false_ne_true, bind_apply]
      rcases releaseSlot_slot venue ticker side t with ⟨u, released, emptied⟩ | ⟨r, u, released, kept, unmoved⟩
      · rw [released, andThen_ok, if_pos rfl]
        rw [same] at emptied
        cases crossing with
        | true => exact .inr (.inl emptied)
        | false =>
          rw [if_neg Bool.false_ne_true]
          rcases enter_slot venue ticker side desired now u with unentered | ⟨orderId, entered⟩
          · exact .inr (.inl (unentered.trans emptied))
          · refine .inr (.inr ⟨orderId, entered.trans ?_⟩)
            rw [emptied]
      · rw [released]
        rcases r with stop | (_ | _)
        · exact .inl (unmoved.trans same)
        · exact .inl (unmoved.trans same)
        · exact absurd rfl kept
    · exact absurd rfl refused

/-- A refresh does with its slot as it chooses and the exchange lets it. -/
theorem refresh_slot (desired : Int) (now : TimePoint) (s : Desk F X) :
    (s.quoter.ownQuotes ticker side).Refreshed s.quoter.config (legOf side) ⟨desired, now⟩
      ((refresh venue (legOf side) ticker desired now s).2.quoter.ownQuotes ticker side) := by
  rw [refresh_choice]
  cases chosen : choice s.quoter.config (legOf side) (s.quoter.ownQuotes ticker side) desired now with
  | enter =>
    have empty : (s.quoter.ownQuotes ticker side).orderId = "" := choice_enter chosen
    unfold carryOut
    split
    · exact .vacant empty
    · rcases enter_slot venue ticker side desired now s with same | ⟨orderId, entered⟩
      · rw [same]
        exact .vacant empty
      · rw [entered]
        exact .entered empty orderId
  | keep => exact .kept chosen
  | flag =>
    unfold carryOut setFadePending
    rw [updateSlot_slot]
    exact .flagged chosen
  | wait adverse =>
    cases adverse with
    | true => exact .waited chosen
    | false =>
      change QuoteSlot.Refreshed _ _ _ _ ((setFadePending ticker side false s).2.quoter.ownQuotes ticker side)
      unfold setFadePending
      rw [updateSlot_slot]
      exact .calmed chosen
  | reprice =>
    have same := updateSlot_slot ticker side (fun slot => { slot with fadePending := false }) s
    change QuoteSlot.Refreshed _ _ _ _ ((reprice venue (legOf side) ticker desired now _
      (setFadePending ticker side false s).2).2.quoter.ownQuotes ticker side)
    change (setFadePending ticker side false s).2.quoter.ownQuotes ticker side = _ at same
    generalize (setFadePending ticker side false s).2 = lowered at same ⊢
    have spec := reprice_slot venue ticker side desired now (wouldCross s ticker side desired) lowered
    rw [same] at spec
    dsimp only at spec
    rcases spec with held | released | ⟨orderId, repriced⟩
    · rw [held]
      exact .held chosen
    · rw [released]
      exact .released chosen
    · rw [repriced]
      apply QuoteSlot.Refreshed.repriced
      exact chosen

theorem releaseSuppressed_slot (suppressed : Bool) (s : Desk F X) :
    let slot := s.quoter.ownQuotes ticker side
    let after := (releaseSuppressed venue (legOf side) ticker suppressed s).2.quoter.ownQuotes ticker side
    after = slot ∨ suppressed = true ∧ after = { slot with orderId := "" } := by
  intro slot after
  cases suppressed with
  | false => exact .inl rfl
  | true =>
    have unfolded : after = (if (slot.orderId != "") = true then releaseSlot venue ticker side s
        else (.ok true, s)).2.quoter.ownQuotes ticker side := by
      simp only [after, releaseSuppressed, legOf_side, bind_apply, get_apply, andThen_ok, Bool.true_and]
      split
      · rw [bind_apply, andThen_pure_state]
      · rfl
    rw [unfolded]
    split
    · rcases releaseSlot_slot venue ticker side s with ⟨t, ran, emptied⟩ | ⟨r, t, ran, _, same⟩
      · rw [ran]
        exact .inr ⟨rfl, emptied⟩
      · rw [ran]
        exact .inl same
    · exact .inl rfl

end

/-- What becomes of a side up to its refresh: it is left alone, or pulled where it has no aim. -/
structure Pulled (ticker : Ticker) (side : Side) (aim : Option Int) (s t : Desk F X) : Prop where
  config : t.quoter.config = s.quoter.config
  slot : t.quoter.ownQuotes ticker side = s.quoter.ownQuotes ticker side ∨
    aim = none ∧ t.quoter.ownQuotes ticker side = { s.quoter.ownQuotes ticker side with orderId := "" }

section

variable {venue : Venue X} {ticker : Ticker} {side : Side} {aim : Option Int} {s t u : Desk F X}

theorem Pulled.of_ownView (same : ownView ticker side t = ownView ticker side s) : Pulled ticker side aim s t :=
  ⟨congrArg Prod.fst same, .inl (congrArg Prod.snd same)⟩

theorem Pulled.trans (first : Pulled ticker side aim s t) (second : Pulled ticker side aim t u) :
    Pulled ticker side aim s u := by
  refine ⟨second.config.trans first.config, ?_⟩
  rcases second.slot with same | ⟨idle, emptied⟩
  · rw [same]
    exact first.slot
  · rcases first.slot with before | ⟨_, before⟩
    · rw [emptied, before]
      exact .inr ⟨idle, rfl⟩
    · rw [emptied, before]
      exact .inr ⟨idle, rfl⟩

theorem releaseSuppressed_pulled (other : Side) (suppressed : Bool)
    (bars : other = side → suppressed = true → aim = none)
    (s : Desk F X) : Pulled ticker side aim s (releaseSuppressed venue (legOf other) ticker suppressed s).2 := by
  by_cases own : other = side
  · subst own
    constructor
    · -- the configuration is beside either side
      have beside := ownView_beside (F := F) (X := X) ticker (show other.opposite ≠ other by cases other <;> decide)
      exact congrArg Prod.fst (beside.releaseSuppressed venue suppressed s).unmoved
    · rcases releaseSuppressed_slot venue ticker other suppressed s with same | ⟨barred, emptied⟩
      · exact .inl same
      · exact .inr ⟨bars rfl barred, emptied⟩
  · have beside := ownView_beside (F := F) (X := X) ticker (Ne.symm own)
    exact .of_ownView (beside.releaseSuppressed venue suppressed s).unmoved

theorem pull_slot (side : Side) {desired : F × Option Int × Option Int} {r : Except (Stop String) Heading}
    (ran : pull venue ticker desired s = (r, t)) :
    ∃ aim, Pulled ticker side aim s t ∧ ∀ heading, r = .ok heading → heading.aim side = aim := by
  let barred := s.quoter.suppressed desired.1
  refine ⟨aimOf barred desired.2.1 desired.2.2 side, ?_⟩
  have bars : ∀ other, other = side → barred other = true → aimOf barred desired.2.1 desired.2.2 side = none := by
    rintro other rfl suppressed
    cases other <;> simp only [aimOf, suppressed, ↓reduceIte]
  let s₀ : Desk F X := { s with outside := (venue.host.steadyNow s.outside).2 }
  -- the bid's side is pulled first; a stop there leaves the ask's side alone
  have first : Pulled ticker side (aimOf barred desired.2.1 desired.2.2 side) s₀
      (releaseSuppressed venue (legOf .yes) ticker (barred .yes) s₀).2 :=
    releaseSuppressed_pulled .yes (barred .yes) (bars .yes) s₀
  have unfolded : pull venue ticker desired s = andThen (fun _ => do
      releaseSuppressed venue (legOf .no) ticker (barred .no)
      pure ⟨aimOf barred desired.2.1 desired.2.2, (venue.host.steadyNow s.outside).1⟩)
      (releaseSuppressed venue (legOf .yes) ticker (barred .yes) s₀) := rfl
  rw [unfolded] at ran
  cases yes : releaseSuppressed venue (legOf .yes) ticker (barred .yes) s₀ with
  | mk r₁ s₁ =>
    rw [yes] at ran first
    have looked : Pulled ticker side (aimOf barred desired.2.1 desired.2.2 side) s s₁ :=
      Pulled.trans (t := s₀) (.of_ownView rfl) first
    cases r₁ with
    | error stop =>
      cases ran
      exact ⟨looked, fun _ headed => by cases headed⟩
    | ok _ =>
      rw [andThen_ok, bind_apply] at ran
      have second : Pulled ticker side (aimOf barred desired.2.1 desired.2.2 side) s₁
          (releaseSuppressed venue (legOf .no) ticker (barred .no) s₁).2 :=
        releaseSuppressed_pulled .no (barred .no) (bars .no) s₁
      cases no : releaseSuppressed venue (legOf .no) ticker (barred .no) s₁ with
      | mk r₂ s₂ =>
        rw [no] at ran second
        cases r₂ with
        | error stop =>
          cases ran
          exact ⟨looked.trans second, fun _ headed => by cases headed⟩
        | ok _ =>
          cases ran
          refine ⟨looked.trans second, fun heading headed => ?_⟩
          cases headed
          rfl

theorem pull_aim {desired : F × Option Int × Option Int} {heading : Heading}
    (ran : pull venue ticker desired s = (.ok heading, t)) :
    heading.aim = aimOf (s.quoter.suppressed desired.1) desired.2.1 desired.2.2 := by
  let barred := s.quoter.suppressed desired.1
  let s₀ : Desk F X := { s with outside := (venue.host.steadyNow s.outside).2 }
  have unfolded : pull venue ticker desired s = andThen (fun _ => do
      releaseSuppressed venue (legOf .no) ticker (barred .no)
      pure ⟨aimOf barred desired.2.1 desired.2.2, (venue.host.steadyNow s.outside).1⟩)
      (releaseSuppressed venue (legOf .yes) ticker (barred .yes) s₀) := rfl
  rw [unfolded] at ran
  cases yes : releaseSuppressed venue (legOf .yes) ticker (barred .yes) s₀ with
  | mk r₁ s₁ =>
    rw [yes] at ran
    cases r₁ with
    | error stop => cases ran
    | ok _ =>
      rw [andThen_ok, bind_apply] at ran
      cases no : releaseSuppressed venue (legOf .no) ticker (barred .no) s₁ with
      | mk r₂ s₂ =>
        rw [no] at ran
        cases r₂ with
        | error stop => cases ran
        | ok _ =>
          cases ran
          rfl

/-- An update that comes to its refreshes has prices, and aims at those of the sides that may trade. -/
theorem head_aim {book : LocalOrderbook} {heading : Heading}
    (headed : head venue ticker book s = (.ok (some heading), t)) :
    ∃ bestBid bestAsk desired u, (s.bookWithoutOwnQuotes ticker book).bestBid = some bestBid ∧
      (s.bookWithoutOwnQuotes ticker book).bestAsk = some bestAsk ∧ bestBid.priceCents < bestAsk.priceCents ∧
      desiredQuotes venue ticker (s.bookWithoutOwnQuotes ticker book) bestBid.priceCents bestAsk.priceCents
        (notePriced ticker book s).2 = (.ok desired, u) ∧
      heading.aim = aimOf (u.quoter.suppressed desired.1) desired.2.1 desired.2.2 := by
  have noted : notePriced ticker book s = (.ok (), (notePriced ticker book s).2) := rfl
  unfold head at headed
  rw [bind_apply, get_apply, andThen_ok, bind_apply, noted, andThen_ok] at headed
  cases bid : (s.bookWithoutOwnQuotes ticker book).bestBid with
  | none =>
    rw [bid] at headed
    cases headed
  | some bestBid =>
    cases ask : (s.bookWithoutOwnQuotes ticker book).bestAsk with
    | none =>
      rw [bid, ask] at headed
      cases headed
    | some bestAsk =>
      rw [bid, ask] at headed
      dsimp only at headed
      split at headed
      · cases headed
      next apart =>
        rw [bind_apply] at headed
        cases priced : desiredQuotes venue ticker (s.bookWithoutOwnQuotes ticker book) bestBid.priceCents
            bestAsk.priceCents (notePriced ticker book s).2 with
        | mk r u =>
          rw [priced] at headed
          cases r with
          | error stop => cases headed
          | ok desired =>
            rw [andThen_ok, bind_apply] at headed
            cases pulled : pull venue ticker desired u with
            | mk r' u' =>
              rw [pulled] at headed
              cases r' with
              | error stop => cases headed
              | ok heading =>
                cases headed
                exact ⟨bestBid, bestAsk, desired, u, rfl, rfl, not_le.mp apart, priced, pull_aim pulled⟩

theorem ownView_still : Still venue ticker (ownView (F := F) (X := X) ticker side) :=
  ⟨fun _ => rfl, fun _ => rfl, fun _ _ => rfl, fun _ _ _ => rfl⟩

theorem head_slot (side : Side) {book : LocalOrderbook} {r : Except (Stop String) (Option Heading)}
    (ran : head venue ticker book s = (r, t)) :
    ∃ aim, Pulled ticker side aim s t ∧ ∀ heading, r = .ok (some heading) → heading.aim side = aim := by
  have noted : notePriced ticker book s = (.ok (), (notePriced ticker book s).2) := rfl
  have idle : Pulled ticker side none s (notePriced ticker book s).2 := .of_ownView rfl
  unfold head at ran
  rw [bind_apply, get_apply, andThen_ok, bind_apply, noted, andThen_ok] at ran
  cases bid : (s.bookWithoutOwnQuotes ticker book).bestBid with
  | none =>
    rw [bid] at ran
    cases ran
    exact ⟨none, idle, nofun⟩
  | some bestBid =>
    cases ask : (s.bookWithoutOwnQuotes ticker book).bestAsk with
    | none =>
      rw [bid, ask] at ran
      cases ran
      exact ⟨none, idle, nofun⟩
    | some bestAsk =>
      rw [bid, ask] at ran
      dsimp only at ran
      split at ran
      · cases ran
        exact ⟨none, idle, nofun⟩
      · rw [bind_apply] at ran
        have still : Still venue ticker (ownView (F := F) (X := X) ticker side) := ownView_still
        have leads := desiredQuotes_leads (S := fun _ _ => False) still
          (s.bookWithoutOwnQuotes ticker book) bestBid.priceCents bestAsk.priceCents (notePriced ticker book s).2
        cases priced : desiredQuotes venue ticker (s.bookWithoutOwnQuotes ticker book) bestBid.priceCents
            bestAsk.priceCents (notePriced ticker book s).2 with
        | mk r₁ s₁ =>
          have same := leads.unmoved_at priced
          rw [priced] at ran
          cases r₁ with
          | error stop =>
            cases ran
            exact ⟨none, idle.trans (.of_ownView same), nofun⟩
          | ok desired =>
            rw [andThen_ok, bind_apply] at ran
            cases pulled : pull venue ticker desired s₁ with
            | mk r₂ s₂ =>
              rw [pulled] at ran
              obtain ⟨aim, after, aimed⟩ := pull_slot side pulled
              -- pricing reads the desk and leaves the slots as they are
              have looked : Pulled ticker side aim s s₂ := Pulled.trans (.of_ownView (same.trans rfl)) after
              cases r₂ with
              | error stop =>
                cases ran
                exact ⟨aim, looked, nofun⟩
              | ok heading =>
                cases ran
                refine ⟨aim, looked, fun heading headed => ?_⟩
                cases headed
                exact aimed heading rfl

/-- How the two halves of an update treat one side: it is brought to its aim, and left alone by the other's. -/
theorem bringBoth_slot (side : Side) {book : LocalOrderbook} {heading : Heading}
    (headed : head venue ticker book s = (.ok (some heading), t)) :
    (look venue ticker book s side = none ∧
      (bringBoth venue ticker (some heading) t).2.quoter.ownQuotes ticker side = t.quoter.ownQuotes ticker side) ∨
    ∃ desired u, heading.aim side = some desired ∧ look venue ticker book s side = some ⟨desired, heading.now⟩ ∧
      ownView ticker side u = ownView ticker side t ∧
      (bringBoth venue ticker (some heading) t).2.quoter.ownQuotes ticker side =
        (refresh venue (legOf side) ticker desired heading.now u).2.quoter.ownQuotes ticker side := by
  have both : bringBoth venue ticker (some heading) t =
      andThen (fun _ => bring venue ticker heading .no) (bring venue ticker heading .yes t) := rfl
  have idle : ∀ aside (u : Desk F X), heading.aim aside = none → bring venue ticker heading aside u = (.ok (), u) := by
    intro aside u absent
    unfold bring
    rw [absent]
    rfl
  have brought : ∀ aside (u : Desk F X) desired, heading.aim aside = some desired →
      bring venue ticker heading aside u = refresh venue (legOf aside) ticker desired heading.now u := by
    intro aside u desired wanted
    unfold bring
    rw [wanted]
    rfl
  unfold look
  rw [headed, both]
  dsimp only
  cases side with
  | yes =>
    -- the ask's half does not touch the bid
    have beside := ownView_beside (F := F) (X := X) ticker (show Side.yes ≠ Side.no by decide)
    have kept : (andThen (fun _ => bring venue ticker heading .no)
      (bring venue ticker heading .yes t)).2.quoter.ownQuotes
        ticker .yes = (bring venue ticker heading .yes t).2.quoter.ownQuotes ticker .yes := by
      cases ran : bring venue ticker heading .yes t with
      | mk r u =>
        cases r with
        | error stop => rfl
        | ok _ => exact congrArg Prod.snd (beside.refreshUnless venue false (heading.aim .no) heading.now u).unmoved
    rw [kept]
    unfold Heading.look
    cases wanted : heading.aim .yes with
    | none =>
      left
      rw [idle .yes t wanted]
      exact ⟨rfl, rfl⟩
    | some desired =>
      right
      exact ⟨desired, t, rfl, rfl, rfl, by rw [brought .yes t desired wanted]⟩
  | no =>
    have beside := ownView_beside (F := F) (X := X) ticker (show Side.no ≠ Side.yes by decide)
    have kept := (beside.refreshUnless venue false (heading.aim .yes) heading.now t).unmoved
    change ownView ticker .no (bring venue ticker heading .yes t).2 = _ at kept
    cases ran : bring venue ticker heading .yes t with
    | mk r u =>
      rw [ran] at kept
      cases r with
      | error stop =>
        left
        exact ⟨rfl, congrArg Prod.snd kept⟩
      | ok _ =>
        rw [andThen_ok]
        dsimp only
        unfold Heading.look
        cases wanted : heading.aim .no with
        | none =>
          left
          rw [idle .no u wanted]
          exact ⟨rfl, congrArg Prod.snd kept⟩
        | some desired =>
          right
          exact ⟨desired, u, rfl, rfl, kept, by rw [brought .no u desired wanted]⟩

variable (venue ticker) in
/-- A side that an update does not refresh is left alone or pulled. -/
theorem update_unrefreshed {book : LocalOrderbook} (unlooked : look venue ticker book s side = none) :
    (update venue ticker book s).2.quoter.ownQuotes ticker side = s.quoter.ownQuotes ticker side ∨
      (update venue ticker book s).2.quoter.ownQuotes ticker side =
        { s.quoter.ownQuotes ticker side with orderId := "" } := by
  rw [update_eq_head, bind_apply]
  cases headed : head venue ticker book s with
  | mk r t =>
    obtain ⟨aim, pulled, aimed⟩ := head_slot side headed
    have left : t.quoter.ownQuotes ticker side = s.quoter.ownQuotes ticker side ∨
        t.quoter.ownQuotes ticker side = { s.quoter.ownQuotes ticker side with orderId := "" } :=
      pulled.slot.imp_right And.right
    rcases r with stop | (_ | heading)
    · exact left
    · exact left
    · rw [andThen_ok]
      rcases bringBoth_slot side headed with ⟨_, same⟩ | ⟨_, _, _, looked, _⟩
      · rw [same]
        exact left
      · rw [unlooked] at looked
        cases looked

variable (venue ticker) in
/-- A side that an update refreshes starts from its slot as it was. -/
theorem update_refreshed {book : LocalOrderbook} {seen : Look} (looked : look venue ticker book s side = some seen) :
    (s.quoter.ownQuotes ticker side).Refreshed s.quoter.config (legOf side) seen
      ((update venue ticker book s).2.quoter.ownQuotes ticker side) := by
  rw [update_eq_head, bind_apply]
  cases headed : head venue ticker book s with
  | mk r t =>
    obtain ⟨aim, pulled, aimed⟩ := head_slot side headed
    rcases r with stop | (_ | heading)
    · unfold look at looked
      rw [headed] at looked
      cases looked
    · unfold look at looked
      rw [headed] at looked
      cases looked
    · rw [andThen_ok]
      rcases bringBoth_slot side headed with ⟨unlooked, _⟩ | ⟨desired, u, wanted, refreshed, same, after⟩
      · rw [unlooked] at looked
        cases looked
      · rw [looked] at refreshed
        cases refreshed
        have aims := aimed heading rfl
        rw [wanted] at aims
        -- with an aim the side was not pulled before
        have stood : t.quoter.ownQuotes ticker side = s.quoter.ownQuotes ticker side := by
          rcases pulled.slot with same | ⟨absent, _⟩
          · exact same
          · rw [← aims] at absent
            cases absent
        have spec := refresh_slot venue ticker side desired heading.now u
        rw [← after, show u.quoter.ownQuotes ticker side = s.quoter.ownQuotes ticker side from
          (congrArg Prod.snd same).trans stood, show u.quoter.config = s.quoter.config from
          (congrArg Prod.fst same).trans pulled.config] at spec
        exact spec

/-- An update of one market leaves the quotes of another alone. -/
theorem update_other (venue : Venue X) {market : Ticker} (other : market ≠ ticker) (book : LocalOrderbook)
    (s : Desk F X) : (update venue market book s).2.quoter.config = s.quoter.config ∧
      (update venue market book s).2.quoter.ownQuotes ticker = s.quoter.ownQuotes ticker := by
  let view := fun s : Desk F X => (s.quoter.config, s.quoter.ownQuotes ticker)
  have beside : ∀ aside, Beside market aside view := by
    intro aside
    refine ⟨fun s slot => ?_, fun _ _ => rfl, fun _ _ _ => rfl, fun _ _ => rfl⟩
    simp only [view, setSlot, Function.update_of_ne other.symm]
  have moves : Moves venue market view fun _ _ => False :=
    { steady := fun _ => rfl
      system := fun _ => rfl
      ema := fun _ _ => rfl
      emit := fun _ _ _ => rfl
      fade := fun aside _ s => (beside aside).slot s _
      enter := fun {aside desired now s} _ => (beside aside).enter venue desired now s
      amend := fun {aside desired now crossing s} _ => (beside aside).amendInPlace venue desired now crossing s
      release := fun aside s => (beside aside).releaseSlot venue s }
  have same : view (update venue market book s).2 = view s := chain_unmoved (update_moves moves book s)
  exact ⟨congrArg Prod.fst same, congrArg Prod.snd same⟩

end

end Quoter

/-! ### Between two updates of a market -/

/-- A slot is left alone, emptied, or forgotten whole. -/
def QuoteSlot.Forgets (slot slot' : QuoteSlot) : Prop :=
  slot' = slot ∨ slot' = { slot with orderId := "" } ∨ slot' = {}

/-- What happens between two updates of a market: the other operations of the quoter, and anything that leaves its
configuration and its quotes alone. -/
inductive Desk.Aside (venue : Venue X) (ticker : Ticker) (s : Desk F X) : Desk F X → Prop where
  | update {market : Ticker} (other : market ≠ ticker) (book : LocalOrderbook) :
      Aside venue ticker s (Quoter.update venue market book s).2
  | forgetOrder (market : Ticker) (orderId : OrderId) :
      Aside venue ticker s { s with quoter := s.quoter.forgetOrder market orderId }
  | forgetTicker (market : Ticker) : Aside venue ticker s { s with quoter := s.quoter.forgetTicker market }
  | resetQuotes : Aside venue ticker s { s with quoter := s.quoter.resetQuotes }
  | elsewhere {s' : Desk F X} (config : s'.quoter.config = s.quoter.config)
      (quotes : s'.quoter.ownQuotes = s.quoter.ownQuotes) : Aside venue ticker s s'

namespace Desk.Aside

variable {venue : Venue X} {ticker : Ticker} {s s' : Desk F X}

theorem config (aside : s.Aside venue ticker s') : s'.quoter.config = s.quoter.config := by
  cases aside with
  | update other book => exact (Quoter.update_other venue other book s).1
  | forgetOrder | forgetTicker | resetQuotes => rfl
  | elsewhere config _ => exact config

/-- Between two updates of a market a quote of it can only be forgotten. -/
theorem forgets (aside : s.Aside venue ticker s') (side : Side) :
    (s.quoter.ownQuotes ticker side).Forgets (s'.quoter.ownQuotes ticker side) := by
  cases aside with
  | update other book => exact .inl (congrFun (Quoter.update_other venue other book s).2 side)
  -- forgetting an order empties the slot that names it, if any
  | forgetOrder market orderId =>
    unfold Quoter.forgetOrder
    by_cases here : ticker = market
    · subst here
      simp only [Function.update_self]
      split
      · exact .inr (.inl rfl)
      · exact .inl rfl
    · simp only [Function.update_of_ne here]
      exact .inl rfl
  | forgetTicker market =>
    unfold Quoter.forgetTicker
    by_cases here : ticker = market
    · subst here
      simp only [Function.update_self]
      exact .inr (.inr rfl)
    · simp only [Function.update_of_ne here]
      exact .inl rfl
  | resetQuotes => exact .inr (.inr rfl)
  | elsewhere _ quotes =>
    rw [quotes]
    exact .inl rfl

/-- A quote that is live afterwards is the one there was. -/
theorem live (aside : s.Aside venue ticker s') {side : Side} (held : (s'.quoter.ownQuotes ticker side).orderId ≠ "") :
    s'.quoter.ownQuotes ticker side = s.quoter.ownQuotes ticker side := by
  rcases aside.forgets side with same | emptied | forgotten
  · exact same
  · exact absurd (congrArg QuoteSlot.orderId emptied) held
  · exact absurd (congrArg QuoteSlot.orderId forgotten) held

end Desk.Aside

end Kalshi
