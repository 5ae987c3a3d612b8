import KalshiMaker.Strategy.DesiredQuotes
import KalshiMaker.Strategy.Twins

/-! The calls of an update, and what it stops with. -/
namespace Kalshi

open Effect Eff Desk

variable {F X : Type} [Floating F]

namespace Quoter

/-- The calls stay within `P`, unless an exception leaves them within `E`. -/
def Records {α : Type} (P E : List (Entry F) → Prop) (m : Eff (Desk F X) String α) (s : Desk F X) : Prop :=
  P s.calls → Leaves (fun _ t => P t.calls)
    (fun stop t => P t.calls ∨ (∃ what, stop = .exception what) ∧ E t.calls) m s

variable {P E : List (Entry F) → Prop}

theorem Records.bind {α β : Type} {m : Eff (Desk F X) String α} {k : α → Eff (Desk F X) String β} {s : Desk F X}
    (first : Records P E m s) (rest : ∀ a t, Records P E (k a) t) : Records P E (m >>= k) s :=
  fun within => Leaves.bind ((first within).mono (fun a t => rest a t) fun _ _ stopped => stopped)

theorem Records.ite {α : Type} {c : Prop} [Decidable c] {m n : Eff (Desk F X) String α} {s : Desk F X}
    (yes : Records P E m s) (no : Records P E n s) : Records P E (if c then m else n) s :=
  fun within => Leaves.ite (fun _ => yes within) fun _ => no within

/-- What makes no call records nothing. -/
theorem Records.quiet {α : Type} {m : Eff (Desk F X) String α} {s : Desk F X} (same : (m s).2.calls = s.calls) :
    Records P E m s := by
  intro within
  rw [← same] at within
  exact Leaves.of_state (fun _ => within) fun _ => .inl within

variable (venue : Venue X) (ticker : Ticker)

/-- Each of the quoter's requests on a market records within `P` and `E`. -/
structure Requests (P E : List (Entry F) → Prop) : Prop where
  enter : ∀ (side : Side) (desired : Int) (now : TimePoint) (s : Desk F X),
    Records P E (enter venue (legOf side) ticker desired now) s
  amend : ∀ (side : Side) (desired : Int) (now : TimePoint) (crossing : Bool) (s : Desk F X),
    Records P E (amendInPlace venue (legOf side) ticker desired now crossing) s
  release : ∀ (side : Side) (s : Desk F X), Records P E (releaseSlot venue ticker side) s

variable {venue ticker}

theorem Requests.refresh (requests : Requests venue ticker P E) (side : Side) (desired : Int) (now : TimePoint)
    (s : Desk F X) : Records P E (refresh venue (legOf side) ticker desired now) s := by
  have carried : ∀ crossing choice, Records P E (carryOut venue side ticker desired now crossing choice) s := by
    intro crossing choice
    cases choice with
    | enter => exact Records.ite (Records.quiet rfl) (requests.enter side desired now s)
    | keep => exact Records.quiet rfl
    | flag => exact Records.quiet rfl
    | wait adverse => exact Records.ite (Records.quiet rfl) (Records.quiet rfl)
    | reprice =>
      refine Records.bind (Records.quiet rfl) fun _ s₁ => ?_
      refine Records.bind (requests.amend side desired now crossing s₁) fun amended s₂ => ?_
      refine Records.ite (Records.quiet rfl) ?_
      rw [legOf_side]
      refine Records.bind (requests.release side s₂) fun released s₃ => ?_
      exact Records.ite (Records.ite (Records.quiet rfl) (requests.enter side desired now s₃)) (Records.quiet rfl)
  have same := refresh_choice venue side ticker desired now s
  intro within
  unfold Leaves
  rw [same]
  exact carried _ _ within

theorem Requests.releaseSuppressed (requests : Requests venue ticker P E) (side : Side) (suppressed : Bool)
    (s : Desk F X) : Records P E (releaseSuppressed venue (legOf side) ticker suppressed) s := by
  unfold Quoter.releaseSuppressed
  rw [legOf_side]
  refine Records.bind (Records.quiet rfl) fun _ s₁ => Records.ite ?_ (Records.quiet rfl)
  exact Records.bind (requests.release side s₁) fun _ s₂ => Records.quiet rfl

theorem Requests.refreshUnless (requests : Requests venue ticker P E) (suppressed : Bool) (side : Side)
    (target : Option Int) (now : TimePoint) (s : Desk F X) :
    Records P E (refreshUnless venue suppressed (legOf side) ticker target now) s := by
  cases target with
  | none => exact Records.quiet rfl
  | some desired => exact Records.ite (Records.quiet rfl) (requests.refresh side desired now s)

theorem Requests.applyQuotes (requests : Requests venue ticker P E) (inventory : F)
    (desiredBid desiredAsk : Option Int)
    (s : Desk F X) : Records P E (applyQuotes venue ticker inventory desiredBid desiredAsk) s := by
  unfold Quoter.applyQuotes
  refine Records.bind (Records.quiet rfl) fun now s₁ => ?_
  refine Records.bind (Records.quiet rfl) fun _ s₂ => ?_
  refine Records.bind (requests.releaseSuppressed .yes _ s₂) fun _ s₃ => ?_
  refine Records.bind (requests.releaseSuppressed .no _ s₃) fun _ s₄ => ?_
  refine Records.bind (requests.refreshUnless _ .yes desiredBid now s₄) fun _ s₅ => ?_
  exact requests.refreshUnless _ .no desiredAsk now s₅

theorem Requests.update (requests : Requests venue ticker P E) (book : LocalOrderbook) (s : Desk F X) :
    Records P E (update venue ticker book) s := by
  have still : Still venue ticker (fun s : Desk F X => s.calls) :=
    ⟨fun _ => rfl, fun _ => rfl, fun _ _ => rfl, fun _ _ _ => rfl⟩
  have priced : ∀ (visible : LocalOrderbook) (marketBid marketAsk : Int) (s : Desk F X),
      (desiredQuotes venue ticker visible marketBid marketAsk s).2.calls = s.calls :=
    fun visible marketBid marketAsk s => Leads.unmoved (desiredQuotes_leads still visible marketBid marketAsk s)
  unfold Quoter.update
  refine Records.bind (Records.quiet rfl) fun s₀ s₁ => ?_
  refine Records.bind (Records.quiet rfl) fun _ s₂ => ?_
  split
  · refine Records.ite (Records.quiet rfl) ?_
    refine Records.bind (Records.quiet (priced _ _ _ _)) fun wanted s₃ => ?_
    exact requests.applyQuotes _ _ _ s₃
  · exact Records.quiet rfl

/-! ### Rejections -/

end Quoter

/-- An order that was placed and not accepted. -/
def Call.refused : Call F → Bool
  | .place _ _ _ _ none => true
  | _ => false

/-- The calls after some that they grow from, none of them a refused order. -/
def Unrefused (start calls : List (Entry F)) : Prop :=
  ∃ later, calls = start ++ later ∧ ∀ entry ∈ later, entry.call.refused = false

/-- The last call is a refused order, and the only one. -/
def LastRefused (start calls : List (Entry F)) : Prop :=
  ∃ later entry, calls = start ++ later ++ [entry] ∧ entry.call.refused = true ∧
    ∀ entry ∈ later, entry.call.refused = false

omit [Floating F] in
theorem Unrefused.call {start calls : List (Entry F)} (unrefused : Unrefused start calls) {entry : Entry F}
    (passed : entry.call.refused = false) : Unrefused start (calls ++ [entry]) := by
  obtain ⟨later, rfl, silent⟩ := unrefused
  refine ⟨later ++ [entry], List.append_assoc _ _ _, fun other member => ?_⟩
  rcases List.mem_append.mp member with earlier | last
  · exact silent other earlier
  · rw [List.mem_singleton.mp last]
    exact passed

omit [Floating F] in
theorem Unrefused.refuse {start calls : List (Entry F)} (unrefused : Unrefused start calls) {entry : Entry F}
    (refused : entry.call.refused = true) : LastRefused start (calls ++ [entry]) := by
  obtain ⟨later, rfl, silent⟩ := unrefused
  exact ⟨later, entry, rfl, refused, silent⟩

namespace Quoter

variable (venue : Venue X) (ticker : Ticker)

/-- A refused order throws. -/
theorem refused_requests (start : List (Entry F)) : Requests venue ticker (Unrefused start) (LastRefused start) where
  enter side desired now s within := by
    unfold Quoter.enter
    rw [legOf_side]
    refine Leaves.bind (Leaves.of_run rfl (Leaves.ite (fun _ => Leaves.bind ?_) fun _ => Leaves.of_run rfl within))
    rcases OrderManager.place_cases venue ticker side ((legOf side).orderPrice desired) s.quoter.config.quoteSize s
      with ⟨what, ran⟩ | ⟨order, x, ran, _⟩ | ⟨what, x, ran⟩
    · unfold Leaves
      rw [ran]
      exact .inl within
    · exact Leaves.of_run ran (Leaves.of_run rfl (within.call rfl))
    · unfold Leaves
      rw [ran]
      exact .inr ⟨⟨what, rfl⟩, within.refuse rfl⟩
  amend side desired now crossing s within := by
    unfold Quoter.amendInPlace
    rw [legOf_side]
    refine Leaves.bind (Leaves.of_run rfl (Leaves.ite (fun _ => Leaves.bind ?_) fun _ => Leaves.of_run rfl within))
    rcases OrderManager.amend_cases venue (s.quoter.ownQuotes ticker side).orderId ticker side
      ((legOf side).orderPrice desired) (Quantity.fromContracts s.quoter.config.quoteSize) s
      with ⟨newId, x, ran⟩ | ⟨x, ran⟩ | ⟨what, x, ran⟩
    · exact Leaves.of_run ran (Leaves.bind (Leaves.of_run rfl (Leaves.of_run rfl (within.call rfl))))
    · exact Leaves.of_run ran (Leaves.of_run rfl (within.call rfl))
    · unfold Leaves
      rw [ran]
      exact .inl (within.call rfl)
  release side s within := by
    unfold Quoter.releaseSlot Quoter.releaseOrder
    refine Leaves.bind (Leaves.of_run rfl (Leaves.bind (Leaves.bind ?_)))
    -- a cancel that is refused without an exception is no refusal of a write here
    have cleared : ∀ (released : Bool) (t : Desk F X), Unrefused start t.calls →
        Leaves (fun _ t => Unrefused start t.calls)
          (fun stop t => Unrefused start t.calls ∨ (∃ what, stop = .exception what) ∧ LastRefused start t.calls)
          (do if released then do
                clearSlot ticker side
                pure true
              else pure false : Eff (Desk F X) String Bool) t := by
      intro released t within
      cases released with
      | true => exact Leaves.bind (Leaves.of_run rfl (Leaves.of_run rfl within))
      | false => exact Leaves.of_run rfl within
    rcases OrderManager.cancel_cases venue (s.quoter.ownQuotes ticker side).orderId s
      with ⟨x, ran⟩ | ⟨x, ran⟩ | ⟨what, x, ran⟩
    · exact Leaves.of_run ran (Leaves.of_run rfl (cleared _ _ (within.call rfl)))
    · exact Leaves.of_run ran (Leaves.bind (Leaves.of_run rfl (Leaves.of_run rfl (cleared _ _ (within.call rfl)))))
    · unfold Leaves
      rw [ran]
      exact .inl (within.call rfl)

/-- An update makes no call after an order of it is refused, and throws. -/
theorem update_refused (book : LocalOrderbook) (s : Desk F X) :
    Unrefused s.calls (update venue ticker book s).2.calls ∨
      (∃ what, (update venue ticker book s).1 = .error (.exception what)) ∧
        LastRefused s.calls (update venue ticker book s).2.calls := by
  have ran := (refused_requests venue ticker s.calls).update book s
    ⟨[], (List.append_nil _).symm, fun _ member => by cases member⟩
  unfold Leaves at ran
  cases updated : update venue ticker book s with
  | mk r t =>
    rw [updated] at ran
    cases r with
    | ok _ => exact .inl ran
    | error stop =>
      rcases ran with unrefused | ⟨⟨what, rfl⟩, last⟩
      · exact .inl unrefused
      · exact .inr ⟨⟨what, rfl⟩, last⟩

end Quoter

end Kalshi
