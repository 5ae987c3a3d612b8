import KalshiMaker.Properties.InventoryBrake
import KalshiMaker.Strategy.SlotMoves

/-! What the exchange grants of an update, and what becomes of a side whose turn it is to move. -/
namespace Kalshi

open Effect Eff Desk Quoter Relation

variable {F X : Type} [Floating F]

/-! ### What the exchange grants -/

/-- The side of a market on which the exchange lets an order rest, placed or amended. -/
def Call.restsOn : Call F → Option (Ticker × Side)
  | .place ticker side _ _ (some _) => some (ticker, side)
  | .amend _ ticker side _ _ (some _) => some (ticker, side)
  | .place _ _ _ _ none | .amend _ _ _ _ _ none | .cancel _ _ | .recordFill _ _ => none

omit [Floating F] in
theorem Call.restsOn_quoted {call : Call F} {ticker : Ticker} {side : Side}
    (rests : call.restsOn = some (ticker, side)) :
    ∃ price, call.quoted = some (ticker, side, price) := by
  cases call with
  | place market leg price quantity placed =>
    cases placed with
    | none => cases rests
    | some id =>
      cases rests
      exact ⟨_, rfl⟩
  | amend orderId market leg price count newId =>
    cases newId with
    | none => cases rests
    | some id =>
      cases rests
      exact ⟨_, rfl⟩
  | cancel orderId success => cases rests
  | recordFill fill new => cases rests

/-- An order was placed or amended on a side of a market. -/
def Granted (ticker : Ticker) (side : Side) (calls : List (Entry F)) : Prop :=
  ∃ entry ∈ calls, entry.call.restsOn = some (ticker, side)

instance (ticker : Ticker) (side : Side) (calls : List (Entry F)) : Decidable (Granted ticker side calls) :=
  inferInstanceAs (Decidable (∃ entry ∈ calls, _))

omit [Floating F] in
theorem granted_append {ticker : Ticker} {side : Side} {earlier later : List (Entry F)} :
    Granted ticker side (earlier ++ later) ↔ Granted ticker side earlier ∨ Granted ticker side later := by
  simp only [Granted, List.mem_append, or_and_right, exists_or]

omit [Floating F] in
theorem granted_singleton {ticker : Ticker} {side : Side} {entry : Entry F} :
    Granted ticker side [entry] ↔ entry.call.restsOn = some (ticker, side) := by
  simp only [Granted, List.mem_singleton, exists_eq_left]

/-- A side ends up empty, at the price aimed at where an order was granted, and as it was where none was. -/
structure SideOutcome (aim : Aim) (ticker : Ticker) (side : Side) (u v : Posture F)
    (calls : List (Entry F)) : Prop where
  moved : Granted ticker side calls →
    (v.ledger.slots ticker side).1 = "" ∨ aim side = some (v.ledger.slots ticker side).2
  stayed : ¬ Granted ticker side calls →
    (v.ledger.slots ticker side).1 = "" ∨ v.ledger.slots ticker side = u.ledger.slots ticker side

theorem Request.outcome {venue : Venue X} {aim : Aim} {ticker : Ticker} {aside : Side} {u v : Posture F}
    (request : Request venue aim ticker aside u v) (side : Side) :
    ∃ entry, v.ledger.calls = u.ledger.calls ++ [entry] ∧ SideOutcome aim ticker side u v [entry] := by
  -- the three ways a request can leave this side: untouched, filled, emptied
  have quiet : ∀ {v : Posture F} {entry : Entry F}, entry.call.restsOn = none →
      v.ledger.slots ticker side = u.ledger.slots ticker side → SideOutcome aim ticker side u v [entry] := by
    intro v entry silent same
    refine ⟨fun granted => ?_, fun _ => .inr same⟩
    rw [granted_singleton, silent] at granted
    cases granted
  have filled : ∀ {v : Posture F} {entry : Entry F} {desired : Int} {id : OrderId},
      entry.call.restsOn = some (ticker, aside) → aim aside = some desired →
      (∀ side, v.ledger.slots ticker side = if ticker = ticker ∧ side = aside then (id, desired)
        else u.ledger.slots ticker side) → SideOutcome aim ticker side u v [entry] := by
    intro v entry desired id rests wanted slots
    by_cases own : side = aside
    · subst own
      refine ⟨fun _ => .inr ?_, fun unmoved => absurd (granted_singleton.mpr rests) unmoved⟩
      rw [slots side, if_pos ⟨rfl, rfl⟩]
      exact wanted
    · refine ⟨fun granted => ?_, fun _ => .inr (by rw [slots side, if_neg fun here => own here.2])⟩
      rw [granted_singleton, rests] at granted
      cases granted
      exact absurd rfl own
  have emptied : ∀ {v : Posture F} {entry : Entry F}, entry.call.restsOn = none →
      (∀ side, v.ledger.slots ticker side = if ticker = ticker ∧
        side = aside then ("", (u.ledger.slots ticker aside).2)
        else u.ledger.slots ticker side) → SideOutcome aim ticker side u v [entry] := by
    intro v entry silent slots
    by_cases own : side = aside
    · have empty : (v.ledger.slots ticker side).1 = "" := by rw [slots side, if_pos ⟨rfl, own⟩]
      exact ⟨fun _ => .inl empty, fun _ => .inl empty⟩
    · exact quiet silent (by rw [slots side, if_neg fun here => own here.2])
  cases request with
  | placed wanted _ _ _ _ _ _ _ _ _ =>
    exact ⟨_, rfl, filled rfl wanted fun side => Ledger.setSlot_slots _ _ _ _ _ _⟩
  | amended wanted _ _ _ => exact ⟨_, rfl, filled rfl wanted fun side => Ledger.setSlot_slots _ _ _ _ _ _⟩
  | placeFailed _ _ _ _ => exact ⟨_, rfl, quiet rfl rfl⟩
  | amendFailed _ _ _ _ => exact ⟨_, rfl, quiet rfl rfl⟩
  | kept => exact ⟨_, rfl, quiet rfl rfl⟩
  | released => exact ⟨_, rfl, emptied rfl fun side => Ledger.setSlot_slots _ _ _ _ _ _⟩
  | forgotten _ => exact ⟨_, rfl, emptied rfl fun side => Ledger.setSlot_slots _ _ _ _ _ _⟩

theorem requests_outcome {venue : Venue X} {aim : Aim} {ticker : Ticker} {u v : Posture F}
    (chain : ReflTransGen (fun u v => ∃ side, Request venue aim ticker side u v) u v) (side : Side) :
    ∃ later, v.ledger.calls = u.ledger.calls ++ later ∧ SideOutcome aim ticker side u v later := by
  induction chain with
  | refl =>
    refine ⟨[], (List.append_nil _).symm, ?_, fun _ => .inr rfl⟩
    rintro ⟨_, member, _⟩
    cases member
  | @tail v w _ step ih =>
    obtain ⟨aside, request⟩ := step
    obtain ⟨later, calls, before⟩ := ih
    obtain ⟨entry, added, last⟩ := request.outcome side
    refine ⟨later ++ [entry], by rw [added, calls, List.append_assoc], ?_, ?_⟩
    · intro granted
      -- the last request that rests an order decides; one that rests none leaves what was there or nothing
      by_cases moves : Granted ticker side [entry]
      · exact last.moved moves
      · have earlier := (granted_append.mp granted).resolve_right moves
        rcases last.stayed moves with empty | same
        · exact .inl empty
        · rw [same]
          exact before.moved earlier
    · intro unmoved
      rw [granted_append, not_or] at unmoved
      rcases last.stayed unmoved.2 with empty | same
      · exact .inl empty
      · rw [same]
        exact before.stayed unmoved.1

/-! ### What becomes of a side that is due -/

namespace Desk

/-- Between two states the exchange let an order rest on the side or did not heed a cancel. -/
def Answered (ticker : Ticker) (side : Side) (u v : Desk F X) : Prop :=
  ∃ later, v.calls = u.calls ++ later ∧
    ∃ entry ∈ later, entry.call.restsOn = some (ticker, side) ∨ entry.call.unheeded = true

theorem Answered.after {ticker : Ticker} {side : Side} {u v w : Desk F X} (answered : v.Answered ticker side w)
    (before : u.calls <+: v.calls) : u.Answered ticker side w := by
  obtain ⟨later, calls, entry, member, answer⟩ := answered
  obtain ⟨earlier, grown⟩ := before
  refine ⟨earlier ++ later, by rw [calls, ← grown, List.append_assoc], entry, ?_, answer⟩
  exact List.mem_append_right earlier member

theorem Answered.before {ticker : Ticker} {side : Side} {u v w : Desk F X} (answered : u.Answered ticker side v)
    (after : v.calls <+: w.calls) : u.Answered ticker side w := by
  obtain ⟨later, calls, entry, member, answer⟩ := answered
  obtain ⟨rest, grown⟩ := after
  refine ⟨later ++ rest, by rw [← grown, calls, List.append_assoc], entry, ?_, answer⟩
  exact List.mem_append_left rest member

theorem Answered.last {ticker : Ticker} {side : Side} {u v : Desk F X} {entry : Entry F}
    (added : v.calls = u.calls ++ [entry])
    (answer : entry.call.restsOn = some (ticker, side) ∨ entry.call.unheeded = true) : u.Answered ticker side v :=
  ⟨[entry], added, entry, List.mem_singleton.mpr rfl, answer⟩

end Desk

namespace Quoter

variable (venue : Venue X) (ticker : Ticker) (side : Side)

theorem enter_answered (desired : Int) (now : TimePoint) (s : Desk F X)
    (empty : (s.quoter.ownQuotes ticker side).orderId = "")
    (live : ((enter venue (legOf side) ticker desired now s).2.quoter.ownQuotes ticker side).orderId ≠ "") :
    s.Answered ticker side (enter venue (legOf side) ticker desired now s).2 := by
  unfold enter at live ⊢
  rw [bind_apply, get_apply, andThen_ok, legOf_side] at live ⊢
  split at live
  next passed =>
    rw [if_pos passed]
    rw [bind_apply] at live ⊢
    rcases OrderManager.place_cases venue ticker side ((legOf side).orderPrice desired) s.quoter.config.quoteSize s
      with ⟨what, ran⟩ | ⟨order, x, ran, _⟩ | ⟨what, x, ran⟩
    · rw [ran] at live
      exact absurd empty live
    · rw [ran]
      exact .last rfl (.inl rfl)
    · rw [ran] at live
      exact absurd empty live
  next => exact absurd empty live

/-- An amend that is not granted leaves nothing but calls behind. -/
theorem amendInPlace_answered (desired : Int) (now : TimePoint) (crossing : Bool) (s : Desk F X) :
    (∃ t, amendInPlace venue (legOf side) ticker desired now crossing s = (.ok true, t) ∧
      s.Answered ticker side t) ∨
    ∃ r t, amendInPlace venue (legOf side) ticker desired now crossing s = (r, t) ∧ r ≠ .ok true ∧
      s.calls <+: t.calls := by
  unfold amendInPlace
  rw [bind_apply, get_apply, andThen_ok, legOf_side]
  split
  next permitted =>
    rw [bind_apply]
    rcases OrderManager.amend_cases venue (s.quoter.ownQuotes ticker side).orderId ticker side
      ((legOf side).orderPrice desired) (Quantity.fromContracts s.quoter.config.quoteSize) s
      with ⟨newId, x, ran⟩ | ⟨x, ran⟩ | ⟨what, x, ran⟩
    · rw [ran]
      exact .inl ⟨_, rfl, .last rfl (.inl rfl)⟩
    · rw [ran]
      exact .inr ⟨_, _, rfl, nofun, List.prefix_append _ _⟩
    · rw [ran]
      exact .inr ⟨_, _, rfl, nofun, List.prefix_append _ _⟩
  next => exact .inr ⟨_, _, rfl, nofun, List.prefix_rfl⟩

theorem releaseSlot_grows (s : Desk F X) : s.calls <+: (releaseSlot venue ticker side s).2.calls := by
  unfold releaseSlot releaseOrder
  rw [bind_apply, get_apply, andThen_ok, bind_apply, bind_apply]
  rcases OrderManager.cancel_cases venue (s.quoter.ownQuotes ticker side).orderId s
    with ⟨x, ran⟩ | ⟨x, ran⟩ | ⟨what, x, ran⟩
  · rw [ran]
    exact List.prefix_append _ _
  · rw [ran]
    simp only [andThen_ok, Bool.false_eq_true, ↓reduceIte, bind_apply, get_apply, pure_apply]
    split <;> exact List.prefix_append _ _
  · rw [ran]
    exact List.prefix_append _ _

/-- An order that is still there after a reprice has been granted anew, or its cancel was not heeded. -/
theorem reprice_answered (desired : Int) (now : TimePoint) (crossing : Bool) (s : Desk F X)
    (returned : (reprice venue (legOf side) ticker desired now crossing s).1 = .ok ())
    (live : ((reprice venue (legOf side) ticker desired now crossing s).2.quoter.ownQuotes ticker side).orderId ≠ "") :
    s.Answered ticker side (reprice venue (legOf side) ticker desired now crossing s).2 := by
  have unfolded : reprice venue (legOf side) ticker desired now crossing s =
      andThen (fun amended => if amended then pure () else do
        if ← releaseSlot venue ticker side then
          if crossing then pure () else enter venue (legOf side) ticker desired now
        else pure ()) (amendInPlace venue (legOf side) ticker desired now crossing s) := by
    simp only [reprice, legOf_side]
    rfl
  rw [unfolded] at returned live ⊢
  -- an amend that is not granted falls back on the cancel, and the cancel on a new order
  rcases amendInPlace_answered venue ticker side desired now crossing s with ⟨t, ran, answered⟩ |
    ⟨r, t, ran, refused, grown⟩
  · rw [ran]
    exact answered
  · rw [ran] at returned live ⊢
    rcases r with stop | (_ | _)
    · cases returned
    · rw [andThen_ok, if_neg Bool.false_ne_true, bind_apply] at returned live ⊢
      have kept := releaseSlot_kept venue ticker side t
      have grows := releaseSlot_grows venue ticker side t
      cases released : releaseSlot venue ticker side t with
      | mk r u =>
        rw [released] at returned live kept grows
        rcases r with stop | (_ | _)
        · cases returned
        · obtain ⟨id, unheeded⟩ := kept fun same => by cases same
          exact (Answered.last unheeded (.inr rfl)).after grown
        · have empty := releaseSlot_vacant venue released
          rw [andThen_ok, if_pos rfl] at returned live ⊢
          cases crossing with
          | true => exact absurd empty live
          | false =>
            rw [if_neg Bool.false_ne_true] at returned live ⊢
            exact (enter_answered venue ticker side desired now u empty live).after (grown.trans grows)
    · exact absurd rfl refused

/-- A side whose refresh is due and returns is answered, unless it ends up empty. -/
theorem refresh_answered {desired price : Int} {now : TimePoint} {s : Desk F X}
    (due : dueAt s.quoter.config (legOf side) (s.quoter.ownQuotes ticker side) ⟨desired, now⟩ = some price)
    (returned : (refresh venue (legOf side) ticker desired now s).1 = .ok ())
    (live : ((refresh venue (legOf side) ticker desired now s).2.quoter.ownQuotes ticker side).orderId ≠ "") :
    s.Answered ticker side (refresh venue (legOf side) ticker desired now s).2 := by
  rw [refresh_choice] at returned live ⊢
  unfold dueAt at due
  cases chosen : choice s.quoter.config (legOf side) (s.quoter.ownQuotes ticker side) desired now with
  | enter =>
    have empty : (s.quoter.ownQuotes ticker side).orderId = "" := choice_enter chosen
    rw [chosen] at live
    unfold carryOut at live ⊢
    cases crossing : wouldCross s ticker side desired with
    | true =>
      rw [crossing] at live
      exact absurd empty live
    | false =>
      rw [crossing] at live
      exact enter_answered venue ticker side desired now s empty live
  | reprice =>
    rw [chosen] at returned live
    exact reprice_answered venue ticker side desired now _ (setFadePending ticker side false s).2 returned live
  | keep | flag | wait adverse =>
    rw [chosen] at due
    cases due

variable {venue ticker side}

/-- The calls of an update up to its first refresh come after those before it. -/
theorem head_grows {book : LocalOrderbook} {s t : Desk F X} {r : Except (Stop String) (Option Heading)}
    (ran : head venue ticker book s = (r, t)) : s.calls <+: t.calls := by
  have still : Still venue ticker (fun s : Desk F X => s.calls) :=
    ⟨fun _ => rfl, fun _ => rfl, fun _ _ => rfl, fun _ _ _ => rfl⟩
  have pulls : ∀ side suppressed (s : Desk F X), Leads (fun s : Desk F X => s.calls) (· <+: ·)
      (releaseSuppressed venue (legOf side) ticker suppressed) s :=
    fun side suppressed s => Leads.single (releaseSuppressed_grows venue ticker side suppressed s)
  have leads : Leads (fun s : Desk F X => s.calls) (· <+: ·) (head venue ticker book) s := by
    -- pricing calls nothing; what is called before a refresh is to pull a side that must not trade
    unfold head
    refine Leads.bind (Leads.quiet rfl) fun s₀ s₁ _ => ?_
    refine Leads.bind (Leads.quiet rfl) fun _ s₂ _ => ?_
    split
    · refine Leads.ite (fun _ => Leads.quiet rfl) fun _ => ?_
      refine Leads.bind (desiredQuotes_leads still _ _ _ s₂) fun desired s₃ _ => ?_
      refine Leads.bind ?_ fun heading s₄ _ => Leads.quiet rfl
      unfold pull
      refine Leads.bind (Leads.quiet rfl) fun now s₅ _ => ?_
      refine Leads.bind (Leads.quiet rfl) fun _ s₆ _ => ?_
      refine Leads.bind (pulls .yes _ s₆) fun _ s₇ _ => ?_
      exact Leads.bind (pulls .no _ s₇) fun _ s₈ _ => Leads.quiet rfl
    · exact Leads.quiet rfl
  have grown := chain_invariant (s.calls <+: ·) (fun _ _ step before => before.trans step) leads List.prefix_rfl
  rw [ran] at grown
  exact grown

/-- The two refreshes of an update answer a side that is due. -/
theorem bringBoth_answered {heading : Heading} {desired price : Int} {t : Desk F X}
    (aimed : heading.aim side = some desired)
    (due : dueAt t.quoter.config (legOf side) (t.quoter.ownQuotes ticker side) ⟨desired, heading.now⟩ = some price)
    (returned : (bringBoth venue ticker (some heading) t).1 = .ok ())
    (live : ((bringBoth venue ticker (some heading) t).2.quoter.ownQuotes ticker side).orderId ≠ "") :
    t.Answered ticker side (bringBoth venue ticker (some heading) t).2 := by
  have both : bringBoth venue ticker (some heading) t =
      andThen (fun _ => bring venue ticker heading .no) (bring venue ticker heading .yes t) := rfl
  have brought : ∀ u : Desk F X, bring venue ticker heading side u =
      refresh venue (legOf side) ticker desired heading.now u := by
    intro u
    unfold bring
    rw [aimed]
    rfl
  have firstGrows : t.calls <+: (bring venue ticker heading .yes t).2.calls :=
    refreshUnless_grows venue ticker false .yes (heading.aim .yes) heading.now t
  rw [both] at returned live ⊢
  cases ran : bring venue ticker heading .yes t with
  | mk r u =>
    rw [ran] at returned live firstGrows
    cases r with
    | error stop => cases returned
    | ok _ =>
      rw [andThen_ok] at returned live ⊢
      cases side with
      | yes =>
        -- the ask's refresh leaves the bid and only adds calls
        have beside := ownView_beside (F := F) (X := X) ticker (show Side.yes ≠ Side.no by decide)
        have kept : (bring venue ticker heading .no u).2.quoter.ownQuotes ticker .yes =
            u.quoter.ownQuotes ticker .yes :=
          congrArg Prod.snd (beside.refreshUnless venue false (heading.aim .no) heading.now u).unmoved
        have answered := refresh_answered venue ticker .yes due (by rw [← brought, ran]) (by
          rw [← brought, ran, ← kept]
          exact live)
        rw [← brought, ran] at answered
        exact answered.before (refreshUnless_grows venue ticker false .no (heading.aim .no) heading.now u)
      | no =>
        have beside := ownView_beside (F := F) (X := X) ticker (show Side.no ≠ Side.yes by decide)
        have kept := (beside.refreshUnless venue false (heading.aim .yes) heading.now t).unmoved
        change ownView ticker .no (bring venue ticker heading .yes t).2 = _ at kept
        rw [ran] at kept
        rw [brought] at returned live ⊢
        have slot : u.quoter.ownQuotes ticker .no = t.quoter.ownQuotes ticker .no := congrArg Prod.snd kept
        have config : u.quoter.config = t.quoter.config := congrArg Prod.fst kept
        rw [← slot, ← config] at due
        exact (refresh_answered venue ticker .no due returned live).after firstGrows

/-- A side that is due in an update that returns is answered, unless it ends up empty. -/
theorem update_answered {book : LocalOrderbook} {s : Desk F X} {seen : Look} {price : Int}
    (looked : look venue ticker book s side = some seen)
    (due : dueAt s.quoter.config (legOf side) (s.quoter.ownQuotes ticker side) seen = some price)
    (returned : (update venue ticker book s).1 = .ok ())
    (live : ((update venue ticker book s).2.quoter.ownQuotes ticker side).orderId ≠ "") :
    s.Answered ticker side (update venue ticker book s).2 := by
  rw [update_eq_head, bind_apply] at returned live ⊢
  cases headed : head venue ticker book s with
  | mk r t =>
    obtain ⟨aim, pulled, aimed⟩ := head_slot side headed
    rw [headed] at returned live
    rcases r with stop | (_ | heading)
    · cases returned
    · unfold look at looked
      rw [headed] at looked
      cases looked
    · rw [andThen_ok] at returned live ⊢
      rcases bringBoth_slot side headed with ⟨unlooked, _⟩ | ⟨desired, u, wanted, refreshed, _, _⟩
      · rw [unlooked] at looked
        cases looked
      · rw [looked] at refreshed
        cases refreshed
        -- with an aim the side was not pulled before
        have stood : t.quoter.ownQuotes ticker side = s.quoter.ownQuotes ticker side := by
          rcases pulled.slot with same | ⟨absent, _⟩
          · exact same
          · rw [← aimed heading rfl, wanted] at absent
            cases absent
        rw [← stood, ← pulled.config] at due
        exact (bringBoth_answered wanted due returned live).after (head_grows headed)

end Quoter

end Kalshi
