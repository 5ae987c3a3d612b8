import KalshiMaker.Engine.Untouched

/-! How the quoter is set up: its configuration, its model and its depth never change. -/
namespace Kalshi

open Effect Eff Desk Relation Quoter TradingSession

variable {F X : Type} [Floating F]

def Desk.settings (s : Desk F X) : QuoterConfig F × PricingModel F × F :=
  (s.quoter.config, s.quoter.model, s.quoter.inventoryBContracts)

theorem settings_beside (ticker : Ticker) (side : Side) : Beside ticker side (Desk.settings (F := F) (X := X)) where
  slot _ _ := rfl
  outside _ _ := rfl
  called _ _ _ := rfl
  orders _ _ := rfl

variable (venue : Venue X)

theorem settings_moves (ticker : Ticker) : Moves venue ticker (Desk.settings (F := F) (X := X))
    (fun _ _ => False) where
  steady _ := rfl
  system _ := rfl
  ema _ _ := rfl
  emit _ _ _ := rfl
  fade _ _ _ := rfl
  enter _ := (settings_beside ticker _).enter venue _ _ _
  amend _ := (settings_beside ticker _).amendInPlace venue _ _ _ _
  release side s := (settings_beside ticker side).releaseSlot venue s

theorem settings_reacts : Reacts venue (Desk.settings (F := F) (X := X)) (fun _ _ _ => False) where
  session _ _ _ _ := rfl
  steady _ := rfl
  update ticker book s := Leads.quiet (chain_unmoved (update_moves (settings_moves venue ticker) book s))

theorem settings_blind : FillBlind (Desk.settings (F := F) (X := X)) where
  books _ _ _ := rfl
  emitted _ _ := rfl
  slots _ _ := rfl
  risk _ _ := rfl
  flow _ _ := rfl
  tape _ _ := rfl

theorem settings_untouched : Untouched venue (Desk.settings (F := F) (X := X)) where
  reacts := settings_reacts venue
  session _ _ _ := rfl
  quoter _ _ _ _ := rfl
  tape _ _ := rfl
  cancels _ _ _ := rfl
  risk _ _ _ _ _ := rfl

theorem handle_settings (event : Event F) (s : Desk F X) : (handle venue event s).2.settings = s.settings := by
  by_cases accounts : event.accounts = true
  case neg => exact (settings_untouched venue).handle (Bool.eq_false_iff.mpr accounts) s
  refine Leads.unmoved (?_ : Leads Desk.settings (fun _ _ => False) (handle venue event) s)
  cases event with
  | fill fill => exact Leads.bind (Leads.quiet (settings_blind.onFill fill s)) fun _ s₁ _ => Leads.quiet rfl
  | recordFlatten order => exact Leads.quiet (settings_blind.booking.recordFlatten order s)
  | riskUpdate _ => exact Leads.quiet rfl
  | _ => cases accounts

theorem dispatch_settings (p : Process F X) (event : Event F) :
    (p.dispatch venue event).desk.settings = p.desk.settings := by
  rcases dispatch_cases venue p event with same | ⟨_, done⟩ | ⟨_, _, ended⟩
  · rw [same]
  · rw [done]
    exact handle_settings venue event p.desk
  · rw [ended]
    exact ((settings_untouched venue).cancelAllQuotes _).trans (handle_settings venue event p.desk)

theorem run_settings (p : Process F X) (events : List (Event F)) :
    (p.run venue events).desk.settings = p.desk.settings := by
  induction events generalizing p with
  | nil => rfl
  | cons event events ih => exact (ih (p.dispatch venue event)).trans (dispatch_settings venue p event)

end Kalshi
