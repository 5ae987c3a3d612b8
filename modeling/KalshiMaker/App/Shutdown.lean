import KalshiMaker.App.Reconcile
import KalshiMaker.Engine.Steps

/-! The end of a session: no quote is left on the book, and no position at the exchange. -/
namespace Kalshi

open Effect Desk TradingSession

variable {F X : Type} [Floating F]

variable (venue : Venue X)

/-- Send the order that closes a position, and record what it fills. -/
def flattenPosition (ticker : Ticker) (position : Quantity) : Eff (Desk F X) String Unit := do
  let order ← Eff.onPart Desk.outside (fun s x => { s with outside := x })
    (venue.rest.flatten venue.host F ticker position)
  recordFlatten order

/-- A read of the account. -/
def ask {α : Type} (read : X → Except String α × X) : Eff (Desk F X) String α :=
  Eff.onPart Desk.outside (fun s x => { s with outside := x }) fun x => Eff.ofExcept (read x).1 (read x).2

/-- A position to close. Without a list of markets it is every one. -/
def toClose (onlyTickers : Option (List Ticker)) (position : MarketPosition) : Bool :=
  !position.position.isZero && onlyTickers.all fun tickers => decide (position.ticker ∈ tickers)

def flattenEach (positions : List MarketPosition) : Eff (Desk F X) String Unit :=
  Eff.forEach positions fun position =>
    Eff.tryCatch (flattenPosition venue position.ticker position.position) fun _ => pure ()

variable (account : Account F X)

def flattenAllPositions (onlyTickers : Option (List Ticker)) : Eff (Desk F X) String Unit := do
  let positions ← ask account.getPositions
  flattenEach venue (positions.filter (toClose onlyTickers))

def kShutdownAttempts : Nat := 3

/-- Cancel what the exchange still shows as resting. -/
def sweepOnce (accountWide : Bool) : Eff (Desk F X) String Bool := do
  let resting ← ask account.getOpenOrders
  let s ← Eff.get
  let stillOpen :=
    if accountWide then resting else resting.filter fun order => s.session.isTracked order.marketTicker
  if stillOpen.isEmpty then pure false
  else do
    cancelPreexistingOrders venue stillOpen
    pure true

/-- The sweep is repeated until nothing rests; a failed one counts as an attempt. -/
def cancelSweep (accountWide : Bool) : Nat → Eff (Desk F X) String Unit
  | 0 => pure ()
  | attempts + 1 => do
    if ← Eff.tryCatch (sweepOnce venue account accountWide) fun _ => pure true then cancelSweep accountWide attempts
    else pure ()

/-- The positions of the session's markets are closed, or those of the whole account. -/
def closePositions (accountWide : Bool) : Eff (Desk F X) String Unit := do
  let s ← Eff.get
  Eff.tryCatch (flattenAllPositions venue account (if accountWide then none else some s.session.tickers))
    fun _ => pure ()

/-- What the guard of `main` does once the feed is stopped and its thread joined. -/
def shutdownGuard (paperMode accountWide : Bool) : Eff (Desk F X) String Unit := do
  cancelAllQuotes venue
  if paperMode then pure ()
  else do
    cancelSweep venue account accountWide kShutdownAttempts
    closePositions venue account accountWide

/-! ### The cancels -/

theorem ask_ok {α : Type} {read : X → Except String α × X} {s : Desk F X} {answer : α}
    (answered : (read s.outside).1 = .ok answer) :
    ask read s = (.ok answer, { s with outside := (read s.outside).2 }) := by
  simp [ask, Eff.onPart, answered]

theorem ask_error {α : Type} {read : X → Except String α × X} {s : Desk F X} {what : String}
    (failed : (read s.outside).1 = .error what) :
    ask read s = (.error (.exception what), { s with outside := (read s.outside).2 }) := by
  simp [ask, Eff.onPart, failed]

theorem sweepOnce_run (accountWide : Bool) (s : Desk F X) :
    ∃ more cancels x, Eff.tryCatch (sweepOnce venue account accountWide) (fun _ => pure true) s =
      (.ok more, s.afterCancels cancels x) := by
  have nothing : ∀ x, ({ s with outside := x } : Desk F X) = s.afterCancels [] x := by
    intro x
    rw [← Desk.afterCancels_nil { s with outside := x }]
    rfl
  unfold sweepOnce
  rw [Eff.tryCatch_apply, Eff.bind_apply]
  cases read : (account.getOpenOrders s.outside).1 with
  | error what =>
    rw [ask_error read]
    exact ⟨true, [], _, by rw [← nothing]; rfl⟩
  | ok resting =>
    rw [ask_ok read, Eff.andThen_ok, Eff.bind_apply, Eff.get_apply, Eff.andThen_ok]
    generalize (account.getOpenOrders s.outside).2 = x
    generalize (if accountWide = true then resting else _) = stillOpen
    split
    · exact ⟨false, [], x, by rw [← nothing]; rfl⟩
    · obtain ⟨cancels, y, swept, _⟩ := OrderManager.cancelEach_run venue (stillOpen.map Order.id)
        ({ s with outside := x } : Desk F X)
      refine ⟨true, cancels, y, ?_⟩
      rw [Eff.bind_apply, cancelPreexistingOrders, swept]
      rfl

/-- The sweep comes to its end whatever the exchange answers. -/
theorem cancelSweep_run (accountWide : Bool) (attempts : Nat) (s : Desk F X) :
    ∃ cancels x, cancelSweep venue account accountWide attempts s = (.ok (), s.afterCancels cancels x) := by
  induction attempts generalizing s with
  | zero => exact ⟨[], s.outside, by rw [Desk.afterCancels_nil]; rfl⟩
  | succ attempts ih =>
    obtain ⟨more, cancels, x, swept⟩ := sweepOnce_run venue account accountWide s
    unfold cancelSweep
    rw [Eff.bind_apply, swept, Eff.andThen_ok]
    split
    · obtain ⟨later, y, rest⟩ := ih (s.afterCancels cancels x)
      exact ⟨cancels ++ later, y, by rw [rest, Desk.afterCancels_append]⟩
    · exact ⟨cancels, x, rfl⟩

end Kalshi
