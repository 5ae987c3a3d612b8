import KalshiMaker.Net.ScriptedHost
import KalshiMaker.Engine.Process
import KalshiMaker.Strategy.SlotMoves

/-! When a resting order is repriced: after its rest, or after two adverse sightings of it in a row. -/
namespace Kalshi

open Effect Eff Desk Quoter Relation

variable {F X : Type} [Floating F]

/-! ### Runs -/

/-- What the last refresh of a side saw: the order in the slot, and whether the desired price had jumped against it. -/
structure Sighting where
  orderId : OrderId
  adverse : Bool
  deriving DecidableEq

/-- The desk, and the last sighting on each side of one market. -/
structure Watch (F X : Type) [Floating F] where
  desk : Desk F X
  seen : Side → Option Sighting := fun _ => none

/-- A raised flag outlives the excursion it was raised for, or passes to a new order. -/
def FlagOutlives (config : QuoterConfig F) (leg : QuoteLeg) (seen : Look) (slot slot' : QuoteSlot) : Prop :=
  slot.fadePending = true ∧
    (slot.orderId = "" ∧ slot'.orderId ≠ "" ∨
      choice config leg slot seen.desired seen.now = .keep ∧ ¬ config.Adverse leg slot seen.desired)

instance (config : QuoterConfig F) (leg : QuoteLeg) (seen : Look) (slot slot' : QuoteSlot) :
    Decidable (FlagOutlives config leg seen slot slot') := inferInstanceAs (Decidable (_ ∧ _))

namespace Watch

variable (venue : Venue X) (ticker : Ticker)

def slot (w : Watch F X) (side : Side) : QuoteSlot := w.desk.quoter.ownQuotes ticker side

def updated (w : Watch F X) (book : LocalOrderbook) : Watch F X where
  desk := (update venue ticker book w.desk).2
  seen side :=
    match look venue ticker book w.desk side with
    | none => w.seen side
    | some seen =>
      some ⟨(w.slot ticker side).orderId,
        decide (w.desk.quoter.config.Adverse (legOf side) (w.slot ticker side) seen.desired)⟩

/-- No flag outlives the excursion or the order it was raised for in an update. -/
def Lowers (w : Watch F X) (book : LocalOrderbook) : Prop :=
  ∀ side seen, look venue ticker book w.desk side = some seen →
    ¬ FlagOutlives w.desk.quoter.config (legOf side) seen (w.slot ticker side)
      ((w.updated venue ticker book).slot ticker side)

/-- An update of the market, or what happens between two of them. -/
inductive Turn (w : Watch F X) : Watch F X → Prop where
  | update (book : LocalOrderbook) (lowers : w.Lowers venue ticker book) : Turn w (w.updated venue ticker book)
  | aside {desk : Desk F X} (between : w.desk.Aside venue ticker desk) : Turn w { w with desk }

/-- A raised flag stands for an adverse sighting of the very order, the last one made. -/
def Confirms (w : Watch F X) : Prop :=
  ∀ side, (w.slot ticker side).orderId ≠ "" → (w.slot ticker side).fadePending = true →
    w.seen side = some ⟨(w.slot ticker side).orderId, true⟩

end Watch

/-- An order is repriced only once it has rested long enough, or at the second adverse sighting of it in a row. -/
def Disciplined (config : QuoterConfig F) (leg : QuoteLeg) (slot : QuoteSlot) (before : Option Sighting)
    (seen : Look) :
    Prop :=
  slot.Rested seen.now config.minRestMs ∨
    config.Adverse leg slot seen.desired ∧ slot.Rested seen.now config.fadeRestMs ∧ before = some ⟨slot.orderId, true⟩

instance (config : QuoterConfig F) (leg : QuoteLeg) (slot : QuoteSlot) (before : Option Sighting) (seen : Look) :
    Decidable (Disciplined config leg slot before seen) := inferInstanceAs (Decidable (_ ∨ _))

/-- The same order, or none, still at its price and resting since. -/
def QuoteSlot.Stands (slot slot' : QuoteSlot) : Prop :=
  slot'.orderId = slot.orderId ∧ slot'.quotedCents = slot.quotedCents ∧ slot'.placedAt = slot.placedAt

instance (slot slot' : QuoteSlot) : Decidable (slot.Stands slot') := inferInstanceAs (Decidable (_ ∧ _ ∧ _))

section

variable {config : QuoterConfig F} {leg : QuoteLeg} {slot slot' : QuoteSlot} {seen : Look}

/-- After a refresh that lowers its flag in time, a raised flag stands for the adverse sighting just made. -/
theorem QuoteSlot.Refreshed.confirms (refreshed : slot.Refreshed config leg seen slot')
    (lowers : ¬ FlagOutlives config leg seen slot slot') (held : slot'.orderId ≠ "")
    (raised : slot'.fadePending = true) :
    slot'.orderId = slot.orderId ∧ config.Adverse leg slot seen.desired := by
  cases refreshed with
  | vacant empty => exact absurd empty held
  | entered empty orderId => exact absurd ⟨raised, .inl ⟨empty, held⟩⟩ lowers
  | kept chosen =>
    refine ⟨rfl, ?_⟩
    by_contra calm
    exact lowers ⟨raised, .inr ⟨chosen, calm⟩⟩
  | flagged chosen => exact ⟨rfl, choice_flag chosen⟩
  | waited chosen => exact ⟨rfl, choice_wait chosen⟩
  | calmed chosen => cases raised
  | held chosen => cases raised
  | released chosen => cases raised
  | repriced chosen orderId => cases raised

/-- A refresh that does not leave its order standing has chosen to reprice it. -/
theorem QuoteSlot.Refreshed.reprices (refreshed : slot.Refreshed config leg seen slot') (held : slot.orderId ≠ "")
    (moved : ¬ slot.Stands slot') : choice config leg slot seen.desired seen.now = .reprice := by
  cases refreshed with
  | vacant empty => exact absurd empty held
  | entered empty orderId => exact absurd empty held
  | kept chosen => exact absurd ⟨rfl, rfl, rfl⟩ moved
  | flagged chosen => exact absurd ⟨rfl, rfl, rfl⟩ moved
  | waited chosen => exact absurd ⟨rfl, rfl, rfl⟩ moved
  | calmed chosen => exact absurd ⟨rfl, rfl, rfl⟩ moved
  | held chosen => exact chosen
  | released chosen => exact chosen
  | repriced chosen orderId => exact chosen

end

namespace Watch

variable {venue : Venue X} {ticker : Ticker}

theorem Confirms.updated {w : Watch F X} (confirms : w.Confirms ticker) {book : LocalOrderbook}
    (lowers : w.Lowers venue ticker book) : (w.updated venue ticker book).Confirms ticker := by
  intro side held raised
  cases looked : look venue ticker book w.desk side with
  | none =>
    have unseen : (w.updated venue ticker book).seen side = w.seen side := by
      simp only [Watch.updated, looked]
    rcases update_unrefreshed venue ticker looked with same | pulled
    · have left : (w.updated venue ticker book).slot ticker side = w.slot ticker side := same
      rw [left] at held raised ⊢
      rw [unseen]
      exact confirms side held raised
    · have emptied : ((w.updated venue ticker book).slot ticker side).orderId = "" :=
        congrArg QuoteSlot.orderId pulled
      exact absurd emptied held
  | some seen =>
    obtain ⟨same, adverse⟩ :=
      (update_refreshed venue ticker looked).confirms (lowers side seen looked) held raised
    have recorded : (w.updated venue ticker book).seen side = some ⟨(w.slot ticker side).orderId,
        decide (w.desk.quoter.config.Adverse (legOf side) (w.slot ticker side) seen.desired)⟩ := by
      simp only [Watch.updated, looked]
    have jumped : w.desk.quoter.config.Adverse (legOf side) (w.slot ticker side) seen.desired := adverse
    have kept : ((w.updated venue ticker book).slot ticker side).orderId = (w.slot ticker side).orderId := same
    rw [recorded, decide_eq_true jumped, kept]

theorem Confirms.turn {w w' : Watch F X} (turn : Turn venue ticker w w') (confirms : w.Confirms ticker) :
    w'.Confirms ticker := by
  cases turn with
  | update book lowers => exact confirms.updated lowers
  | aside between =>
    intro side held raised
    unfold Watch.slot at held raised ⊢
    dsimp only at held raised ⊢
    have same := between.live held
    rw [same] at held raised ⊢
    exact confirms side held raised

end Watch

/-- In every run whose updates let no flag outlive the excursion or the order it was raised for, a resting order is
repriced only after its rest, or at the second adverse sighting of it in a row. -/
theorem reprices_disciplined (venue : Venue X) (ticker : Ticker) {start w : Watch F X}
    (lowered : ∀ side, (start.slot ticker side).fadePending = false)
    (reached : ReflTransGen (Watch.Turn venue ticker) start w) (book : LocalOrderbook) (side : Side) :
    let slot := w.slot ticker side
    let after := (w.updated venue ticker book).slot ticker side
    slot.orderId ≠ "" → ¬ slot.Stands after →
      after = { slot with orderId := "" } ∧ look venue ticker book w.desk side = none ∨
      ∃ seen, look venue ticker book w.desk side = some seen ∧
        Disciplined w.desk.quoter.config (legOf side) slot (w.seen side) seen := by
  intro slot after held moved
  -- along the run a raised flag stands for an adverse sighting just before
  have confirms : w.Confirms ticker := by
    apply chain_invariant (fun w : Watch F X => w.Confirms ticker) (fun _ _ turn => Watch.Confirms.turn turn) reached
    intro side _ raised
    rw [lowered side] at raised
    cases raised
  cases looked : look venue ticker book w.desk side with
  | none =>
    left
    rcases update_unrefreshed venue ticker looked with same | pulled
    · have left : after = slot := same
      exact absurd (by rw [left]; exact ⟨rfl, rfl, rfl⟩) moved
    · exact ⟨pulled, rfl⟩
  | some seen =>
    right
    refine ⟨seen, rfl, ?_⟩
    rcases choice_reprice ((update_refreshed venue ticker looked).reprices held moved) with rested |
      ⟨adverse, raised, rested⟩
    · exact .inl rested
    · exact .inr ⟨adverse, rested, confirms side held raised⟩

/-! ### A market that falls, recovers and falls again -/

namespace Watch

/-- The venue's clock moves on. -/
def atMs (w : Watch ℚ Script) (ms : Int) : Watch ℚ Script :=
  { w with desk := { w.desk with outside := { w.desk.outside with time := ms * nanosPerMilli } } }

def unsmoothed : Watch ℚ Script where
  desk := (Process.start { tickers := ["M"] } ({ useClearingPricing := true, fvEmaAlpha := 1 } : QuoterConfig ℚ) {}
    ({} : Script) none none false false).desk

def even : LocalOrderbook := ⟨{ ticker := "M", yes := [⟨40, ⟨1000⟩⟩], no := [⟨40, ⟨1000⟩⟩] }⟩

/-- Three cents below. -/
def low : LocalOrderbook := ⟨{ ticker := "M", yes := [⟨37, ⟨1000⟩⟩], no := [⟨43, ⟨1000⟩⟩] }⟩

end Watch

/-- Two falls in a row, half a second apart: at the second sighting the bid fades. -/
theorem reprices_disciplined_twice :
    let venue : Venue Script := ⟨⟨"exchange"⟩, Script.host⟩
    let quoted := Watch.unsmoothed.updated venue "M" Watch.even
    let fallen := ((quoted.atMs 1000).updated venue "M" Watch.low).atMs 1500
    let after := (fallen.updated venue "M" Watch.low).slot "M" .yes
    after.quotedCents = 45 ∧
      (after = { fallen.slot "M" .yes with orderId := "" } ∧ look venue "M" Watch.low fallen.desk .yes = none ∨
        ∃ seen, look venue "M" Watch.low fallen.desk .yes = some seen ∧
          Disciplined fallen.desk.quoter.config (legOf .yes) (fallen.slot "M" .yes) (fallen.seen .yes) seen) := by
  intro venue quoted fallen after
  have lowers : ∀ (w : Watch ℚ Script) book, (∀ side, (w.slot "M" side).fadePending = false) →
      w.Lowers venue "M" book := by
    rintro w book lowered side seen _ ⟨raised, _⟩
    rw [lowered side] at raised
    cases raised
  have fresh : ∀ side, (Watch.unsmoothed.slot "M" side).fadePending = false := fun _ => rfl
  have calm : ∀ side, ((quoted.atMs 1000).slot "M" side).fadePending = false := by
    intro side
    cases side <;> decide +kernel
  have first : Watch.Turn venue "M" Watch.unsmoothed quoted := .update _ (lowers _ _ fresh)
  have passed : Watch.Turn venue "M" quoted (quoted.atMs 1000) := .aside (.elsewhere rfl rfl)
  -- the first fall raises the flag, the second one fades
  have second : Watch.Turn venue "M" (quoted.atMs 1000) ((quoted.atMs 1000).updated venue "M" Watch.low) :=
    .update _ (lowers _ _ calm)
  have later : Watch.Turn venue "M" ((quoted.atMs 1000).updated venue "M" Watch.low) fallen :=
    .aside (.elsewhere rfl rfl)
  have reached : ReflTransGen (Watch.Turn venue "M") Watch.unsmoothed fallen :=
    (((ReflTransGen.single first).tail passed).tail second).tail later
  exact ⟨by decide +kernel, reprices_disciplined venue "M" fresh reached Watch.low .yes (by decide +kernel)
    (by decide +kernel)⟩

/-- A fall, a recovery and a second fall: the flag of the first has the bid fade at once in the second. -/
theorem earlier_fall_confirms_later :
    let venue : Venue Script := ⟨⟨"exchange"⟩, Script.host⟩
    let quoted := Watch.unsmoothed.updated venue "M" Watch.even
    let fallen := (quoted.atMs 1000).updated venue "M" Watch.low
    let recovered := ((fallen.atMs 1200).updated venue "M" Watch.even).atMs 2000
    let slot := recovered.slot "M" .yes
    let after := (recovered.updated venue "M" Watch.low).slot "M" .yes
    let seen : Look := ⟨45, 2000 * nanosPerMilli⟩
    recovered.seen .yes = some ⟨"order-1", false⟩ ∧ slot.orderId = "order-1" ∧
      look venue "M" Watch.low recovered.desk .yes = some seen ∧ ¬ slot.Stands after ∧ after.orderId = "order-3" ∧
      ¬ Disciplined recovered.desk.quoter.config (legOf .yes) slot (recovered.seen .yes) seen := by
  decide +kernel

end Kalshi
