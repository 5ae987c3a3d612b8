import KalshiMaker.Lib.Window
import KalshiMaker.Engine.TradeTape
import KalshiMaker.Engine.FlowImbalance
import Mathlib.Data.Int.ConditionallyCompleteOrder
import Mathlib.Tactic.Linarith

/-! The tape and the flow guard answer from what they kept as they would from everything they were ever told. -/
namespace Kalshi

variable {F : Type} [Floating F]

/-! ### Calls, and what they tell -/

inductive TapeCall where
  | recordTrade (trade : PublicTrade)
  | recordOwnFill (tradeId : String)

structure FlowCall where
  ticker : Ticker
  side : Side
  quantity : Quantity
  time : TimePoint

def TapeCall.trades (calls : List TapeCall) : List PublicTrade :=
  calls.filterMap fun
    | .recordTrade trade => some trade
    | .recordOwnFill _ => none

def TapeCall.tradesFor (ticker : Ticker) (calls : List TapeCall) : List PublicTrade :=
  (trades calls).filter fun trade => decide (trade.marketTicker = ticker)

def TapeCall.ownIds (calls : List TapeCall) : List String :=
  calls.filterMap fun
    | .recordTrade _ => none
    | .recordOwnFill tradeId => if tradeId = "" then none else some tradeId

def FlowCall.entry (call : FlowCall) : FlowEntry := ⟨call.time, call.side, call.quantity⟩

def FlowCall.entriesFor (ticker : Ticker) (calls : List FlowCall) : List FlowEntry :=
  (calls.filter fun call => decide (call.ticker = ticker)).map entry

namespace TradeTape

def apply (tape : TradeTape F) : TapeCall → TradeTape F
  | .recordTrade trade => tape.recordTrade trade
  | .recordOwnFill tradeId => tape.recordOwnFill tradeId

def after (config : TradeTapeConfig F) (calls : List TapeCall) : TradeTape F :=
  calls.foldl apply { config }

/-- A tape that keeps every print. -/
def unevicted (config : TradeTapeConfig F) (calls : List TapeCall) : TradeTape F :=
  { config, printsByTicker := fun ticker => TapeCall.tradesFor ticker calls, ownTradeIds := TapeCall.ownIds calls }

/-- The tape with nothing on it but the window that ends now. -/
def windowed (tape : TradeTape F) (now : TimePoint) : TradeTape F :=
  { tape with
    printsByTicker := fun ticker =>
      (tape.printsByTicker ticker).filter fun print =>
        decide (tape.cutoff now ≤ print.timestamp ∧ print.timestamp ≤ now) }

structure AnswersAs (tape other : TradeTape F) (ticker : Ticker) (now : TimePoint) : Prop where
  vwapCents : ∀ halfLifeSeconds, tape.vwapCents ticker halfLifeSeconds now = other.vwapCents ticker halfLifeSeconds now
  printCount : tape.printCount ticker now = other.printCount ticker now
  minoritySideRatio : tape.minoritySideRatio ticker now = other.minoritySideRatio ticker now

end TradeTape

namespace FlowImbalanceGuard

def apply (guard : FlowImbalanceGuard F) (call : FlowCall) : FlowImbalanceGuard F :=
  guard.recordFill call.ticker call.side call.quantity call.time

def after (config : FlowImbalanceConfig F) (calls : List FlowCall) : FlowImbalanceGuard F :=
  calls.foldl apply { config }

def unevicted (config : FlowImbalanceConfig F) (calls : List FlowCall) : FlowImbalanceGuard F :=
  { config, fills := fun ticker => FlowCall.entriesFor ticker calls }

def windowed (guard : FlowImbalanceGuard F) (now : TimePoint) : FlowImbalanceGuard F :=
  { guard with
    fills := fun ticker =>
      (guard.fills ticker).filter fun entry => decide (guard.cutoff now ≤ entry.time ∧ entry.time ≤ now) }

structure AnswersAs (guard other : FlowImbalanceGuard F) (ticker : Ticker) (now : TimePoint) : Prop where
  imbalanceRatio : guard.imbalanceRatio ticker now = other.imbalanceRatio ticker now
  isImbalanced : guard.isImbalanced ticker now = other.isImbalanced ticker now
  dominantTakerSide : guard.dominantTakerSide ticker now = other.dominantTakerSide ticker now

end FlowImbalanceGuard

/-! ### What a query looks at -/

namespace TradeTape

/-- The prints in the window, in the order of arrival. -/
def inWindow (tape : TradeTape F) (ticker : Ticker) (now : TimePoint) : List PublicTrade :=
  Window.live PublicTrade.timestamp tape.cutoff now (tape.printsByTicker ticker)

theorem filter_isInWindow (tape : TradeTape F) (ticker : Ticker) (now : TimePoint) :
    (tape.printsByTicker ticker).filter (fun print => tape.isInWindow print now) = tape.inWindow ticker now := by
  simp only [inWindow, Window.live, isInWindow, Bool.decide_and]

theorem filter_isCountable (tape : TradeTape F) (ticker : Ticker) (now : TimePoint) :
    (tape.printsByTicker ticker).filter (fun print => tape.isCountable print now) =
      (tape.inWindow ticker now).filter fun print => !decide (print.tradeId ∈ tape.ownTradeIds) := by
  rw [← filter_isInWindow, List.filter_filter]
  simp only [isCountable, Bool.and_comm]

theorem printCount_eq (tape : TradeTape F) (ticker : Ticker) (now : TimePoint) :
    tape.printCount ticker now =
      List.foldl (fun count _ => count + 1) 0
        ((tape.printsByTicker ticker).filter fun print => tape.isCountable print now) := by
  rw [List.foldl_filter]
  rfl

theorem cutoff_monotone (tape : TradeTape F) : Monotone tape.cutoff :=
  fun _ _ earlier => sub_le_sub_right earlier _

/-- All that a query at a time depends on. -/
structure Alike (tape other : TradeTape F) (ticker : Ticker) (now : TimePoint) : Prop where
  config : tape.config = other.config
  prints : tape.inWindow ticker now = other.inWindow ticker now
  own : ∀ tradeId, tradeId ∈ tape.ownTradeIds ↔ tradeId ∈ other.ownTradeIds

namespace Alike

variable {tape other : TradeTape F} {ticker : Ticker} {now : TimePoint}

theorem weight (alike : Alike tape other ticker now) (print : PublicTrade) (halfLifeSeconds : Int) :
    tape.weight print halfLifeSeconds now = other.weight print halfLifeSeconds now := by
  unfold TradeTape.weight
  simp only [alike.own print.tradeId, alike.config]

theorem countable (alike : Alike tape other ticker now) :
    (tape.printsByTicker ticker).filter (fun print => tape.isCountable print now) =
      (other.printsByTicker ticker).filter fun print => other.isCountable print now := by
  rw [filter_isCountable, filter_isCountable, alike.prints]
  simp only [alike.own]

theorem answersAs (alike : Alike tape other ticker now) : tape.AnswersAs other ticker now := by
  constructor
  · intro halfLifeSeconds
    simp only [TradeTape.vwapCents, filter_isInWindow, alike.prints, alike.weight]
  · rw [printCount_eq, printCount_eq, alike.countable]
  · have volumes : tape.takerVolumes ticker now = other.takerVolumes ticker now := by
      unfold takerVolumes
      rw [alike.countable]
    unfold TradeTape.minoritySideRatio
    rw [volumes]

end Alike

/-! ### What a run of calls leaves on the tape -/

@[simp] theorem apply_config (tape : TradeTape F) (call : TapeCall) : (tape.apply call).config = tape.config := by
  cases call with
  | recordTrade trade => rfl
  | recordOwnFill tradeId =>
    simp only [apply, recordOwnFill]
    split <;> rfl

theorem apply_ownFill_prints (tape : TradeTape F) (tradeId : String) :
    (tape.apply (.recordOwnFill tradeId)).printsByTicker = tape.printsByTicker := by
  simp only [apply, recordOwnFill]
  split <;> rfl

theorem foldl_config (calls : List TapeCall) (tape : TradeTape F) : (calls.foldl apply tape).config = tape.config := by
  induction calls generalizing tape with
  | nil => rfl
  | cons call calls ih => rw [List.foldl_cons, ih, apply_config]

theorem foldl_prints (calls : List TapeCall) (tape : TradeTape F) :
    (calls.foldl apply tape).printsByTicker =
      Window.recordAll PublicTrade.timestamp tape.cutoff tape.printsByTicker
        ((TapeCall.trades calls).map fun trade => (trade.marketTicker, trade)) := by
  induction calls generalizing tape with
  | nil => rfl
  | cons call calls ih =>
    have same : (tape.apply call).cutoff = tape.cutoff := by
      funext now
      simp only [cutoff, apply_config]
    rw [List.foldl_cons, ih, same]
    cases call with
    | recordTrade trade => rfl
    | recordOwnFill tradeId => rw [apply_ownFill_prints]; rfl

theorem mem_foldl_own (tradeId : String) (calls : List TapeCall) (tape : TradeTape F) :
    tradeId ∈ (calls.foldl apply tape).ownTradeIds ↔ tradeId ∈ tape.ownTradeIds ∨ tradeId ∈ TapeCall.ownIds calls := by
  induction calls generalizing tape with
  | nil => simp [TapeCall.ownIds]
  | cons call calls ih =>
    rw [List.foldl_cons, ih]
    cases call with
    | recordTrade trade => simp [apply, recordTrade, TapeCall.ownIds]
    | recordOwnFill marked =>
      by_cases blank : marked = ""
      · simp [apply, recordOwnFill, TapeCall.ownIds, blank]
      · simp only [apply, recordOwnFill, TapeCall.ownIds, blank, if_false, List.mem_cons, List.filterMap_cons]
        tauto

/-- Everything told under a ticker, as the windows file it. -/
theorem under_trades (ticker : Ticker) (calls : List TapeCall) :
    Window.under ticker ((TapeCall.trades calls).map fun trade => (trade.marketTicker, trade)) =
      TapeCall.tradesFor ticker calls := by
  simp only [Window.under, TapeCall.tradesFor, List.filter_map, List.map_map]
  exact List.map_id _

theorem after_alike (config : TradeTapeConfig F) (calls : List TapeCall) (ticker : Ticker) {now : TimePoint}
    (past : ∀ trade ∈ TapeCall.tradesFor ticker calls, trade.timestamp ≤ now) :
    Alike (after config calls) ((unevicted config calls).windowed now) ticker now where
  config := foldl_config calls { config }
  prints := by
    have same : (after config calls).cutoff = (unevicted config calls).cutoff := by
      funext now
      simp only [cutoff, after, foldl_config, unevicted]
    rw [← under_trades] at past
    unfold inWindow windowed
    rw [same, after, foldl_prints]
    calc Window.live PublicTrade.timestamp (unevicted config calls).cutoff now _
        = Window.live PublicTrade.timestamp (unevicted config calls).cutoff now
            ([] ++ Window.under ticker ((TapeCall.trades calls).map fun trade => (trade.marketTicker, trade))) :=
          Window.live_recordAll (cutoff_monotone _) ticker _ (fun _ => []) past
      _ = Window.live PublicTrade.timestamp (unevicted config calls).cutoff now (TapeCall.tradesFor ticker calls) := by
          rw [under_trades, List.nil_append]
      _ = _ := (Window.live_live _).symm
  own := fun tradeId => by simp [after, mem_foldl_own, windowed, unevicted]

/-- Where the mark falls among the other calls leaves no trace. -/
theorem ownFill_alike (config : TradeTapeConfig F) (before between rest : List TapeCall) (tradeId : String)
    (ticker : Ticker) (now : TimePoint) :
    Alike (after config (before ++ .recordOwnFill tradeId :: between ++ rest))
      (after config (before ++ between ++ .recordOwnFill tradeId :: rest)) ticker now where
  config := by simp only [after, foldl_config]
  prints := by
    have told : TapeCall.trades (before ++ .recordOwnFill tradeId :: between ++ rest) =
        TapeCall.trades (before ++ between ++ .recordOwnFill tradeId :: rest) := by
      simp [TapeCall.trades]
    have same : (after config (before ++ .recordOwnFill tradeId :: between ++ rest)).cutoff =
        (after config (before ++ between ++ .recordOwnFill tradeId :: rest)).cutoff := by
      funext now
      simp only [cutoff, after, foldl_config]
    unfold inWindow
    rw [same, after, after, foldl_prints, foldl_prints, told]
  own := fun marked => by
    simp only [after, mem_foldl_own, TapeCall.ownIds, List.mem_filterMap, List.mem_append, List.mem_cons]
    constructor
    · rintro (known | ⟨call, told, named⟩)
      · exact .inl known
      · exact .inr ⟨call, by tauto, named⟩
    · rintro (known | ⟨call, told, named⟩)
      · exact .inl known
      · exact .inr ⟨call, by tauto, named⟩

end TradeTape

namespace FlowImbalanceGuard

/-- The fills a query at a time still counts. -/
def counted (guard : FlowImbalanceGuard F) (ticker : Ticker) (now : TimePoint) : List FlowEntry :=
  Window.recent FlowEntry.time guard.cutoff now (guard.fills ticker)

theorem windowedVolume_counted (guard : FlowImbalanceGuard F) (ticker : Ticker) (now : TimePoint) (side : Side) :
    guard.windowedVolume ticker now side =
      (guard.counted ticker now).foldl
        (fun volume entry => if entry.side = side then volume + entry.quantity else volume) {} := by
  unfold windowedVolume counted Window.recent
  rw [List.foldl_filter]
  congr 1
  funext volume entry
  by_cases expired : entry.time < guard.cutoff now
  · simp [expired]
  · simp [expired, not_lt.mp expired]

theorem cutoff_monotone (guard : FlowImbalanceGuard F) : Monotone guard.cutoff :=
  fun _ _ earlier => sub_le_sub_right earlier _

theorem answersAs_of_counted {guard other : FlowImbalanceGuard F} {ticker : Ticker} {now : TimePoint}
    (config : guard.config = other.config) (counted : guard.counted ticker now = other.counted ticker now) :
    guard.AnswersAs other ticker now := by
  have volumes : ∀ side, guard.windowedVolume ticker now side = other.windowedVolume ticker now side := by
    intro side
    rw [windowedVolume_counted, windowedVolume_counted, counted]
  have imbalanced : guard.isImbalanced ticker now = other.isImbalanced ticker now := by
    unfold isImbalanced
    rw [volumes, volumes, config]
  constructor
  · unfold imbalanceRatio
    rw [volumes, volumes]
  · exact imbalanced
  · unfold dominantTakerSide
    rw [imbalanced, volumes, volumes]

theorem foldl_config (calls : List FlowCall) (guard : FlowImbalanceGuard F) :
    (calls.foldl apply guard).config = guard.config := by
  induction calls generalizing guard with
  | nil => rfl
  | cons call calls ih => exact ih (guard.apply call)

theorem foldl_fills (calls : List FlowCall) (guard : FlowImbalanceGuard F) :
    (calls.foldl apply guard).fills =
      Window.recordAll FlowEntry.time guard.cutoff guard.fills (calls.map fun call => (call.ticker, call.entry)) := by
  induction calls generalizing guard with
  | nil => rfl
  | cons call calls ih => exact ih (guard.apply call)

theorem under_calls (ticker : Ticker) (calls : List FlowCall) :
    Window.under ticker (calls.map fun call => (call.ticker, call.entry)) = FlowCall.entriesFor ticker calls := by
  simp only [Window.under, FlowCall.entriesFor, List.filter_map, List.map_map]
  rfl

theorem after_counted (config : FlowImbalanceConfig F) (calls : List FlowCall) (ticker : Ticker) {now : TimePoint}
    (past : ∀ entry ∈ FlowCall.entriesFor ticker calls, entry.time ≤ now) :
    (after config calls).counted ticker now = ((unevicted config calls).windowed now).counted ticker now := by
  have same : (after config calls).cutoff = (unevicted config calls).cutoff := by
    funext now
    simp only [cutoff, after, foldl_config, unevicted]
  have kept : (after config calls).fills ticker =
      Window.recordAll FlowEntry.time (unevicted config calls).cutoff (fun _ => [])
        (calls.map fun call => (call.ticker, call.entry)) ticker := by
    rw [after, foldl_fills]
    rfl
  calc Window.recent FlowEntry.time (after config calls).cutoff now ((after config calls).fills ticker)
      = Window.recent FlowEntry.time (unevicted config calls).cutoff now
          ([] ++ Window.under ticker (calls.map fun call => (call.ticker, call.entry))) := by
        rw [same, kept]
        rw [← under_calls] at past
        exact Window.recent_recordAll (cutoff_monotone _) ticker _ (fun _ => []) past
    _ = Window.recent FlowEntry.time (unevicted config calls).cutoff now (FlowCall.entriesFor ticker calls) := by
        rw [under_calls, List.nil_append]
    _ = _ := (Window.recent_live past).symm

end FlowImbalanceGuard

/-! ### Nothing needed is forgotten -/

theorem windows_forget_nothing :
    (∀ (config : TradeTapeConfig F) (calls : List TapeCall) (ticker : Ticker) (now : TimePoint),
      (∀ trade ∈ TapeCall.tradesFor ticker calls, trade.timestamp ≤ now) →
        (TradeTape.after config calls).AnswersAs ((TradeTape.unevicted config calls).windowed now) ticker now) ∧
    (∀ (config : FlowImbalanceConfig F) (calls : List FlowCall) (ticker : Ticker) (now : TimePoint),
      (∀ entry ∈ FlowCall.entriesFor ticker calls, entry.time ≤ now) →
        (FlowImbalanceGuard.after config calls).AnswersAs
          ((FlowImbalanceGuard.unevicted config calls).windowed now) ticker now) ∧
    (∀ (config : TradeTapeConfig F) (before between rest : List TapeCall) (tradeId : String) (ticker : Ticker)
        (now : TimePoint),
      (TradeTape.after config (before ++ .recordOwnFill tradeId :: between ++ rest)).AnswersAs
        (TradeTape.after config (before ++ between ++ .recordOwnFill tradeId :: rest)) ticker now) := by
  refine ⟨?_, ?_, ?_⟩
  · intro config calls ticker now past
    exact (TradeTape.after_alike config calls ticker past).answersAs
  · intro config calls ticker now past
    exact FlowImbalanceGuard.answersAs_of_counted (FlowImbalanceGuard.foldl_config calls { config })
      (FlowImbalanceGuard.after_counted config calls ticker past)
  · intro config before between rest tradeId ticker now
    exact (TradeTape.ownFill_alike config before between rest tradeId ticker now).answersAs

/-- One print has been evicted, a backfilled one has expired where the eviction cannot reach it. -/
theorem windows_forget_nothing_backfilled :
    let config : TradeTapeConfig ℚ := {}
    let flow : FlowImbalanceConfig ℚ := {}
    let print (tradeId : String) (seconds : Int) : TapeCall :=
      .recordTrade ⟨tradeId, "M", 40, Quantity.fromContracts 5, .yes, seconds * nanosPerSecond⟩
    let calls : List TapeCall := [print "old" 0, print "new" 400, .recordOwnFill "late", print "late" 50]
    let fills : List FlowCall :=
      [⟨"M", .yes, Quantity.fromContracts 3, 0⟩, ⟨"M", .no, Quantity.fromContracts 4, 400 * nanosPerSecond⟩]
    let now : TimePoint := 400 * nanosPerSecond
    ((TradeTape.after config calls).printsByTicker "M").map PublicTrade.tradeId = ["new", "late"] ∧
      (TradeTape.after config calls).printCount "M" now = 1 ∧
      (TradeTape.after config calls).AnswersAs ((TradeTape.unevicted config calls).windowed now) "M" now ∧
      (FlowImbalanceGuard.after flow fills).AnswersAs
        ((FlowImbalanceGuard.unevicted flow fills).windowed now) "M" now := by
  intro config flow print calls fills now
  obtain ⟨tape, guard, _⟩ := windows_forget_nothing (F := ℚ)
  refine ⟨by decide +kernel, by decide +kernel, ?_, ?_⟩
  · apply tape config calls "M" now
    decide +kernel
  · apply guard flow fills "M" now
    decide +kernel

end Kalshi
