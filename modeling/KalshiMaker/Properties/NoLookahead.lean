import KalshiMaker.Lib.LowerBound
import KalshiMaker.Tooling.FvBacktest
import Mathlib.Data.List.Induction
import Mathlib.Data.List.Perm.Basic
import Mathlib.Tactic.Linarith

/-! The backtest scores a print by what came before it, and grades the score once, by what comes after. -/
namespace Kalshi

variable {F : Type} [Floating F]

def BacktestEvent.print? : BacktestEvent F → Option PublicTrade
  | .trade print => some print
  | .snapshot _ | .delta _ _ _ _ | .fill _ => none

namespace FvBacktest

/-! ### What comes before -/

/-- The books, from the snapshots and deltas. -/
def bookStep (books : Ticker → Option LocalOrderbook) : BacktestEvent F → Ticker → Option LocalOrderbook
  | .snapshot snapshot => Function.update books snapshot.ticker (some (LocalOrderbook.applySnapshot snapshot))
  | .delta ticker side priceCents delta =>
    Function.update books ticker (some (((books ticker).getD {}).applyDelta side priceCents delta))
  | .trade _ | .fill _ => books

def booksAfter (before : List (BacktestEvent F)) : Ticker → Option LocalOrderbook :=
  before.foldl bookStep fun _ => none

/-- A tape, from the prints and our own fills. -/
def tapeStep (tape : TradeTape F) : BacktestEvent F → TradeTape F
  | .trade trade => tape.recordTrade trade
  | .fill fill => tape.recordOwnFill fill.tradeId
  | .snapshot _ | .delta _ _ _ _ => tape

def tapeAfter (before : List (BacktestEvent F)) (tape : TradeTape F) : TradeTape F := before.foldl tapeStep tape

/-- A print of which nothing but its market and its time is known. -/
def blankPrint (ticker : Ticker) (now : TimePoint) : PublicTrade where
  tradeId := ""
  marketTicker := ticker
  yesPriceCents := 0
  quantity := {}
  takerSide := .yes
  timestamp := now

section

variable [Power F] (b : FvBacktest F)

/-- The score that a print queues: by the events before it, none where they leave its market without a bid or
an ask. -/
def queued (before : List (BacktestEvent F)) (trade : PublicTrade) : Option (PendingScore F) :=
  match booksAfter before trade.marketTicker with
  | none => none
  | some book =>
    if book.bestBid.isNone || book.bestAsk.isNone then none
    else some
      { deadline := trade.timestamp + b.config.scoreHorizonSeconds * nanosPerSecond
        fairValues := b.candidates.map fun candidate =>
          fairValueOf { b with tapes := b.tapes.map (tapeAfter before) } candidate book
            (blankPrint trade.marketTicker trade.timestamp) }

/-! ### What comes after -/

omit [Power F] in
/-- The prints of a stream. -/
def trades (events : List (BacktestEvent F)) : List PublicTrade := events.filterMap BacktestEvent.print?

omit [Power F] in
def settlesOn (ticker : Ticker) (deadline : TimePoint) (trade : PublicTrade) : Bool :=
  trade.marketTicker == ticker && decide (deadline ≤ trade.timestamp)

omit [Power F] in
/-- The first print of a market at a deadline or past it. -/
def firstDue (ticker : Ticker) (deadline : TimePoint) (later : List (BacktestEvent F)) : Option PublicTrade :=
  (trades later).find? (settlesOn ticker deadline)

/-- A queued score and the print that grades it, if there is one. -/
structure Fate (F : Type) where
  ticker : Ticker
  score : PendingScore F
  gradedBy : Option PublicTrade

/-- The fates of the scores that a stream queues, in order. -/
def fatesFrom (before : List (BacktestEvent F)) : List (BacktestEvent F) → List (Fate F)
  | [] => []
  | event :: later =>
    (event.print?.bind fun trade => (b.queued before trade).map fun score =>
      { ticker := trade.marketTicker
        score
        gradedBy := firstDue trade.marketTicker score.deadline later }).toList ++
      fatesFrom (before ++ [event]) later

def fates (events : List (BacktestEvent F)) : List (Fate F) := b.fatesFrom [] events

end

def Fate.graded (fate : Fate F) : Option (PendingScore F × PublicTrade) :=
  fate.gradedBy.map fun trade => (fate.score, trade)

def Fate.waits (ticker : Ticker) (fate : Fate F) : Bool := fate.ticker == ticker && fate.gradedBy.isNone

/-- The scores still to be graded on a market. -/
def waiting (ticker : Ticker) (fates : List (Fate F)) : List (PendingScore F) :=
  (fates.filter (Fate.waits ticker)).map Fate.score

/-- Prints come in the order of their time stamps, market by market. -/
def PrintsOrdered (events : List (BacktestEvent F)) : Prop :=
  (trades events).Pairwise fun trade later =>
    trade.marketTicker = later.marketTicker → trade.timestamp ≤ later.timestamp

/-! ### One more event -/

/-- A fate once one more event is known. -/
def Fate.seeing (event : BacktestEvent F) (fate : Fate F) : Fate F :=
  { fate with gradedBy := fate.gradedBy.or (event.print?.filter (settlesOn fate.ticker fate.score.deadline)) }

omit [Floating F] in
theorem trades_append (events : List (BacktestEvent F)) (event : BacktestEvent F) :
    trades (events ++ [event]) = trades events ++ event.print?.toList := by
  unfold trades
  rw [List.filterMap_append]
  cases printed : event.print? <;> simp [printed]

omit [Floating F] in
theorem firstDue_append (ticker : Ticker) (deadline : TimePoint) (later : List (BacktestEvent F))
    (event : BacktestEvent F) : firstDue ticker deadline (later ++ [event]) =
      (firstDue ticker deadline later).or (event.print?.filter (settlesOn ticker deadline)) := by
  unfold firstDue
  rw [trades_append, List.find?_append]
  cases event.print? with
  | none => rfl
  | some trade => by_cases due : settlesOn ticker deadline trade <;> simp [Option.filter, due]

section

variable [Power F] (b : FvBacktest F)

/-- What the last event of a stream queues. -/
def arriving (before : List (BacktestEvent F)) (event : BacktestEvent F) : List (Fate F) :=
  (event.print?.bind fun trade => (b.queued before trade).map fun score => ⟨trade.marketTicker, score, none⟩).toList

theorem fatesFrom_append (before events : List (BacktestEvent F)) (event : BacktestEvent F) :
    b.fatesFrom before (events ++ [event]) =
      (b.fatesFrom before events).map (Fate.seeing event) ++ b.arriving (before ++ events) event := by
  induction events generalizing before with
  | nil => simp [fatesFrom, arriving, firstDue, trades]
  | cons first events ih =>
    rw [List.cons_append, fatesFrom, fatesFrom, ih, List.map_append, List.append_assoc, List.append_assoc]
    congr 1
    cases first.print? with
    | none => rfl
    | some trade =>
      cases scored : b.queued before trade with
      | none => simp [scored]
      | some score => simp [scored, firstDue_append, Fate.seeing]

theorem fates_append (events : List (BacktestEvent F)) (event : BacktestEvent F) :
    b.fates (events ++ [event]) = (b.fates events).map (Fate.seeing event) ++ b.arriving events event :=
  b.fatesFrom_append [] events event

/-! ### The state of the replay -/

theorem queued_deadline {before : List (BacktestEvent F)} {trade : PublicTrade} {score : PendingScore F}
    (scored : b.queued before trade = some score) :
    score.deadline = trade.timestamp + b.config.scoreHorizonSeconds * nanosPerSecond ∧
      score.fairValues.length = b.candidates.length := by
  unfold queued at scored
  split at scored
  · cases scored
  · split at scored
    · cases scored
    · cases scored
      simp

theorem mem_arriving {before : List (BacktestEvent F)} {event : BacktestEvent F} {fate : Fate F}
    (member : fate ∈ b.arriving before event) : ∃ trade, event.print? = some trade ∧
      b.queued before trade = some fate.score ∧ fate.ticker = trade.marketTicker ∧ fate.gradedBy = none := by
  unfold arriving at member
  rw [Option.mem_toList, Option.bind_eq_some_iff] at member
  obtain ⟨trade, printed, made⟩ := member
  obtain ⟨score, scored, rfl⟩ := Option.map_eq_some_iff.mp made
  exact ⟨trade, printed, scored, rfl, rfl⟩

/-- Every score comes from a print of its market, which sets its deadline. -/
theorem fate_print {events : List (BacktestEvent F)} {fate : Fate F} (member : fate ∈ b.fates events) :
    (∃ trade ∈ trades events, trade.marketTicker = fate.ticker ∧
      fate.score.deadline = trade.timestamp + b.config.scoreHorizonSeconds * nanosPerSecond) ∧
    fate.score.fairValues.length = b.candidates.length := by
  induction events using List.reverseRecOn generalizing fate with
  | nil => cases member
  | append_singleton events event ih =>
    rw [fates_append, List.mem_append] at member
    rw [trades_append]
    rcases member with seen | new
    · obtain ⟨earlier, among, rfl⟩ := List.mem_map.mp seen
      obtain ⟨⟨trade, printed, on, due⟩, full⟩ := ih among
      exact ⟨⟨trade, List.mem_append_left _ printed, on, due⟩, full⟩
    · obtain ⟨trade, printed, scored, on, _⟩ := b.mem_arriving new
      obtain ⟨due, full⟩ := b.queued_deadline scored
      refine ⟨⟨trade, List.mem_append_right _ ?_, on.symm, due⟩, full⟩
      simp [printed]

/-- Deadlines come in order, market by market. -/
theorem fates_ordered {events : List (BacktestEvent F)} (ordered : PrintsOrdered events) :
    (b.fates events).Pairwise fun fate later => fate.ticker = later.ticker →
      fate.score.deadline ≤ later.score.deadline := by
  induction events using List.reverseRecOn with
  | nil => exact List.Pairwise.nil
  | append_singleton events event ih =>
    unfold PrintsOrdered at ordered
    rw [trades_append, List.pairwise_append] at ordered
    rw [fates_append, List.pairwise_append]
    refine ⟨List.pairwise_map.mpr (ih ordered.1), ?_, ?_⟩
    · unfold arriving
      cases event.print?.bind _ <;> simp
    · intro fate seen later new same
      obtain ⟨earlier, among, rfl⟩ := List.mem_map.mp seen
      obtain ⟨⟨trade, printed, on, due⟩, _⟩ := b.fate_print among
      obtain ⟨next, arrived, scored, named, _⟩ := b.mem_arriving new
      have sooner := ordered.2.2 trade printed next (by simp [arrived]) (on.trans (same.trans named))
      rw [(b.queued_deadline scored).1]
      change earlier.score.deadline ≤ _
      linarith

omit [Floating F] [Power F] in
/-- A score's own print leaves it waiting, if the horizon is not nothing. -/
theorem not_due_of_horizon {trade : PublicTrade} {score : PendingScore F} {horizon : Int} (present : 1 ≤ horizon)
    (deadline : score.deadline = trade.timestamp + horizon * nanosPerSecond) : isDue trade score = false := by
  have ahead : 0 < horizon * nanosPerSecond := by
    unfold nanosPerSecond
    omega
  unfold isDue
  rw [deadline, decide_eq_false_iff_not, not_le]
  linarith

end

/-! ### Settling scores -/

omit [Floating F] in
theorem Fate.seeing_other {event : BacktestEvent F} (quiet : event.print? = none) (fate : Fate F) :
    fate.seeing event = fate := by
  unfold Fate.seeing
  rw [quiet]
  simp

section

variable {trade : PublicTrade} {score : PendingScore F}

/-- The candidate without its marks. -/
def Candidate.unmarked (candidate : Candidate F) : Candidate F := { candidate with accumulator := {} }

/-- The error that a grade finds in the fair value of a candidate, by the candidate's place. -/
def errorAt (place : Nat) (grade : PendingScore F × PublicTrade) : Option F :=
  grade.1.fairValues[place]?.map fun fairValue => fairValue - (grade.2.yesPriceCents : F)

/-- What is recorded of a row of errors: how many they are, and the sums of their sizes and of themselves. -/
theorem record_errors (errors : List F) (accumulator : Accumulator F) :
    errors.foldl Accumulator.record accumulator =
      { events := accumulator.events + errors.length
        absErrorSum := (errors.map fun error => if error < 0 then -error else error).foldl (· + ·)
          accumulator.absErrorSum
        signedErrorSum := errors.foldl (· + ·) accumulator.signedErrorSum } := by
  induction errors generalizing accumulator with
  | nil => rfl
  | cons error errors ih =>
    rw [List.foldl_cons, ih, List.map_cons, List.foldl_cons, List.foldl_cons, List.length_cons]
    have counted : accumulator.events + 1 + errors.length = accumulator.events + (errors.length + 1) := by omega
    rw [← counted]
    rfl

/-- A settled score records one error of every candidate, and changes nothing else of it. -/
theorem settle_getElem? {candidates : List (Candidate F)} (full : score.fairValues.length = candidates.length)
    (place : Nat) : (settle trade candidates score)[place]? = candidates[place]?.map fun candidate =>
      { candidate with
        accumulator := (errorAt place (score, trade)).toList.foldl Accumulator.record candidate.accumulator } := by
  unfold settle errorAt
  rw [List.getElem?_zipWith]
  by_cases within : place < candidates.length
  · rw [List.getElem?_eq_getElem within, List.getElem?_eq_getElem (full ▸ within)]
    rfl
  · rw [List.getElem?_eq_none (not_lt.mp within)]
    rfl

theorem settle_length {candidates : List (Candidate F)} (full : score.fairValues.length = candidates.length) :
    (settle trade candidates score).length = candidates.length := by
  unfold settle
  rw [List.length_zipWith, full, min_self]

/-- The candidates once every score of a list has been settled by its print. -/
def settleAll (candidates : List (Candidate F)) (grades : List (PendingScore F × PublicTrade)) : List (Candidate F) :=
  grades.foldl (fun candidates grade => settle grade.2 candidates grade.1) candidates

theorem settleAll_getElem? {candidates : List (Candidate F)} {grades : List (PendingScore F × PublicTrade)}
    (full : ∀ grade ∈ grades, grade.1.fairValues.length = candidates.length) (place : Nat) :
    (settleAll candidates grades)[place]? = candidates[place]?.map fun candidate =>
      { candidate with
        accumulator := (grades.filterMap (errorAt place)).foldl Accumulator.record candidate.accumulator } := by
  induction grades generalizing candidates with
  | nil => exact Option.map_id'.symm
  | cons grade grades ih =>
    have first := full grade List.mem_cons_self
    have later : ∀ other ∈ grades, other.1.fairValues.length = (settle grade.2 candidates grade.1).length :=
      fun other member => (full other (List.mem_cons_of_mem _ member)).trans (settle_length first).symm
    have split : (grade :: grades).filterMap (errorAt place) =
        (errorAt place grade).toList ++ grades.filterMap (errorAt place) := by
      cases found : errorAt place grade <;> simp [found]
    change (settleAll (settle grade.2 candidates grade.1) grades)[place]? = _
    rw [ih later, settle_getElem? first, Option.map_map, split]
    simp only [List.foldl_append]
    rfl

/-- Settling changes nothing of a candidate but its marks. -/
theorem settleAll_unmarked {candidates : List (Candidate F)} {grades : List (PendingScore F × PublicTrade)}
    (full : ∀ grade ∈ grades, grade.1.fairValues.length = candidates.length) :
    (settleAll candidates grades).map Candidate.unmarked = candidates.map Candidate.unmarked := by
  apply List.ext_getElem?
  intro place
  rw [List.getElem?_map, List.getElem?_map, settleAll_getElem? full, Option.map_map]
  rfl

/-- Every grade finds an error of a candidate that is there. -/
theorem errorAt_length {grades : List (PendingScore F × PublicTrade)} {count place : Nat}
    (full : ∀ grade ∈ grades, grade.1.fairValues.length = count) (within : place < count) :
    (grades.filterMap (errorAt place)).length = grades.length := by
  induction grades with
  | nil => rfl
  | cons grade grades ih =>
    have scored : place < grade.1.fairValues.length := full grade List.mem_cons_self ▸ within
    have found : errorAt place grade = some (grade.1.fairValues[place] - (grade.2.yesPriceCents : F)) := by
      unfold errorAt
      rw [List.getElem?_eq_getElem scored]
      rfl
    rw [List.filterMap_cons_some found, List.length_cons, List.length_cons,
      ih fun other member => full other (List.mem_cons_of_mem _ member)]

end

omit [Floating F] in
theorem waiting_append (ticker : Ticker) (fates more : List (Fate F)) :
    waiting ticker (fates ++ more) = waiting ticker fates ++ waiting ticker more := by
  unfold waiting
  rw [List.filter_append, List.map_append]

/-! ### One more print -/

section

variable {trade : PublicTrade}

omit [Floating F] in
theorem waits_seeing (ticker : Ticker) (fate : Fate F) :
    (fate.seeing (.trade trade)).waits ticker =
      (fate.waits ticker && !(trade.marketTicker == ticker && isDue trade fate.score)) := by
  unfold Fate.waits Fate.seeing isDue
  cases fate.gradedBy with
  | some other => simp
  | none =>
    simp only [Option.none_or, BacktestEvent.print?, Option.filter, settlesOn, Option.isNone_none, Bool.and_true]
    by_cases on : fate.ticker = ticker
    · subst on
      by_cases due : trade.marketTicker = fate.ticker ∧ fate.score.deadline ≤ trade.timestamp
      · simp [due.1, due.2]
      · rw [not_and] at due
        by_cases here : trade.marketTicker = fate.ticker
        · simp [here, due here]
        · simp [here]
    · rw [show (fate.ticker == ticker) = false from beq_eq_false_iff_ne.mpr on, Bool.false_and, Bool.false_and]

omit [Floating F] in
theorem waiting_seeing (ticker : Ticker) (fates : List (Fate F)) :
    waiting ticker (fates.map (Fate.seeing (.trade trade))) =
      (waiting ticker fates).filter fun score => !(trade.marketTicker == ticker && isDue trade score) := by
  unfold waiting
  rw [List.filter_map, List.map_map, List.filter_map, List.filter_filter]
  congr 1
  apply List.filter_congr
  intro fate _
  simp only [Function.comp_apply, waits_seeing, Bool.and_comm]

omit [Floating F] in
/-- The new grades are those of the scores that have waited for this print. -/
theorem graded_seeing (fates : List (Fate F)) :
    ((fates.map (Fate.seeing (.trade trade))).filterMap Fate.graded).Perm
      (fates.filterMap Fate.graded ++
        ((waiting trade.marketTicker fates).filter (isDue trade)).map fun score => (score, trade)) := by
  induction fates with
  | nil => exact List.Perm.refl _
  | cons fate fates ih =>
    unfold waiting at ih ⊢
    -- a score that was graded before waits no more, and keeps its print
    cases marked : fate.gradedBy with
    | some other =>
      have kept : (fate.seeing (.trade trade)).graded = some (fate.score, other) := by
        simp [Fate.seeing, Fate.graded, marked]
      have before : fate.graded = some (fate.score, other) := by simp [Fate.graded, marked]
      have idle : ¬ fate.waits trade.marketTicker = true := by simp [Fate.waits, marked]
      rw [List.map_cons, List.filterMap_cons_some kept, List.filterMap_cons_some before, List.filter_cons_of_neg idle,
        List.cons_append]
      exact ih.cons _
    | none =>
      have before : fate.graded = none := by simp [Fate.graded, marked]
      rw [List.map_cons, List.filterMap_cons_none before]
      by_cases on : fate.ticker = trade.marketTicker
      · have waits : fate.waits trade.marketTicker = true := by simp [Fate.waits, marked, on]
        rw [List.filter_cons_of_pos waits, List.map_cons]
        -- an early print leaves the score waiting
        by_cases due : isDue trade fate.score = true
        · have now : (fate.seeing (.trade trade)).graded = some (fate.score, trade) := by
            have late := of_decide_eq_true due
            simp [Fate.seeing, Fate.graded, marked, BacktestEvent.print?, Option.filter, settlesOn, on, late]
          rw [List.filterMap_cons_some now, List.filter_cons_of_pos due, List.map_cons]
          exact (ih.cons _).trans List.perm_middle.symm
        · have still : (fate.seeing (.trade trade)).graded = none := by
            have early : ¬ fate.score.deadline ≤ trade.timestamp := fun late => due (decide_eq_true late)
            simp [Fate.seeing, Fate.graded, marked, BacktestEvent.print?, Option.filter, settlesOn, on, early]
          rw [List.filterMap_cons_none still, List.filter_cons_of_neg due]
          exact ih
      · have idle : ¬ fate.waits trade.marketTicker = true := by simp [Fate.waits, marked, on]
        have still : (fate.seeing (.trade trade)).graded = none := by
          simp [Fate.seeing, Fate.graded, marked, BacktestEvent.print?, Option.filter, settlesOn, Ne.symm on]
        rw [List.filterMap_cons_none still, List.filter_cons_of_neg idle]
        exact ih

end

/-! ### The replay -/

section

variable [Power F] {b s : FvBacktest F} {events : List (BacktestEvent F)}

/-- The replay as a stream has left it. -/
structure Follows (b : FvBacktest F) (events : List (BacktestEvent F)) (s : FvBacktest F) : Prop where
  config : s.config = b.config
  unmarked : s.candidates.map Candidate.unmarked = b.candidates.map Candidate.unmarked
  books : s.books = booksAfter events
  tapes : s.tapes = b.tapes.map (tapeAfter events)
  pending : ∀ ticker, s.pendingByTicker ticker = waiting ticker (b.fates events)
  graded : ∃ grades, grades.Perm ((b.fates events).filterMap Fate.graded) ∧
    s.candidates = settleAll b.candidates grades

omit [Floating F] [Power F] in
theorem booksAfter_append (events : List (BacktestEvent F)) (event : BacktestEvent F) :
    booksAfter (events ++ [event]) = bookStep (booksAfter events) event := by
  unfold booksAfter
  rw [List.foldl_append, List.foldl_cons, List.foldl_nil]

omit [Power F] in
theorem tapesAfter_append (tapes : List (TradeTape F)) (events : List (BacktestEvent F)) (event : BacktestEvent F) :
    tapes.map (tapeAfter (events ++ [event])) = (tapes.map (tapeAfter events)).map (tapeStep · event) := by
  rw [List.map_map]
  congr 1
  funext tape
  simp only [tapeAfter, List.foldl_append, List.foldl_cons, List.foldl_nil, Function.comp_apply]

/-- What the replay queues depends on the stream before the print alone. -/
theorem Follows.queueScores (follows : Follows b events s) (trade : PublicTrade) :
    s.queueScores trade = { s with
      pendingByTicker := Function.update s.pendingByTicker trade.marketTicker
        (waiting trade.marketTicker (b.fates events) ++ (b.queued events trade).toList) } := by
  have nothing : s = { s with
      pendingByTicker := Function.update s.pendingByTicker trade.marketTicker
        (waiting trade.marketTicker (b.fates events) ++ (none : Option (PendingScore F)).toList) } := by
    rw [Option.toList_none, List.append_nil, ← follows.pending, Function.update_eq_self]
  have prices : ∀ book, s.candidates.map (fun candidate => s.fairValueOf candidate book trade) =
      b.candidates.map fun candidate => fairValueOf { b with tapes := b.tapes.map (tapeAfter events) } candidate book
        (blankPrint trade.marketTicker trade.timestamp) := by
    intro book
    -- a price goes by the configuration and the tapes, and by a candidate without its marks
    have price : ∀ candidate, s.fairValueOf candidate book trade =
        fairValueOf { b with tapes := b.tapes.map (tapeAfter events) } candidate.unmarked book
          (blankPrint trade.marketTicker trade.timestamp) := by
      intro candidate
      unfold fairValueOf
      rw [follows.config, follows.tapes]
      rfl
    have both := congrArg (List.map fun candidate =>
      fairValueOf { b with tapes := b.tapes.map (tapeAfter events) } candidate book
        (blankPrint trade.marketTicker trade.timestamp)) follows.unmarked
    rw [List.map_map, List.map_map] at both
    simp only [price]
    exact both
  unfold FvBacktest.queueScores queued
  rw [show s.books trade.marketTicker = booksAfter events trade.marketTicker from congrFun follows.books _]
  cases booksAfter events trade.marketTicker with
  | none => exact nothing
  | some book =>
    dsimp only
    split
    · exact nothing
    · rw [prices, follows.pending, follows.config]
      rfl

theorem Follows.quiet (follows : Follows b events s) {event : BacktestEvent F} (quiet : event.print? = none)
    {t : FvBacktest F} (books : t.books = bookStep s.books event) (tapes : t.tapes = s.tapes.map (tapeStep · event))
    (others : t.config = s.config ∧ t.candidates = s.candidates ∧ t.pendingByTicker = s.pendingByTicker) :
    Follows b (events ++ [event]) t := by
  have same : b.fates (events ++ [event]) = b.fates events := by
    have kept : (b.fates events).map (Fate.seeing event) = b.fates events := by
      rw [List.map_congr_left fun fate _ => Fate.seeing_other quiet fate, List.map_id']
    have absent : b.arriving events event = [] := by
      unfold arriving
      rw [quiet]
      rfl
    rw [fates_append, kept, absent, List.append_nil]
  constructor
  · exact others.1.trans follows.config
  · rw [others.2.1]
    exact follows.unmarked
  · rw [books, follows.books, booksAfter_append]
  · rw [tapes, follows.tapes, tapesAfter_append]
  · intro ticker
    rw [others.2.2, same]
    exact follows.pending ticker
  · rw [others.2.1, same]
    exact follows.graded

/-- The scores in front of the queue that are due are all that are due, and what a print has just queued is not. -/
theorem queue_parted (horizon : 1 ≤ b.config.scoreHorizonSeconds) (ordered : PrintsOrdered events)
    (trade : PublicTrade) :
    let waiting := waiting trade.marketTicker (b.fates events)
    let queued := (b.queued events trade).toList
    (waiting ++ queued).takeWhile (isDue trade) = waiting.filter (isDue trade) ∧
      (waiting ++ queued).dropWhile (isDue trade) = (waiting.filter fun score => !isDue trade score) ++ queued := by
  have early : ∀ score ∈ (b.queued events trade).toList, isDue trade score = false := by
    intro score member
    exact not_due_of_horizon horizon (b.queued_deadline (Option.mem_toList.mp member)).1
  -- the queue is in the order of the prints, and so of the deadlines
  have parted : LowerBound.Partitioned (isDue trade)
      (waiting trade.marketTicker (b.fates events) ++ (b.queued events trade).toList) := by
    refine List.pairwise_append.mpr ⟨?_, ?_, ?_⟩
    · refine List.pairwise_map.mpr (((b.fates_ordered ordered).sublist List.filter_sublist).imp_of_mem ?_)
      intro fate later first second sooner late
      have on := (List.mem_filter.mp first).2
      have on' := (List.mem_filter.mp second).2
      simp only [Fate.waits, Bool.and_eq_true, beq_iff_eq] at on on'
      exact decide_eq_true ((sooner (on.1.trans on'.1.symm)).trans (of_decide_eq_true late))
    · cases b.queued events trade <;> simp
    · intro score _ new member late
      exact absurd late (by simp [early new member])
  constructor
  · have absent : (b.queued events trade).toList.filter (isDue trade) = [] :=
      List.filter_eq_nil_iff.mpr fun score member => by simp [early score member]
    rw [parted.takeWhile_eq_filter, List.filter_append, absent, List.append_nil]
  · have all : (b.queued events trade).toList.filter (fun score => !isDue trade score) =
        (b.queued events trade).toList :=
      List.filter_eq_self.mpr fun score member => by simp [early score member]
    rw [parted.dropWhile_eq_filter, List.filter_append, all]

/-- A print grades what has waited for it, and is queued itself. -/
theorem Follows.onTrade (follows : Follows b events s) (horizon : 1 ≤ b.config.scoreHorizonSeconds)
    {trade : PublicTrade} (ordered : PrintsOrdered events) :
    Follows b (events ++ [.trade trade]) (s.onTrade trade) := by
  have arrived : b.arriving events (.trade trade) =
      ((b.queued events trade).map fun score => (⟨trade.marketTicker, score, none⟩ : Fate F)).toList := rfl
  obtain ⟨due, rest⟩ := queue_parted horizon ordered trade
  obtain ⟨grades, permuted, settled⟩ := follows.graded
  let later := ((waiting trade.marketTicker (b.fates events)).filter (isDue trade)).map fun score => (score, trade)
  -- the queue is extended first and resolved then
  have ran : s.onTrade trade = { s with
      candidates := settleAll b.candidates (grades ++ later)
      tapes := s.tapes.map fun tape => tape.recordTrade trade
      pendingByTicker := Function.update s.pendingByTicker trade.marketTicker
        (((waiting trade.marketTicker (b.fates events)).filter fun score => !isDue trade score) ++
          (b.queued events trade).toList) } := by
    unfold FvBacktest.onTrade resolvePending
    rw [follows.queueScores]
    dsimp only
    rw [Function.update_self, Function.update_idem, due, rest]
    unfold settleAll at settled ⊢
    rw [List.foldl_append, List.foldl_map, ← settled]
  have graded : (grades ++ later).Perm ((b.fates (events ++ [.trade trade])).filterMap Fate.graded) := by
    have absent : (b.arriving events (.trade trade)).filterMap Fate.graded = [] := by
      rw [arrived]
      cases b.queued events trade <;> rfl
    rw [fates_append, List.filterMap_append, absent, List.append_nil]
    exact (permuted.append_right later).trans (graded_seeing _).symm
  have full : ∀ grade ∈ grades ++ later, grade.1.fairValues.length = b.candidates.length := by
    intro grade member
    obtain ⟨fate, among, marked⟩ := List.mem_filterMap.mp (graded.mem_iff.mp member)
    obtain ⟨_, _, rfl⟩ := Option.map_eq_some_iff.mp marked
    exact (b.fate_print among).2
  rw [ran]
  constructor
  · exact follows.config
  · exact settleAll_unmarked full
  · rw [booksAfter_append]
    exact follows.books
  · rw [tapesAfter_append, ← follows.tapes]
    rfl
  · intro ticker
    dsimp only
    rw [fates_append, waiting_append, waiting_seeing, arrived]
    by_cases on : ticker = trade.marketTicker
    · subst on
      rw [Function.update_self]
      cases b.queued events trade <;> simp [waiting, Fate.waits]
    · have other : (trade.marketTicker == ticker) = false := beq_eq_false_iff_ne.mpr (Ne.symm on)
      rw [Function.update_of_ne on, follows.pending]
      simp only [other, Bool.false_and, Bool.not_false, List.filter_true]
      cases b.queued events trade <;> simp [waiting, Fate.waits, other]
  · exact ⟨_, graded, rfl⟩

end

section

variable [Power F] (shown : F → String) (config : FvBacktestConfig F)

theorem make_follows : Follows (make shown config) [] (make shown config) := by
  constructor
  · rfl
  · rfl
  · rfl
  · exact (List.map_id' _).symm
  · exact fun ticker => rfl
  · exact ⟨[], List.Perm.refl _, rfl⟩

omit [Power F] in
theorem buildCandidates_fresh : ∀ candidate ∈ buildCandidates shown config, candidate.accumulator = {} := by
  intro candidate member
  unfold buildCandidates at member
  obtain ⟨⟨anchor, index⟩, _, member⟩ := List.mem_flatMap.mp member
  rcases List.mem_cons.mp member with rfl | member
  · rfl
  · obtain ⟨weight, _, member⟩ := List.mem_flatMap.mp member
    split at member
    · cases member
    · obtain ⟨halfLife, _, member⟩ := List.mem_flatMap.mp member
      obtain ⟨⟨own, tape⟩, _, rfl⟩ := List.mem_map.mp member
      rfl

theorem run_follows (horizon : 1 ≤ config.scoreHorizonSeconds) {events : List (BacktestEvent F)}
    (ordered : PrintsOrdered events) : Follows (make shown config) events ((make shown config).run events) := by
  induction events using List.reverseRecOn with
  | nil => exact make_follows shown config
  | append_singleton events event ih =>
    unfold PrintsOrdered at ordered
    rw [trades_append, List.pairwise_append] at ordered
    have follows := ih ordered.1
    unfold run at follows ⊢
    rw [List.foldl_append, List.foldl_cons, List.foldl_nil]
    cases event with
    | snapshot snapshot => exact follows.quiet rfl rfl (List.map_id' _).symm ⟨rfl, rfl, rfl⟩
    | delta ticker side priceCents delta => exact follows.quiet rfl rfl (List.map_id' _).symm ⟨rfl, rfl, rfl⟩
    | trade trade => exact follows.onTrade horizon ordered.1
    | fill fill => exact follows.quiet rfl rfl rfl ⟨rfl, rfl, rfl⟩

/-- The queues hold the scores still without a grade. The grades, in some order, are what every candidate is judged
by: as many events as there are grades, and the sums, signed and absolute, of what its fair values in the graded
scores are off the grading prints. -/
theorem scores_graded_once (horizon : 1 ≤ config.scoreHorizonSeconds) {events : List (BacktestEvent F)}
    (ordered : PrintsOrdered events) :
    let start := make shown config
    let fates := start.fates events
    let backtest := start.run events
    (∀ fate ∈ fates, fate.score.fairValues.length = start.candidates.length) ∧
    (∀ ticker, backtest.pendingByTicker ticker = waiting ticker fates) ∧
    backtest.candidates.map Candidate.unmarked = start.candidates.map Candidate.unmarked ∧
    ∃ grades : List (PendingScore F × PublicTrade), grades.Perm (fates.filterMap Fate.graded) ∧
      ∀ place candidate, backtest.candidates[place]? = some candidate →
        let errors := grades.filterMap (errorAt place)
        errors.length = grades.length ∧ candidate.accumulator.events = grades.length ∧
          candidate.accumulator.signedErrorSum = errors.foldl (· + ·) 0 ∧
          candidate.accumulator.absErrorSum =
            (errors.map fun error => if error < 0 then -error else error).foldl (· + ·) 0 := by
  intro start fates backtest
  have follows := run_follows shown config horizon ordered
  obtain ⟨grades, permuted, settled⟩ := follows.graded
  have full : ∀ fate ∈ fates, fate.score.fairValues.length = start.candidates.length :=
    fun fate member => (start.fate_print member).2
  have each : ∀ grade ∈ grades, grade.1.fairValues.length = start.candidates.length := by
    intro grade member
    obtain ⟨fate, among, marked⟩ := List.mem_filterMap.mp (permuted.mem_iff.mp member)
    obtain ⟨_, _, rfl⟩ := Option.map_eq_some_iff.mp marked
    exact full fate among
  refine ⟨full, follows.pending, follows.unmarked, grades, permuted, fun place candidate found => ?_⟩
  change ((make shown config).run events).candidates[place]? = _ at found
  rw [settled, settleAll_getElem? each] at found
  obtain ⟨initial, placed, rfl⟩ := Option.map_eq_some_iff.mp found
  have fresh : initial.accumulator = {} :=
    buildCandidates_fresh shown config initial (List.mem_of_getElem? placed)
  have count := errorAt_length each (List.getElem?_eq_some_iff.mp placed).1
  dsimp only
  rw [record_errors, fresh, count]
  exact ⟨rfl, zero_add _, rfl, rfl⟩

end

/-- Three prints of one market: the third grades the first's score, and its own and the second's stay queued. -/
theorem scores_graded_once_minute :
    let config : FvBacktestConfig ℚ :=
      { anchors := [{ label := "micro", useMicro := true }]
        tapeWeights := [1 / 2]
        tapeHalfLifeSeconds := [30]
        ownFillWeights := [0] }
    let print : String → Int → Int → PublicTrade := fun id price seconds =>
      ⟨id, "M", price, ⟨500⟩, .yes, seconds * nanosPerSecond⟩
    let events : List (BacktestEvent ℚ) :=
      [.snapshot { ticker := "M", yes := [⟨60, ⟨1000⟩⟩], no := [⟨36, ⟨1000⟩⟩] }, .trade (print "t1" 63 0),
        .trade (print "t2" 64 10), .trade (print "t3" 65 35)]
    let backtest := (make (fun _ => "0.5") config).run events
    (backtest.pendingByTicker "M").length = 2 ∧
      ∀ (place : Nat) (candidate : Candidate ℚ), backtest.candidates[place]? = some candidate →
        candidate.accumulator.events = 1 ∧ candidate.accumulator.signedErrorSum = -3 ∧
          candidate.accumulator.absErrorSum = 3 := by
  intro config print events backtest
  have ordered : PrintsOrdered events := by
    unfold PrintsOrdered
    decide
  obtain ⟨_, pending, same, grades, permuted, judged⟩ :=
    scores_graded_once (fun _ => "0.5") config (by decide) ordered
  constructor
  · rw [pending "M"]
    decide +kernel
  · -- the one grade is at a price of 65, of a score at 62 for either candidate
    have marked : (((make (fun _ => "0.5") config).fates events).filterMap Fate.graded).map
        (fun grade => (grade.1.fairValues, grade.2.yesPriceCents)) = [([62, 62], 65)] := by decide +kernel
    obtain ⟨grade, single, priced⟩ := List.map_eq_singleton_iff.mp marked
    obtain ⟨values, price⟩ := Prod.ext_iff.mp priced
    rw [single] at permuted
    obtain rfl := List.perm_singleton.mp permuted
    intro place candidate found
    obtain ⟨_, counted, signed, absolute⟩ := judged place candidate found
    have within : place < (make (fun _ => "0.5") config).candidates.length := by
      rw [← List.length_map, ← same, List.length_map]
      exact (List.getElem?_eq_some_iff.mp found).1
    have off : errorAt place grade = some (-3) := by
      unfold errorAt
      dsimp only at values price
      rw [values, price]
      have two : (make (fun _ => "0.5") config).candidates.length = 2 := by decide +kernel
      obtain rfl | rfl : place = 0 ∨ place = 1 := by omega
      · decide +kernel
      · decide +kernel
    rw [List.filterMap_cons_some off, List.filterMap_nil] at signed absolute
    refine ⟨counted, ?_, ?_⟩
    · rw [signed]
      decide +kernel
    · rw [absolute]
      decide +kernel

end FvBacktest

end Kalshi
