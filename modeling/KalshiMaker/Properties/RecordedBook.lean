import KalshiMaker.Engine.BookLevels
import KalshiMaker.Engine.Looks
import KalshiMaker.Properties.ReplayedSlots

/-! What a replay prices off: the book of the recorded frames, less the levels its own paper orders
happen to share a price with. -/
namespace Kalshi

open Effect Eff Desk Relation TradingSession

/-! ### The recorded book -/

/-- One market's book after a frame. -/
def Frame.record (ticker : Ticker) (book : LocalOrderbook) : Frame → LocalOrderbook
  | .snapshot seed => if seed.ticker = ticker then LocalOrderbook.applySnapshot seed else book
  | .delta other side priceCents qty =>
    if other = ticker then book.applyDelta side priceCents qty else book
  | .trade _ => book

/-- The book that the recorded snapshots and deltas of a market add up to. -/
def recordedBook (capture : List Frame) (ticker : Ticker) : LocalOrderbook :=
  capture.foldl (Frame.record ticker) {}

theorem recordedBook_sorted (capture : List Frame) (ticker : Ticker) : (recordedBook capture ticker).Sorted := by
  refine Run.invariant LocalOrderbook.Sorted (fun book frame sorted => ?_) ?_ capture
  · cases frame with
    | snapshot snapshot =>
      rw [Frame.record]
      split
      · exact LocalOrderbook.applySnapshot_sorted snapshot
      · exact sorted
    | delta other side priceCents qty =>
      rw [Frame.record]
      split
      · exact LocalOrderbook.applyDelta_sorted sorted side priceCents qty
      · exact sorted
    | trade print => exact sorted
  · intro side
    cases side <;> exact List.Pairwise.nil

section

variable {F X : Type} [Floating F]

/-- What a frame does to the books, and the looks it makes the quoter take. -/
structure Desk.Replays (s s' : Desk F X) (frame : Frame) : Prop where
  books : ∀ ticker, s'.session.book ticker = frame.record ticker (s.session.book ticker)
  looks : ∃ news, s'.priced = s.priced ++ news ∧
    ∀ entry ∈ news, entry = s.pricing entry.ticker (s'.session.book entry.ticker)

end

section

variable {F Y : Type} [Floating F] (world : Host Y) (rest : RestClient)

theorem fillCrossable_shown (print : PublicTrade) (targets : List Crossable) (printRemaining : Int)
    (s : Desk F (PaperWorld F Y)) : (fillCrossable world print targets printRemaining s).2.shown = s.shown := by
  refine Leads.unmoved ?_
  induction targets generalizing printRemaining s with
  | nil => exact Leads.quiet rfl
  | cons target targets ih =>
    rw [fillCrossable]
    refine Leads.ite (fun _ => Leads.quiet rfl) (fun _ => Leads.ite (fun _ => ih _ s) (fun _ => ?_))
    refine Leads.bind (Leads.quiet rfl) (fun filled s₁ _ => Leads.ite (fun _ => ?_) (fun _ => ih _ s₁))
    refine Leads.bind (Leads.quiet rfl) (fun s₀ s₂ _ => ?_)
    refine Leads.bind (Leads.quiet ?_) (fun new s₃ _ => ?_)
    · have same := onFill_market (simFill print target (min printRemaining target.remaining)
        s₀.outside.paper.fills.length) s₂
      exact congrArg (fun market => (market.2.1.obMap, market.2.2)) same
    · exact Leads.bind (ih _ s₃) (fun count s₄ _ => Leads.quiet rfl)

theorem handleFrame_replays (frame : Frame) (s : Desk F (PaperWorld F Y)) :
    s.Replays (handleFrame world rest frame s).2 frame := by
  cases frame with
  | snapshot snapshot =>
    have unfolded : handleFrame world rest (.snapshot snapshot) s =
        (if s.session.isTracked snapshot.ticker then onSnapshot (paperVenue rest world) snapshot
        else addMarket (paperVenue rest world) snapshot) s := rfl
    rw [unfolded]
    split
    · exact ⟨book_of_insert rfl, [], (List.append_nil _).symm, by simp⟩
    · have seeded := seedOrderbook_shown (paperVenue rest world) snapshot
        { s with session := s.session.adopt snapshot.ticker }
      have kept : (s.session.adopt snapshot.ticker).obMap = s.session.obMap := by
        unfold TradingSession.adopt
        split <;> rfl
      have books := congrArg Prod.fst seeded
      dsimp only at books
      rw [kept] at books
      rw [addMarket_eq]
      refine ⟨book_of_insert books, [_], congrArg Prod.snd seeded, fun entry member => ?_⟩
      rw [List.mem_singleton.mp member]
      have here := book_of_insert books snapshot.ticker
      rw [if_pos rfl] at here
      exact congrArg (s.pricing snapshot.ticker) here.symm
  | delta ticker side priceCents qty =>
    obtain ⟨books, looks⟩ := onDelta_shown (paperVenue rest world) ticker side priceCents qty s
    have here := book_of_insert books
    refine ⟨fun other => ?_, ?_⟩
    · refine (here other).trans ?_
      rw [Frame.record]
      split
      next same => rw [same]
      · rfl
    · rcases looks with none | one
      · exact ⟨[], none.trans (List.append_nil _).symm, by simp⟩
      · refine ⟨[_], one, fun entry member => ?_⟩
        rw [List.mem_singleton.mp member]
        have same := here ticker
        rw [if_pos rfl] at same
        exact congrArg (s.pricing ticker) same.symm
  | trade print =>
    have unshown : (handleFrame world rest (.trade print) s).2.shown = s.shown := by
      refine Leads.unmoved ?_
      refine Leads.bind (Leads.quiet ?_) (fun _ s₁ _ => Leads.quiet rfl)
      exact fillCrossable_shown world print _ _ s
    refine ⟨fun ticker => ?_, [], ?_, by simp⟩
    · unfold TradingSession.book
      rw [show (handleFrame world rest (.trade print) s).2.session.obMap = s.session.obMap from
        congrArg Prod.fst unshown]
      rfl
    · rw [List.append_nil]
      exact congrArg Prod.snd unshown

end

/-! ### What the own-quote subtraction removes -/

section

variable {F X : Type} [Floating F]

theorem withoutOwn_levels (s : Desk F X) (side other : Side) (ticker : Ticker) (book : LocalOrderbook) :
    (s.withoutOwn (legOf side) ticker book).levels other =
      if other = side then
        match s.ownOrder (s.quoter.ownQuotes ticker side) with
        | some order => LocalOrderbook.shiftLevel (book.levels side)
            ((legOf side).orderPrice (s.quoter.ownQuotes ticker side).quotedCents) (-order.remainingQuantity)
        | none => book.levels side
      else book.levels other := by
  unfold withoutOwn
  simp only [legOf_side]
  cases s.ownOrder (s.quoter.ownQuotes ticker side) with
  | some order => exact book.levels_applyDelta side other _ _
  | none =>
    dsimp only
    split
    next same => rw [same]
    next => rfl

theorem withoutOwn_ticker (s : Desk F X) (leg : QuoteLeg) (ticker : Ticker) (book : LocalOrderbook) :
    (s.withoutOwn leg ticker book).state.ticker = book.state.ticker := by
  unfold withoutOwn
  dsimp only
  split
  · exact book.ticker_applyDelta _ _ _
  · rfl

theorem bookWithoutOwnQuotes_levels (s : Desk F X) (ticker : Ticker) (book : LocalOrderbook) (side : Side) :
    (s.bookWithoutOwnQuotes ticker book).levels side = (s.withoutOwn (legOf side) ticker book).levels side := by
  have bid := withoutOwn_levels s .yes
  have ask := withoutOwn_levels s .no
  simp only [legOf] at bid ask
  unfold bookWithoutOwnQuotes
  cases side with
  | yes => rw [ask, if_neg (by decide), legOf]
  | no =>
    rw [legOf, ask, ask, bid]
    simp

/-- The subtraction changes nothing on one side exactly if no level is at the price of the own order. -/
theorem withoutOwn_eq_iff {s : Desk F X} (agrees : s.ledger.Agrees)
    (left : ∀ id order, s.ledger.order? id = some order → 0 < order.remainingQuantity.centi)
    {book : LocalOrderbook} (sorted : book.Sorted) (ticker : Ticker) (side : Side) :
    (s.withoutOwn (legOf side) ticker book).levels side = book.levels side ↔
      ∀ order, s.ownOrder (s.quoter.ownQuotes ticker side) = some order →
        ∀ level ∈ book.levels order.side, level.priceCents ≠ order.priceCents := by
  rw [withoutOwn_levels, if_pos rfl]
  cases own : s.ownOrder (s.quoter.ownQuotes ticker side) with
  | none => simp
  | some order =>
    have held : (s.quoter.ownQuotes ticker side).orderId ≠ "" := by
      intro empty
      rw [ownOrder, if_pos empty] at own
      cases own
    have found : s.ledger.order? (s.quoter.ownQuotes ticker side).orderId = some order := by
      rw [ownOrder, if_neg held] at own
      exact own
    obtain ⟨same, opened, _, sided, priced⟩ := agrees ticker side held
    cases found.symm.trans opened
    have negative : (-order.remainingQuantity).centi < 0 := by
      have := left _ order found
      rw [Quantity.neg_centi]
      omega
    dsimp only
    rw [LocalOrderbook.shiftLevel_eq_self_iff (sorted side) _ negative]
    constructor
    · rintro apart _ ⟨⟩ level member
      rw [sided] at member
      exact priced ▸ apart level member
    · intro apart level member
      have := apart order rfl level (sided.symm ▸ member)
      exact priced ▸ this

theorem bookWithoutOwnQuotes_eq_iff {s : Desk F X} (agrees : s.ledger.Agrees)
    (left : ∀ id order, s.ledger.order? id = some order → 0 < order.remainingQuantity.centi)
    {book : LocalOrderbook} (sorted : book.Sorted) (ticker : Ticker) :
    s.bookWithoutOwnQuotes ticker book = book ↔
      ∀ order ∈ s.restingOwn ticker, ∀ level ∈ book.levels order.side, level.priceCents ≠ order.priceCents := by
  have sides : s.bookWithoutOwnQuotes ticker book = book ↔
      ∀ side, (s.withoutOwn (legOf side) ticker book).levels side = book.levels side := by
    constructor
    · intro same side
      rw [← bookWithoutOwnQuotes_levels, same]
    · intro same
      refine LocalOrderbook.ext_levels ?_ fun side =>
        (bookWithoutOwnQuotes_levels s ticker book side).trans (same side)
      unfold bookWithoutOwnQuotes
      rw [withoutOwn_ticker, withoutOwn_ticker]
  rw [sides]
  constructor
  · intro same order resting
    obtain ⟨side, _, own⟩ := List.mem_filterMap.mp resting
    exact (withoutOwn_eq_iff agrees left sorted ticker side).mp (same side) order own
  · intro apart side
    refine (withoutOwn_eq_iff agrees left sorted ticker side).mpr fun order own => apart order ?_
    exact List.mem_filterMap.mpr ⟨side, by cases side <;> simp, own⟩

end

/-! ### Replays -/

section

variable [Elementary ℚ] {Y : Type} (world : Host Y) (rest : RestClient) (config : QuoterConfig ℚ)
  (limits : RiskLimits ℚ) (flow : FlowImbalanceConfig ℚ) (y : Y)

theorem runBacktestMode_snoc (seen : List Frame) (frame : Frame) :
    runBacktestMode world rest config limits flow y (seen ++ [frame]) =
      (runBacktestMode world rest config limits flow y seen).injectFrame world rest frame :=
  List.foldl_concat ..

/-- While a replay lasts, its books are the recorded ones. -/
theorem replay_books (seen : List Frame) :
    (runBacktestMode world rest config limits flow y seen).desk.ledger.OnPaper
        (runBacktestMode world rest config limits flow y seen).desk.outside.paper ∧
      ((runBacktestMode world rest config limits flow y seen).alive = true → ∀ ticker,
        (runBacktestMode world rest config limits flow y seen).desk.session.book ticker =
          recordedBook seen ticker) := by
  induction seen using List.reverseRecOn with
  | nil =>
    refine ⟨⟨?_, ?_, List.nodup_nil, ?_, ?_, ?_, ?_⟩, fun _ _ => rfl⟩
    · exact fun id order found => by cases found
    · exact fun ticker side held => absurd rfl held
    · exact fun id member => by cases member
    · exact fun order member => by cases member
    · exact fun id order found => by cases found
    · exact fun order member => by cases member
  | append_singleton seen frame ih =>
    obtain ⟨on, books⟩ := ih
    rw [runBacktestMode_snoc]
    -- a process that stopped records no further frame
    rcases injectFrame_cases world rest (runBacktestMode world rest config limits flow y seen) frame
      with ⟨dead, same⟩ | ⟨alive, handled⟩
    · rw [same]
      exact ⟨on, fun alive => absurd (dead.symm.trans alive) (by decide)⟩
    · rw [handled]
      refine ⟨handleFrame_paper world rest frame _ on, fun _ ticker => ?_⟩
      rw [(handleFrame_replays world rest frame _).books, books alive]
      exact (List.foldl_concat ..).symm

/-- Each look of a replay is at the recorded book less what the own paper orders take off it, and that
is the recorded book exactly if none of them rests at the price of a recorded level. -/
theorem replay_prices_recorded_iff (seen : List Frame) (frame : Frame) :
    ∃ news, (runBacktestMode world rest config limits flow y (seen ++ [frame])).desk.priced =
        (runBacktestMode world rest config limits flow y seen).desk.priced ++ news ∧
      ∀ entry ∈ news, (entry.visible = recordedBook (seen ++ [frame]) entry.ticker ↔
        ∀ order ∈ (runBacktestMode world rest config limits flow y seen).desk.restingOwn entry.ticker,
          ∀ level ∈ (recordedBook (seen ++ [frame]) entry.ticker).levels order.side,
            level.priceCents ≠ order.priceCents) := by
  obtain ⟨on, books⟩ := replay_books world rest config limits flow y seen
  rw [runBacktestMode_snoc]
  rcases injectFrame_cases world rest (runBacktestMode world rest config limits flow y seen) frame
    with ⟨dead, same⟩ | ⟨alive, handled⟩
  · rw [same]
    exact ⟨[], (List.append_nil _).symm, by simp⟩
  · obtain ⟨replayed, news, looks, each⟩ := handleFrame_replays world rest frame
      (runBacktestMode world rest config limits flow y seen).desk
    rw [handled]
    refine ⟨news, looks, fun entry member => ?_⟩
    -- the frame is applied to the book before the update prices off it
    have recorded : frame.record entry.ticker
        ((runBacktestMode world rest config limits flow y seen).desk.session.book entry.ticker) =
          recordedBook (seen ++ [frame]) entry.ticker := by
      rw [books alive]
      exact (List.foldl_concat ..).symm
    have look := each entry member
    rw [replayed, recorded] at look
    have visible := congrArg PricedBook.visible look
    dsimp only [Desk.pricing] at visible
    rw [visible]
    exact bookWithoutOwnQuotes_eq_iff on.agrees on.left (recordedBook_sorted _ _) _

end

/-- Others bid at the price of the resting paper bid, and the quoter does not see them. -/
theorem paper_quote_hides_level :
    let capture : List Frame :=
      [.snapshot { ticker := "M", yes := [⟨40, ⟨1000⟩⟩], no := [⟨40, ⟨1000⟩⟩] }, .delta "M" .yes 48 ⟨500⟩]
    let desk := (runBacktestMode Script.host ⟨"exchange"⟩ ({} : QuoterConfig ℚ) {} {} {} capture).desk
    desk.priced.map (fun entry => entry.book.bestBid) = [some ⟨40, ⟨1000⟩⟩, some ⟨48, ⟨500⟩⟩] ∧
      desk.priced.map (fun entry => entry.visible.bestBid) = [some ⟨40, ⟨1000⟩⟩, some ⟨40, ⟨1000⟩⟩] ∧
      ¬ ∀ entry ∈ desk.priced.getLast?, entry.visible = recordedBook capture entry.ticker := by
  decide +kernel

end Kalshi
