import KalshiMaker.Engine.Steps
import KalshiMaker.Exchange.FillFeeds
import KalshiMaker.Exchange.WireFormat
import KalshiMaker.Net.ScriptedHost

/-! Which executions are recorded exactly once, however often and by whichever channel their fills
arrive. -/
namespace Kalshi

open Effect Eff Desk TradingSession

/-! ### What a fill is filed under -/

theorem fillKey_named {F : Type} {fill : Fill F} (named : fill.tradeId ≠ "") :
    OrderManager.fillKey fill = fill.tradeId := if_pos named

theorem fillKey_unnamed {F : Type} {fill : Fill F} (unnamed : fill.tradeId = "") :
    OrderManager.fillKey fill = fill.orderId ++ "@" ++ toString fill.timestamp := if_neg (not_not.mpr unnamed)

/-- Two fills that pass for one: the same trade id, or no trade id and the same order and instant; or a
trade id spelled like the order and instant of a fill that has none. -/
inductive Fill.SameLabel {F : Type} (a b : Fill F) : Prop where
  | named (left : a.tradeId ≠ "") (right : b.tradeId ≠ "") (same : a.tradeId = b.tradeId)
  | unnamed (left : a.tradeId = "") (right : b.tradeId = "") (order : a.orderId = b.orderId)
      (instant : a.timestamp = b.timestamp)
  | spelledRight (left : a.tradeId = "") (right : b.tradeId ≠ "")
      (spelled : b.tradeId = a.orderId ++ "@" ++ toString a.timestamp)
  | spelledLeft (left : a.tradeId ≠ "") (right : b.tradeId = "")
      (spelled : a.tradeId = b.orderId ++ "@" ++ toString b.timestamp)

theorem orderAtInstant_injective {order order' : OrderId} {t t' : TimePoint}
    (same : order ++ "@" ++ toString t = order' ++ "@" ++ toString t') : order = order' ∧ t = t' := by
  have chars := congrArg String.toList same
  simp only [String.toList_append, List.append_assoc] at chars
  obtain ⟨orders, instants⟩ := split_last (toString_int_plain t) (toString_int_plain t') chars
  exact ⟨String.ext orders, toString_int_injective (String.ext instants)⟩

theorem fillKey_eq_iff {F : Type} (a b : Fill F) :
    OrderManager.fillKey a = OrderManager.fillKey b ↔ a.SameLabel b := by
  constructor
  · intro same
    by_cases left : a.tradeId = ""
    · by_cases right : b.tradeId = ""
      · rw [fillKey_unnamed left, fillKey_unnamed right] at same
        obtain ⟨order, instant⟩ := orderAtInstant_injective same
        exact .unnamed left right order instant
      · rw [fillKey_unnamed left, fillKey_named right] at same
        exact .spelledRight left right same.symm
    · by_cases right : b.tradeId = ""
      · rw [fillKey_named left, fillKey_unnamed right] at same
        exact .spelledLeft left right same
      · rw [fillKey_named left, fillKey_named right] at same
        exact .named left right same
  · intro label
    cases label with
    | named left right same => rw [fillKey_named left, fillKey_named right, same]
    | unnamed left right order instant => rw [fillKey_unnamed left, fillKey_unnamed right, order, instant]
    | spelledRight left right spelled => rw [fillKey_unnamed left, fillKey_named right, spelled]
    | spelledLeft left right spelled => rw [fillKey_named left, fillKey_unnamed right, spelled]

/-! ### Executions and their announcements -/

inductive Channel where
  | websocket
  | rest
  deriving DecidableEq, Repr

/-- One execution on a tracked market, as both channels announce it. The REST time is the whole
seconds of the websocket time; a trade id may be missing in either announcement. -/
structure Execution (F : Type) [Floating F] (tickers : List Ticker) where
  message : Json
  object : Json
  announced : Channel → Fill F
  fromMessage : messageFill F message = .ok (announced .websocket)
  fromObject : parseFill F object = .ok (announced .rest)
  sameTexts : ∀ key ∈ termKeys, message.find? key = object.find? key
  sameTrade : (announced .websocket).tradeId ≠ "" → (announced .rest).tradeId ≠ "" →
    (announced .websocket).tradeId = (announced .rest).tradeId
  seconds : (announced .rest).timestamp = (announced .websocket).timestamp / nanosPerSecond * nanosPerSecond
  valid : OrderManager.checkFill (announced .websocket) = .ok ()
  tracked : (announced .websocket).marketTicker ∈ tickers

namespace Execution

variable {F : Type} [Floating F] {tickers : List Ticker}

theorem terms_eq (execution : Execution F tickers) (channel : Channel) :
    (execution.announced channel).terms = (execution.announced .websocket).terms := by
  cases channel with
  | websocket => rfl
  | rest => exact (terms_agree execution.sameTexts execution.fromMessage execution.fromObject).symm

theorem valid_at (execution : Execution F tickers) (channel : Channel) :
    OrderManager.checkFill (execution.announced channel) = .ok () := by
  have terms := execution.terms_eq channel
  have price : (execution.announced channel).priceCents = (execution.announced .websocket).priceCents :=
    congrArg (fun terms => terms.2.2.2.1) terms
  have quantity : (execution.announced channel).quantity = (execution.announced .websocket).quantity :=
    congrArg (fun terms => terms.2.2.2.2.1) terms
  have valid := execution.valid
  unfold OrderManager.checkFill at valid ⊢
  rw [price, quantity]
  exact valid

theorem tracked_at (execution : Execution F tickers) (channel : Channel) :
    (execution.announced channel).marketTicker ∈ tickers := by
  rw [show (execution.announced channel).marketTicker = (execution.announced .websocket).marketTicker from
    congrArg Prod.fst (execution.terms_eq channel)]
  exact execution.tracked

end Execution

/-! ### Deliveries -/

section

variable {F X ι : Type} [Floating F]

/-- Whether `on_fill` took a fill for a new one. -/
def tookNew {σ : Type} : Except (Stop String) Bool × σ → Bool
  | (.ok new, _) => new
  | (.error _, _) => false

/-- The executions that a sequence of announcements makes the session record, in the order recorded. -/
def recordings {tickers : List Ticker} (executions : ι → Execution F tickers) :
    Desk F X → List (ι × Channel) → List ι
  | _, [] => []
  | s, (i, channel) :: deliveries =>
    let reply := onFill ((executions i).announced channel) s
    if tookNew reply then i :: recordings executions reply.2 deliveries
    else recordings executions reply.2 deliveries

/-- Each announced execution is recorded once, in whatever order and however often the announcements
come. -/
def RecordedOnce [DecidableEq ι] {tickers : List Ticker} (executions : ι → Execution F tickers)
    (s : Desk F X) : Prop :=
  ∀ deliveries : List (ι × Channel), ∀ i ∈ deliveries.map Prod.fst, (recordings executions s deliveries).count i = 1

/-- Both announcements of an execution pass for one fill, and those of two executions never do. -/
structure ToldApart {tickers : List Ticker} (executions : ι → Execution F tickers) : Prop where
  own : ∀ i, ((executions i).announced .websocket).SameLabel ((executions i).announced .rest)
  others : ∀ i j channel channel', i ≠ j →
    ¬ ((executions i).announced channel).SameLabel ((executions j).announced channel')

/-- A delivery records what it announces unless its label was seen before. -/
theorem onFill_announced {s : Desk F X} {tickers : List Ticker} (tracks : s.session.tickers = tickers)
    (execution : Execution F tickers) (channel : Channel) :
    tookNew (onFill (execution.announced channel) s) =
        decide (OrderManager.fillKey (execution.announced channel) ∉ s.orderMgr.seenFills) ∧
      (onFill (execution.announced channel) s).2.session.tickers = tickers ∧
      ∀ key, key ∈ (onFill (execution.announced channel) s).2.orderMgr.seenFills ↔
        key = OrderManager.fillKey (execution.announced channel) ∨ key ∈ s.orderMgr.seenFills := by
  subst tracks
  have session : (onFill (execution.announced channel) s).2.session = s.session :=
    congrArg (fun market => market.2.1) (onFill_market _ s)
  refine ⟨?_, congrArg TradingSession.tickers session, fun key => ?_⟩
  · rw [← Prod.mk.eta (p := onFill (execution.announced channel) s)]
    -- the fill is valid and tracked, so only its label can have it refused
    by_cases seen : OrderManager.fillKey (execution.announced channel) ∈ s.orderMgr.seenFills
    · rcases onFill_cases (execution.announced channel) s
        with ⟨_, _, untracked | invalid⟩ | ⟨_, returned, _⟩ | ⟨_, _, _, new, _⟩
      · exact absurd (execution.tracked_at channel) untracked
      · exact absurd (execution.valid_at channel) invalid
      · simp [returned, tookNew, seen]
      · exact absurd seen new
    · have returned := (onFill_tracked (execution.tracked_at channel) (execution.valid_at channel) seen).1
      simp [returned, tookNew, seen]
  · by_cases seen : OrderManager.fillKey (execution.announced channel) ∈ s.orderMgr.seenFills
    · rcases onFill_cases (execution.announced channel) s
        with ⟨_, _, untracked | invalid⟩ | ⟨refilled, _, _⟩ | ⟨_, _, _, new, _⟩
      · exact absurd (execution.tracked_at channel) untracked
      · exact absurd (execution.valid_at channel) invalid
      · rw [show (onFill (execution.announced channel) s).2.orderMgr = s.orderMgr from
          congrArg Ledger.orderMgr refilled]
        exact ⟨.inr, fun among => among.elim (fun same => same ▸ seen) id⟩
      · exact absurd seen new
    · rw [(onFill_tracked (execution.tracked_at channel) (execution.valid_at channel) seen).2.1]
      exact List.mem_cons

variable [DecidableEq ι] {tickers : List Ticker} {executions : ι → Execution F tickers}

/-- Where each execution has a label of its own, it is recorded at its first announcement and never
again. -/
theorem recordings_count {label : ι → String}
    (labelled : ∀ i channel, OrderManager.fillKey ((executions i).announced channel) = label i)
    (injective : ∀ i j, label i = label j → i = j) (deliveries : List (ι × Channel)) {s : Desk F X}
    (tracks : s.session.tickers = tickers) (i : ι) :
    (recordings executions s deliveries).count i =
      if i ∈ deliveries.map Prod.fst ∧ label i ∉ s.orderMgr.seenFills then 1 else 0 := by
  induction deliveries generalizing s with
  | nil => simp [recordings]
  | cons delivery deliveries ih =>
    obtain ⟨j, channel⟩ := delivery
    obtain ⟨took, tracks', seen⟩ := onFill_announced tracks (executions j) channel
    rw [labelled] at took seen
    have later := ih tracks'
    rw [recordings, took]
    by_cases same : i = j
    · subst same
      have known := (seen (label i)).mpr (.inl rfl)
      rw [if_neg fun both => both.2 known] at later
      by_cases old : label i ∈ s.orderMgr.seenFills
      · simp [old, later]
      · simp [old, later]
    · have among : i ∈ ((j, channel) :: deliveries).map Prod.fst ↔ i ∈ deliveries.map Prod.fst := by
        simp [same]
      -- labels are distinct, so another execution's delivery does not use this one up
      have known : label i ∈ (onFill ((executions j).announced channel) s).2.orderMgr.seenFills ↔
          label i ∈ s.orderMgr.seenFills := by
        rw [seen]
        exact or_iff_right fun equal => same (injective i j equal)
      simp only [known] at later
      simp only [among, ← later]
      split
      · exact List.count_cons_of_ne (Ne.symm same)
      · rfl

theorem ToldApart.recordedOnce (apart : ToldApart executions) {s : Desk F X} (tracks : s.session.tickers = tickers)
    (fresh : s.orderMgr.seenFills = []) : RecordedOnce executions s := by
  intro deliveries i delivered
  have labelled : ∀ i channel, OrderManager.fillKey ((executions i).announced channel) =
      OrderManager.fillKey ((executions i).announced .websocket) := by
    intro i channel
    cases channel with
    | websocket => rfl
    | rest => exact ((fillKey_eq_iff _ _).mpr (apart.own i)).symm
  have injective : ∀ i j, OrderManager.fillKey ((executions i).announced .websocket) =
      OrderManager.fillKey ((executions j).announced .websocket) → i = j := by
    intro i j same
    by_contra different
    exact apart.others i j _ _ different ((fillKey_eq_iff _ _).mp same)
  rw [recordings_count labelled injective deliveries tracks, if_pos]
  exact ⟨delivered, by simp [fresh]⟩

theorem RecordedOnce.toldApart {s : Desk F X} (once : RecordedOnce executions s)
    (tracks : s.session.tickers = tickers) (fresh : s.orderMgr.seenFills = []) : ToldApart executions := by
  constructor
  · -- the two announcements of one execution, one after the other
    intro i
    by_contra different
    rw [← fillKey_eq_iff] at different
    obtain ⟨first, tracks', seen⟩ := onFill_announced tracks (executions i) .websocket
    obtain ⟨second, _⟩ := onFill_announced tracks' (executions i) .rest
    have counted := once [(i, .websocket), (i, .rest)] i (by simp)
    simp [recordings, first, second, seen, fresh, Ne.symm different] at counted
  · -- an announcement of one execution, then one of another
    intro i j channel channel' other label
    rw [← fillKey_eq_iff] at label
    obtain ⟨first, tracks', seen⟩ := onFill_announced tracks (executions i) channel
    obtain ⟨second, _⟩ := onFill_announced tracks' (executions j) channel'
    have counted := once [(i, channel), (j, channel')] j (by simp)
    simp [recordings, first, second, seen, fresh, label, other] at counted

/-- The parsers agree on all terms, and each execution is recorded once whatever the deliveries are
exactly if the labels tell the executions apart. -/
theorem fills_recorded_once_iff (session : TradingSession F) (config : QuoterConfig F) (limits : RiskLimits F)
    (outside : X) (flowGuard : Option (FlowImbalanceGuard F)) (tradeTape : Option (TradeTape F))
    (analytics pnlListener : Bool) (executions : ι → Execution F session.tickers) :
    (∀ i, ((executions i).announced .websocket).terms = ((executions i).announced .rest).terms) ∧
      (RecordedOnce executions (Process.start session config limits outside flowGuard tradeTape analytics
        pnlListener).desk ↔ ToldApart executions) :=
  ⟨fun i => ((executions i).terms_eq .rest).symm, fun once => once.toldApart rfl rfl,
    fun apart => apart.recordedOnce rfl rfl⟩

end

/-- A fill without a trade id, half a second past a full second. -/
def unnamedMessage : Json :=
  .obj [("order_id", .str "o"), ("market_ticker", .str "M"), ("outcome_side", .str "yes"),
    ("yes_price_dollars", .str "0.4000"), ("count_fp", .str "1.00"), ("is_taker", .bool false),
    ("ts_ms", .int 1500)]

def unnamedObject : Json :=
  .obj [("order_id", .str "o"), ("market_ticker", .str "M"), ("outcome_side", .str "yes"),
    ("yes_price_dollars", .str "0.4000"), ("count_fp", .str "1.00"), ("is_taker", .bool false), ("ts", .int 1)]

theorem unnamed_sameTexts : ∀ key ∈ termKeys, unnamedMessage.find? key = unnamedObject.find? key := by
  intro key member
  simp only [termKeys, List.mem_cons, List.not_mem_nil, or_false] at member
  rcases member with rfl | rfl | rfl | rfl | rfl | rfl <;> rfl

def unnamedExecution : Execution ℚ ["M"] where
  message := unnamedMessage
  object := unnamedObject
  announced
    | .websocket => ⟨"", "o", "M", .yes, 40, ⟨100⟩, 0, false, 1500000000⟩
    | .rest => ⟨"", "o", "M", .yes, 40, ⟨100⟩, 0, false, 1000000000⟩
  fromMessage := by decide +kernel
  fromObject := by decide +kernel
  sameTexts := unnamed_sameTexts
  sameTrade := by simp
  seconds := by decide +kernel
  valid := by decide +kernel
  tracked := by decide

/-- One contract bought is counted as two once both channels have told of it. -/
theorem unnamed_fill_counted_twice :
    let s : Desk ℚ Script := (Process.start { tickers := ["M"] } {} {} {} none none false false).desk
    ¬ RecordedOnce (fun _ : Unit => unnamedExecution) s ∧
      recordings (fun _ : Unit => unnamedExecution) s [((), .websocket), ((), .rest)] = [(), ()] ∧
      ((onFill (unnamedExecution.announced .rest)
        (onFill (unnamedExecution.announced .websocket) s).2).2.orderMgr.netPosition
        "M").centi = 200 := by
  intro s
  have twice : recordings (fun _ : Unit => unnamedExecution) s [((), .websocket), ((), .rest)] = [(), ()] := by
    decide +kernel
  refine ⟨fun once => ?_, twice, by decide +kernel⟩
  have counted := once [((), .websocket), ((), .rest)] () (by decide)
  rw [twice] at counted
  exact absurd counted (by decide)

end Kalshi
