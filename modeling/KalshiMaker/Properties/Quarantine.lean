import KalshiMaker.Lib.Run
import KalshiMaker.Net.WebSocketClient
import Mathlib.Data.List.Chain

/-! A gap in the numbers of a subscription, and what still goes to the callbacks after it. -/
namespace Kalshi

open Effect

variable {F σ : Type} [Floating F]

/-- What the client meets: a text, which is `none` where it does not parse, a new connection, a call of `subscribe`,
and whatever else changes the state the callbacks work on. -/
inductive Arrival (σ : Type) where
  | frame (text : Option Json)
  | connect
  | subscribe (ticker : Ticker)
  | elsewhere (state : σ)

def Checked.carriesBook (entry : Checked) : Prop := entry.msgType ∈ ["orderbook_snapshot", "orderbook_delta"]

instance (entry : Checked) : Decidable entry.carriesBook := inferInstanceAs (Decidable (_ ∈ _))

namespace WebSocketClient

def arrive (callbacks : Callbacks F σ) (s : WebSocketClient × σ) : Arrival σ → WebSocketClient × σ
  | .frame text => (handleMessage callbacks text s).2
  | .connect => (s.1.handleConnect, s.2)
  | .subscribe ticker => (s.1.subscribe ticker, s.2)
  | .elsewhere state => (s.1, state)

/-- The numbers of a subscription that were handed on since the connection was made. -/
def numbers (client : WebSocketClient) (sid : Int) : List Int :=
  client.checked.filterMap fun entry => if entry.sid = sid ∧ entry.passed = true then entry.seq else none

/-- After a gap of a subscription none of its snapshots and deltas is handed on. -/
def Quarantined (client : WebSocketClient) : Prop :=
  client.checked.Pairwise fun earlier later =>
    earlier.passed = false → later.sid = earlier.sid → later.carriesBook → later.passed = false

def Contiguous (client : WebSocketClient) : Prop :=
  ∀ sid, (client.numbers sid).IsChain fun last next => next = last + 1

structure Sequenced (client : WebSocketClient) : Prop where
  quarantined : client.Quarantined
  contiguous : client.Contiguous

/-- The type, the id and the number of a frame that comes to the check with an id. -/
def carried (frame : Json) : Option (String × Int × Option Int) :=
  match messageBody frame with
  | .ok (some (msgType, _)) =>
    ((frame.find? "sid").bind Json.int?).map fun sid => (msgType, sid, (frame.find? "seq").bind Json.int?)
  | _ => none

/-- A snapshot or delta of a subscription with a gap behind it has a number that does not follow the one noted since,
and a number of a subscription for which none is noted is its first or follows the last one handed on. -/
structure Expected (client : WebSocketClient) (msgType : String) (sid : Int) (seq : Option Int) : Prop where
  held : ∀ entry ∈ client.checked, entry.passed = false → sid = entry.sid →
    msgType ∈ ["orderbook_snapshot", "orderbook_delta"] →
    ∃ number last, seq = some number ∧ client.lastSeqBySid sid = some last ∧ number ≠ last + 1
  resumed : ∀ number, seq = some number → client.lastSeqBySid sid = none →
    ∀ last ∈ (client.numbers sid).getLast?, number = last + 1

def Continues (client : WebSocketClient) : Arrival σ → Prop
  | .frame (some frame) =>
    ∀ msgType sid seq, carried frame = some (msgType, sid, seq) → client.Expected msgType sid seq
  | _ => True

/-- What is noted for a subscription is the last number handed on. -/
def Noted (client : WebSocketClient) : Prop :=
  ∀ sid last, client.lastSeqBySid sid = some last → (client.numbers sid).getLast? = some last

/-! ### One more entry -/

theorem numbers_keep (client : WebSocketClient) (entry : Checked) (sid : Int) :
    (client.keep entry).numbers sid =
      client.numbers sid ++ (if entry.sid = sid ∧ entry.passed = true then entry.seq else none).toList := by
  unfold numbers keep
  rw [List.filterMap_append, List.filterMap_cons]
  split
  next absent => rw [absent, List.filterMap_nil, Option.toList_none]
  next number present => rw [present, List.filterMap_nil, Option.toList_some]

theorem keep_quarantined (client : WebSocketClient) (entry : Checked) :
    (client.keep entry).Quarantined ↔ client.Quarantined ∧
      ∀ earlier ∈ client.checked, earlier.passed = false → entry.sid = earlier.sid → entry.carriesBook →
        entry.passed = false := by
  simp [Quarantined, keep, List.pairwise_append]

theorem keep_contiguous (client : WebSocketClient) (entry : Checked) :
    (client.keep entry).Contiguous ↔ client.Contiguous ∧
      (entry.passed = true → ∀ number, entry.seq = some number →
        ∀ last ∈ (client.numbers entry.sid).getLast?, number = last + 1) := by
  unfold Contiguous
  constructor
  · intro contiguous
    refine ⟨fun sid => ?_, fun passed number numbered last seen => ?_⟩
    · have longer := contiguous sid
      rw [numbers_keep] at longer
      exact longer.left_of_append
    · have longer := contiguous entry.sid
      rw [numbers_keep, if_pos ⟨rfl, passed⟩, numbered] at longer
      exact (List.isChain_append.mp longer).2.2 last seen number rfl
  · rintro ⟨contiguous, follows⟩ sid
    rw [numbers_keep]
    split
    -- a passed frame extends its own subscription's numbers by one
    next own =>
      obtain ⟨rfl, passed⟩ := own
      cases numbered : entry.seq with
      | none => simpa using contiguous entry.sid
      | some number =>
        refine (contiguous entry.sid).append (List.isChain_singleton number) fun last seen next first => ?_
        cases first
        exact follows passed number numbered last seen
    next => simpa using contiguous sid

/-! ### One arrival -/

/-- What becomes of the client as a frame is handled. -/
def received (client : WebSocketClient) (frame : Json) : WebSocketClient :=
  match carried frame with
  | none => client
  | some (msgType, sid, none) => client.keep ⟨msgType, sid, none, true⟩
  | some (msgType, sid, some number) =>
    (client.sequenceIntact sid number).2.keep ⟨msgType, sid, some number, (client.sequenceIntact sid number).1⟩

theorem frameIntact_received {client : WebSocketClient} {msgType : String} {msgBody frame : Json}
    (body : messageBody frame = .ok (some (msgType, msgBody))) :
    (client.frameIntact msgType frame).2 = client.received frame := by
  unfold received carried frameIntact
  rw [body]
  cases (frame.find? "sid").bind Json.int? with
  | none => rfl
  | some sid => cases (frame.find? "seq").bind Json.int? <;> rfl

theorem handleMessage_client (callbacks : Callbacks F σ) (frame : Json) (s : WebSocketClient × σ) :
    (handleMessage callbacks (some frame) s).2.1 = s.1.received frame := by
  unfold handleMessage
  simp only [Eff.bind_apply]
  cases body : messageBody frame with
  | error what => simp [received, carried, body]
  | ok message =>
    cases message with
    | none => simp [received, carried, body]
    | some message =>
      obtain ⟨msgType, msgBody⟩ := message
      rw [← frameIntact_received body]
      simp only [Eff.bind_apply, Eff.ofExcept_ok, Eff.andThen_ok, Eff.get_apply, Eff.modify_apply]
      split <;> rfl

/-! ### Invariants -/

theorem sequenceIntact_checked (client : WebSocketClient) (sid seq : Int) :
    (client.sequenceIntact sid seq).2.checked = client.checked := by
  unfold sequenceIntact
  cases client.lastSeqBySid sid with
  | none => rfl
  | some last =>
    dsimp only
    split <;> rfl

theorem numbers_congr {client other : WebSocketClient} (same : client.checked = other.checked) (sid : Int) :
    client.numbers sid = other.numbers sid := by
  unfold numbers
  rw [same]

/-- The check passes a first number and the next one, and notes it. -/
theorem sequenceIntact_cases (client : WebSocketClient) (sid seq : Int) :
    ((client.sequenceIntact sid seq).1 = true ∧ (∀ last, client.lastSeqBySid sid = some last → seq = last + 1) ∧
      (client.sequenceIntact sid seq).2.lastSeqBySid = Function.update client.lastSeqBySid sid (some seq)) ∨
    ((client.sequenceIntact sid seq).1 = false ∧ (∃ last, client.lastSeqBySid sid = some last ∧ seq ≠ last + 1) ∧
      (client.sequenceIntact sid seq).2.lastSeqBySid = fun _ => none) := by
  unfold sequenceIntact
  cases client.lastSeqBySid sid with
  | none =>
    left
    refine ⟨rfl, fun last noted => ?_, rfl⟩
    cases noted
  | some last =>
    dsimp only
    split
    next follows =>
      left
      refine ⟨rfl, fun other noted => ?_, rfl⟩
      cases noted
      exact follows
    next gap =>
      right
      exact ⟨rfl, ⟨last, rfl, gap⟩, rfl⟩

theorem keep_unnumbered_noted {client : WebSocketClient} {entry : Checked} (noted : client.Noted)
    (unnumbered : entry.seq = none) : (client.keep entry).Noted := by
  intro sid last found
  rw [numbers_keep, unnumbered, ite_self, Option.toList_none, List.append_nil]
  exact noted sid last found

theorem received_noted {client : WebSocketClient} (noted : client.Noted) (frame : Json) :
    (client.received frame).Noted := by
  unfold received
  split
  · exact noted
  · exact keep_unnumbered_noted noted rfl
  next msgType own number _ =>
    intro sid last found
    rw [numbers_keep, numbers_congr (sequenceIntact_checked client own number)]
    change (client.sequenceIntact own number).2.lastSeqBySid sid = some last at found
    rcases sequenceIntact_cases client own number with ⟨passed, _, update⟩ | ⟨_, _, cleared⟩
    · rw [update] at found
      by_cases same : own = sid
      · subst same
        rw [Function.update_self] at found
        cases found
        simp [passed]
      · rw [Function.update_of_ne (Ne.symm same)] at found
        simp [same, noted sid last found]
    · rw [cleared] at found
      cases found

theorem keep_sequenced (client : WebSocketClient) (entry : Checked) :
    (client.keep entry).Sequenced ↔ (client.keep entry).Quarantined ∧ (client.keep entry).Contiguous :=
  ⟨fun sequenced => ⟨sequenced.quarantined, sequenced.contiguous⟩, fun both => ⟨both.1, both.2⟩⟩

/-- A frame without a number is always handed on. -/
theorem unnumbered_sequenced_iff {client : WebSocketClient} (sequenced : client.Sequenced) (msgType : String)
    (sid : Int) : (client.keep ⟨msgType, sid, none, true⟩).Sequenced ↔ client.Expected msgType sid none := by
  rw [keep_sequenced, keep_quarantined, keep_contiguous]
  constructor
  · rintro ⟨⟨_, held⟩, _⟩
    constructor
    · intro earlier seen gap own carries
      cases held earlier seen gap own carries
    · intro number numbered
      cases numbered
  · intro expected
    refine ⟨⟨sequenced.quarantined, fun earlier seen gap own carries => ?_⟩, sequenced.contiguous, fun _ _ none => ?_⟩
    · obtain ⟨_, _, numbered, _⟩ := expected.held earlier seen gap own carries
      cases numbered
    · cases none

theorem numbered_sequenced_iff {client : WebSocketClient} (noted : client.Noted) (sequenced : client.Sequenced)
    (msgType : String) (sid number : Int) :
    ((client.sequenceIntact sid number).2.keep
      ⟨msgType, sid, some number, (client.sequenceIntact sid number).1⟩).Sequenced ↔
        client.Expected msgType sid (some number) := by
  have checked := sequenceIntact_checked client sid number
  have quarantined : (client.sequenceIntact sid number).2.Quarantined := by
    unfold Quarantined
    rw [checked]
    exact sequenced.quarantined
  have contiguous : (client.sequenceIntact sid number).2.Contiguous := by
    intro other
    rw [numbers_congr checked]
    exact sequenced.contiguous other
  rw [keep_sequenced, keep_quarantined, keep_contiguous, checked, numbers_congr checked]
  -- a passed frame must follow the last number; a refused one must have left a gap
  rcases sequenceIntact_cases client sid number with ⟨passed, follows, _⟩ | ⟨refused, ⟨last, noted', gap⟩, _⟩
  · rw [passed]
    constructor
    · rintro ⟨⟨_, held⟩, _, next⟩
      constructor
      · intro earlier seen gap own carries
        cases held earlier seen gap own carries
      · rintro _ ⟨⟩ _ last seen
        exact next rfl number rfl last seen
    · intro expected
      refine ⟨⟨quarantined, fun earlier seen gap own carries => ?_⟩, contiguous, fun _ _ numbered last seen => ?_⟩
      · obtain ⟨_, last, ⟨⟩, known, differs⟩ := expected.held earlier seen gap own carries
        exact absurd (follows last known) differs
      · cases numbered
        cases known : client.lastSeqBySid sid with
        | none => exact expected.resumed number rfl known last seen
        | some recent =>
          rw [noted sid recent known] at seen
          cases seen
          exact follows _ known
  · rw [refused]
    constructor
    · intro _
      constructor
      · exact fun _ _ _ _ _ => ⟨number, last, rfl, noted', gap⟩
      · intro _ _ unknown
        rw [noted'] at unknown
        cases unknown
    · intro _
      refine ⟨⟨quarantined, fun _ _ _ _ _ => rfl⟩, contiguous, fun passed => ?_⟩
      cases passed

theorem received_sequenced_iff {client : WebSocketClient} (noted : client.Noted) (sequenced : client.Sequenced)
    (frame : Json) : (client.received frame).Sequenced ↔
      ∀ msgType sid seq, carried frame = some (msgType, sid, seq) → client.Expected msgType sid seq := by
  unfold received
  cases frameShape : carried frame with
  | none =>
    refine ⟨fun _ _ _ _ found => ?_, fun _ => sequenced⟩
    cases found
  | some shape =>
    obtain ⟨msgType, sid, seq⟩ := shape
    trans client.Expected msgType sid seq
    · cases seq with
      | none => exact unnumbered_sequenced_iff sequenced msgType sid
      | some number => exact numbered_sequenced_iff noted sequenced msgType sid number
    · constructor
      · rintro expected _ _ _ ⟨⟩
        exact expected
      · intro expected
        exact expected msgType sid seq rfl

theorem subscribe_checked (client : WebSocketClient) (ticker : Ticker) :
    (client.subscribe ticker).checked = client.checked ∧
      (client.subscribe ticker).lastSeqBySid = client.lastSeqBySid := by
  unfold subscribe
  split
  · exact ⟨rfl, rfl⟩
  · dsimp only
    split <;> exact ⟨rfl, rfl⟩

theorem handleConnect_checked (client : WebSocketClient) :
    client.handleConnect.checked = [] ∧ client.handleConnect.lastSeqBySid = fun _ => none := by
  unfold handleConnect
  generalize client.subscribedTickers = tickers
  apply List.foldlRecOn (motive := fun client : WebSocketClient =>
    client.checked = [] ∧ client.lastSeqBySid = fun _ => none) tickers
  · exact ⟨rfl, rfl⟩
  · exact fun client fresh ticker _ => fresh

theorem Sequenced.congr {client other : WebSocketClient} (sequenced : client.Sequenced)
    (same : other.checked = client.checked) : other.Sequenced := by
  constructor
  · unfold Quarantined
    rw [same]
    exact sequenced.quarantined
  · intro sid
    rw [numbers_congr same]
    exact sequenced.contiguous sid

theorem handleConnect_fresh (client : WebSocketClient) :
    client.handleConnect.Sequenced ∧ client.handleConnect.Noted := by
  obtain ⟨none, unknown⟩ := handleConnect_checked client
  refine ⟨⟨?_, fun sid => ?_⟩, fun sid last found => ?_⟩
  · simp [Quarantined, none]
  · simp [numbers, none]
  · rw [unknown] at found
    cases found

end WebSocketClient

open WebSocketClient

/-- Over any frames, connections and subscriptions: the client keeps every gap quarantined and every subscription's
numbers contiguous all along exactly if each frame it meets continues. -/
theorem gaps_quarantined_iff (callbacks : Callbacks F σ) (client : WebSocketClient) (state : σ)
    (arrivals : List (Arrival σ)) :
    (∀ seen, seen <+: arrivals → (seen.foldl (arrive callbacks) (client.handleConnect, state)).1.Sequenced) ↔
      Run.Meets (arrive callbacks) (fun s arrival => s.1.Continues arrival)
        (client.handleConnect, state) arrivals := by
  apply Run.holds_iff_meets (fun s : WebSocketClient × σ => s.1.Sequenced ∧ s.1.Noted)
    (fun s => s.1.Sequenced)
  · exact fun _ good => good.1
  · rintro s arrival continues ⟨sequenced, noted⟩
    cases arrival with
    | frame text =>
      cases text with
      | none => exact ⟨sequenced, noted⟩
      | some frame =>
        unfold arrive
        rw [handleMessage_client]
        exact ⟨(received_sequenced_iff noted sequenced frame).mpr continues, received_noted noted frame⟩
    -- a new connection forgets the numbers, and a subscription touches none
    | connect => exact handleConnect_fresh s.1
    | subscribe ticker =>
      obtain ⟨checked, known⟩ := subscribe_checked s.1 ticker
      refine ⟨sequenced.congr checked, fun sid last found => ?_⟩
      unfold arrive at found ⊢
      rw [numbers_congr checked]
      exact noted sid last (known ▸ found)
    | elsewhere _ => exact ⟨sequenced, noted⟩
  · rintro s arrival stops ⟨sequenced, noted⟩ kept
    cases arrival with
    | frame text =>
      cases text with
      | none => exact stops trivial
      | some frame =>
        unfold arrive at kept
        rw [handleMessage_client] at kept
        exact stops ((received_sequenced_iff noted sequenced frame).mp kept)
    | connect | subscribe _ | elsewhere _ => exact stops trivial
  · exact handleConnect_fresh client

/-- A delta of market M under subscription 1. -/
def numberedDelta (number : Int) (price : String) : Json :=
  .obj [("type", .str "orderbook_delta"), ("sid", .int 1), ("seq", .int number),
    ("msg", .obj [("market_ticker", .str "M"), ("side", .str "yes"), ("price_dollars", .str price),
      ("delta_fp", .str "1.00")])]

/-- Number 3 is missing: 4 is held back, and 5 is taken for the first of its subscription. -/
theorem delta_after_gap_dispatched :
    let prices : Callbacks ℚ (List Int) := {
      snapshot := fun _ => pure ()
      delta := fun delta => Eff.modify fun seen => seen ++ [delta.2.2.1]
      fill := fun _ => pure ()
      trade := fun _ => pure () }
    let s := ([numberedDelta 1 "0.41", numberedDelta 2 "0.42", numberedDelta 4 "0.44",
      numberedDelta 5 "0.45"].map fun frame => Arrival.frame (some frame)).foldl (arrive prices)
        ((WebSocketClient.mk [] false 1 (fun _ => none) false [] []).handleConnect, [])
    s.1.checked.map (fun entry => (entry.seq, entry.passed)) =
        [(some 1, true), (some 2, true), (some 4, false), (some 5, true)] ∧
      s.2 = [41, 42, 45] ∧ ¬ s.1.Quarantined ∧ ¬ s.1.Contiguous := by
  intro prices s
  refine ⟨by decide +kernel, by decide +kernel, ?_, fun contiguous => ?_⟩
  · unfold Quarantined
    decide +kernel
  · have numbers : s.1.numbers 1 = [1, 2, 5] := by decide +kernel
    have run := contiguous 1
    rw [numbers] at run
    revert run
    decide

end Kalshi
