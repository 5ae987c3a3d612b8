import KalshiMaker.Lib.Run
import KalshiMaker.Lib.Sequence
import KalshiMaker.App.ReplayModes

/-! What a replay hands to its callbacks, against what the recorded session handed to its own. -/
namespace Kalshi

open Effect

variable {F σ τ : Type} [Floating F]

/-! ### The file -/

section

variable (parse : String → Option Json) (callbacks : Callbacks F σ)

theorem Capturing.take_out (s : Capturing (WebSocketClient × σ)) (turn : FeedTurn σ) :
    (s.take parse callbacks turn).out.toList =
      s.out.toList ++ Lines.written '\n' (turn.text?.toList.map String.toList) := by
  cases turn with
  | message text =>
    unfold Capturing.take Capturing.onMessage
    have newline : "\n".toList = ['\n'] := by decide +kernel
    simp [FeedTurn.text?, Lines.written, String.toList_append, newline]
  | connect => simp [Capturing.take, FeedTurn.text?, Lines.written]
  | subscribe ticker => simp [Capturing.take, FeedTurn.text?, Lines.written]
  | elsewhere state => simp [Capturing.take, FeedTurn.text?, Lines.written]

theorem Capturing.recorded_out (s : Capturing (WebSocketClient × σ)) (turns : List (FeedTurn σ)) :
    (s.recorded parse callbacks turns).out.toList =
      s.out.toList ++ Lines.written '\n' ((turns.filterMap FeedTurn.text?).map String.toList) := by
  induction turns generalizing s with
  | nil => simp [Capturing.recorded, Lines.written]
  | cons turn turns ih =>
    change ((s.take parse callbacks turn).recorded parse callbacks turns).out.toList = _
    rw [ih, Capturing.take_out, List.append_assoc]
    congr 1
    cases turn <;> simp [FeedTurn.text?, Lines.written, List.filterMap_cons]

/-- A file whose frames are lines holds the frames that came in, in their order. -/
theorem captureLines_recorded (inner : WebSocketClient × σ) {turns : List (FeedTurn σ)}
    (plain : ∀ text ∈ turns.filterMap FeedTurn.text?, '\n' ∉ text.toList) :
    captureLines (Capturing.recorded parse callbacks { inner } turns).out = turns.filterMap FeedTurn.text? := by
  have lines : ∀ line ∈ (turns.filterMap FeedTurn.text?).map String.toList, '\n' ∉ line := by
    intro line member
    obtain ⟨text, came, rfl⟩ := List.mem_map.mp member
    exact plain text came
  unfold captureLines
  rw [Capturing.recorded_out]
  change List.map String.ofList (Lines.split '\n' (Lines.written '\n' _)) = _
  rw [Lines.split_written lines, List.map_map]
  simp [Function.comp_def]

end

/-! ### One frame -/

namespace WebSocketClient

/-- What the check of a frame says, by the numbers remembered alone. -/
def frameCheck (seen : Sequence.Seen Int) (frame : Json) : Bool × Sequence.Seen Int :=
  match (frame.find? "sid").bind Json.int?, (frame.find? "seq").bind Json.int? with
  | some sid, some seq => Sequence.check seen sid seq
  | _, _ => (true, seen)

theorem frameCheck_lags {seen other : Sequence.Seen Int} {slack : Nat} (lags : Sequence.Lags slack other seen)
    {frame : Json} (passed : (frameCheck seen frame).1 = true) :
    ((frameCheck other frame).1 = true ∧ Sequence.Lags slack (frameCheck other frame).2 (frameCheck seen frame).2) ∨
      ((frameCheck other frame).1 = false ∧ slack = 1 ∧
        Sequence.Lags 0 (frameCheck other frame).2 (frameCheck seen frame).2) := by
  unfold frameCheck at passed ⊢
  split at passed
  · exact lags.check passed
  · exact .inl ⟨rfl, lags⟩

theorem sequenceIntact_check (client : WebSocketClient) (sid seq : Int) :
    ((client.sequenceIntact sid seq).1, (client.sequenceIntact sid seq).2.lastSeqBySid) =
      Sequence.check client.lastSeqBySid sid seq := by
  unfold sequenceIntact Sequence.check
  cases client.lastSeqBySid sid with
  | none => rfl
  | some last =>
    dsimp only
    split <;> rfl

theorem frameIntact_check (client : WebSocketClient) (msgType : String) (frame : Json) :
    ((client.frameIntact msgType frame).1, (client.frameIntact msgType frame).2.lastSeqBySid) =
      frameCheck client.lastSeqBySid frame := by
  unfold frameIntact frameCheck
  cases (frame.find? "sid").bind Json.int? with
  | none => rfl
  | some sid =>
    cases (frame.find? "seq").bind Json.int? with
    | none => rfl
    | some seq => exact client.sequenceIntact_check sid seq

/-- A text throws, or comes to nothing, or is checked by the numbers remembered, whatever else a client holds. -/
theorem takeIn_cases (text : Option Json) :
    (∃ what, ∀ client : WebSocketClient, client.takeIn text = .error what) ∨
    (∀ client : WebSocketClient, client.takeIn text = .ok (none, client)) ∨
    (∃ frame message, text = some frame ∧ messageBody frame = .ok (some message) ∧
      ∀ client : WebSocketClient, client.takeIn text =
        .ok (if (frameCheck client.lastSeqBySid frame).1 then some message else none,
          (client.frameIntact message.1 frame).2)) := by
  cases text with
  | none => exact .inr (.inl fun _ => rfl)
  | some frame =>
    cases body : messageBody frame with
    | error what => exact .inl ⟨what, fun _ => by simp [takeIn, body]⟩
    | ok found =>
      cases found with
      | none => exact .inr (.inl fun _ => by simp [takeIn, body])
      | some message =>
        refine .inr (.inr ⟨frame, message, rfl, body, fun client => ?_⟩)
        rw [← client.frameIntact_check message.1 frame]
        simp [takeIn, body]

theorem frameIntact_seen (client : WebSocketClient) (msgType : String) (frame : Json) :
    (client.frameIntact msgType frame).2.lastSeqBySid = (frameCheck client.lastSeqBySid frame).2 :=
  congrArg Prod.snd (client.frameIntact_check msgType frame)

theorem subscribe_seen (client : WebSocketClient) (ticker : Ticker) :
    (client.subscribe ticker).lastSeqBySid = client.lastSeqBySid := by
  unfold subscribe
  split
  · rfl
  · dsimp only
    split <;> rfl

theorem handleConnect_seen (client : WebSocketClient) : client.handleConnect.lastSeqBySid = fun _ => none := by
  have kept : ∀ (tickers : List Ticker) (opened : WebSocketClient),
      (tickers.foldl sendSubscribe opened).lastSeqBySid = opened.lastSeqBySid := by
    intro tickers
    induction tickers with
    | nil => exact fun _ => rfl
    | cons ticker tickers ih => exact fun opened => ih (opened.sendSubscribe ticker)
  exact kept _ _

/-! ### A replay -/

variable (parse : String → Option Json)

theorem forEach_handedOn (callbacks : Callbacks F τ) (texts : List String) (client : WebSocketClient) (state : τ) :
    (Eff.forEach texts (fun text => handleMessage callbacks (parse text)) (client, state)).2.2 =
      (Eff.forEach (client.handedOn parse (texts.map (FeedTurn.message (σ := τ)))) (fun message =>
        callbacks.dispatch message.1 message.2) state).2 := by
  induction texts generalizing client state with
  | nil => rfl
  | cons text texts ih =>
    rw [Eff.forEach_cons, handleMessage_takeIn, List.map_cons, handedOn]
    dsimp only
    cases client.takeIn (parse text) with
    | error what => rfl
    | ok takenIn =>
      obtain ⟨message, after⟩ := takenIn
      cases message with
      | none => exact ih after state
      | some message =>
        dsimp only [Option.toList_some, List.singleton_append]
        rw [Eff.forEach_cons]
        -- a callback that aborts ends the replay on either side
        cases dispatched : callbacks.dispatch message.1 message.2 state with
        | mk outcome next =>
          cases outcome with
          | error stop => rfl
          | ok _ => exact ih after next

/-- The frames of a session, and nothing else of it. -/
def framesOf (turns : List (FeedTurn σ)) : List (FeedTurn τ) := (turns.filterMap FeedTurn.text?).map FeedTurn.message

theorem handedOn_message {client after : WebSocketClient} {text : String} {message : Option (String × Json)}
    (takenIn : client.takeIn (parse text) = .ok (message, after)) (turns : List (FeedTurn σ)) :
    client.handedOn parse (.message text :: turns) = message.toList ++ after.handedOn parse turns := by
  rw [handedOn, takenIn]

theorem handedOn_thrown {client : WebSocketClient} {text what : String}
    (thrown : client.takeIn (parse text) = .error what) (turns : List (FeedTurn σ)) :
    client.handedOn parse (.message text :: turns) = [] := by
  rw [handedOn, thrown]

/-- Without the empty lines nothing is lost, as an empty text is no frame. -/
theorem handedOn_nonempty (silent : parse "" = none) (texts : List String) (client : WebSocketClient) :
    client.handedOn parse ((texts.filter fun text => text ≠ "").map (FeedTurn.message (σ := τ))) =
      client.handedOn parse (texts.map (FeedTurn.message (σ := τ))) := by
  induction texts generalizing client with
  | nil => rfl
  | cons text texts ih =>
    by_cases empty : text = ""
    · subst empty
      have dropped : client.takeIn (parse "") = .ok (none, client) := by
        rw [silent]
        rfl
      rw [List.filter_cons_of_neg (by simp), ih, List.map_cons, handedOn_message parse dropped]
      rfl
    · rw [List.filter_cons_of_pos (by simpa using empty), List.map_cons, List.map_cons, handedOn, handedOn]
      cases client.takeIn (parse text) with
      | error what => rfl
      | ok takenIn => exact congrArg _ (ih takenIn.2)

theorem framesOf_message (text : String) (turns : List (FeedTurn σ)) :
    (framesOf (.message text :: turns) : List (FeedTurn τ)) = .message text :: framesOf turns := rfl

/-- On one connection a client that remembers the same numbers hands on the same messages, gaps and all. -/
theorem handedOn_alike {turns : List (FeedTurn σ)} (one : FeedTurn.connect ∉ turns) {client other : WebSocketClient}
    (same : other.lastSeqBySid = client.lastSeqBySid) :
    other.handedOn parse (framesOf turns : List (FeedTurn τ)) = client.handedOn parse turns := by
  induction turns generalizing client other with
  | nil => rfl
  | cons turn turns ih =>
    have rest : FeedTurn.connect ∉ turns := fun member => one (List.mem_cons_of_mem _ member)
    cases turn with
    | connect => exact absurd List.mem_cons_self one
    | subscribe ticker => exact ih rest (same.trans (client.subscribe_seen ticker).symm)
    | elsewhere state => exact ih rest same
    | message text =>
      rw [framesOf_message]
      rcases takeIn_cases (parse text) with ⟨what, thrown⟩ | dropped | ⟨frame, message, _, _, checked⟩
      · rw [handedOn_thrown parse (thrown other), handedOn_thrown parse (thrown client)]
      · rw [handedOn_message parse (dropped other), handedOn_message parse (dropped client), ih rest same]
      · rw [handedOn_message parse (checked other), handedOn_message parse (checked client), same]
        refine congrArg _ (ih rest ?_)
        rw [frameIntact_seen, frameIntact_seen, same]

/-- No frame of the session was held back for a gap. -/
def Unbroken (client : WebSocketClient) : List (FeedTurn σ) → Prop
  | [] => True
  | .connect :: turns => client.handleConnect.Unbroken turns
  | .subscribe ticker :: turns => (client.subscribe ticker).Unbroken turns
  | .message text :: turns =>
    match client.takeIn (parse text) with
    | .error _ => True
    | .ok (_, after) =>
      (∀ frame, parse text = some frame → (frameCheck client.lastSeqBySid frame).1 = true) ∧ after.Unbroken turns
  | .elsewhere _ :: turns => client.Unbroken turns

/-- A replay that remembers numbers of earlier connections takes at most one frame of a connection for a gap. -/
theorem handedOn_lags {turns : List (FeedTurn σ)} {client other : WebSocketClient}
    (unbroken : client.Unbroken parse turns) {slack : Nat}
    (lags : Sequence.Lags slack other.lastSeqBySid client.lastSeqBySid) :
    (other.handedOn parse (framesOf turns : List (FeedTurn τ))).Sublist (client.handedOn parse turns) ∧
      (client.handedOn parse turns).length ≤
        (other.handedOn parse (framesOf turns : List (FeedTurn τ))).length +
          turns.countP FeedTurn.isConnect + slack := by
  induction turns generalizing client other slack with
  | nil => exact ⟨List.Sublist.refl _, Nat.zero_le _⟩
  | cons turn turns ih =>
    cases turn with
    | connect =>
      -- the new connection starts from no numbers, so every remembered one may be outdated
      have anew : Sequence.Outdated other.lastSeqBySid client.handleConnect.lastSeqBySid := by
        rw [client.handleConnect_seen]
        exact Sequence.outdated_nothing other.lastSeqBySid
      obtain ⟨part, short⟩ := ih unbroken (.inr ⟨rfl, anew⟩)
      refine ⟨part, short.trans ?_⟩
      rw [List.countP_cons_of_pos (by rfl)]
      change _ ≤ (other.handedOn parse (framesOf turns)).length + _ + _
      omega
    | subscribe ticker =>
      have kept := client.subscribe_seen ticker
      exact ih unbroken (kept ▸ lags)
    | elsewhere state => exact ih unbroken lags
    | message text =>
      rw [framesOf_message, List.countP_cons_of_neg (by simp [FeedTurn.isConnect])]
      rw [Unbroken] at unbroken
      rcases takeIn_cases (parse text) with ⟨what, thrown⟩ | dropped | ⟨frame, message, parsed, _, checked⟩
      · rw [handedOn_thrown parse (thrown other), handedOn_thrown parse (thrown client)]
        exact ⟨List.Sublist.refl _, Nat.zero_le _⟩
      · rw [dropped] at unbroken
        rw [handedOn_message parse (dropped other), handedOn_message parse (dropped client)]
        exact ih unbroken.2 lags
      · rw [checked] at unbroken
        obtain ⟨whole, unbroken⟩ := unbroken
        have passed := whole frame parsed
        rw [handedOn_message parse (checked other), handedOn_message parse (checked client), if_pos passed]
        have seen := client.frameIntact_seen message.1 frame
        have noted := other.frameIntact_seen message.1 frame
        -- the replay passes the frame too, or takes it for a gap, and then for the last time on this connection
        rcases frameCheck_lags lags passed with ⟨also, lags⟩ | ⟨gap, one, lags⟩
        · rw [if_pos also]
          rw [← seen, ← noted] at lags
          obtain ⟨part, short⟩ := ih unbroken lags
          refine ⟨part.cons_cons _, ?_⟩
          simp only [Option.toList_some, List.singleton_append, List.length_cons]
          omega
        · rw [gap, if_neg (by simp)]
          rw [← seen, ← noted] at lags
          obtain ⟨part, short⟩ := ih unbroken lags
          refine ⟨part.cons _, ?_⟩
          simp only [Option.toList_some, Option.toList_none, List.singleton_append, List.nil_append, List.length_cons]
          omega

end WebSocketClient

/-! ### Whole sessions -/

section

variable (live : Callbacks F σ) (parse : String → Option Json) (client : WebSocketClient) (state : σ)

/-- The file of a session that begins with the client connecting. -/
def captureOf (turns : List (FeedTurn σ)) : String :=
  (Capturing.recorded parse live { inner := (client, state) } (.connect :: turns)).out

theorem captureLines_captureOf {turns : List (FeedTurn σ)}
    (plain : ∀ text ∈ turns.filterMap FeedTurn.text?, '\n' ∉ text.toList) :
    captureLines (captureOf live parse client state turns) = turns.filterMap FeedTurn.text? := by
  have all : (FeedTurn.connect :: turns).filterMap FeedTurn.text? = turns.filterMap FeedTurn.text? := rfl
  rw [captureOf, captureLines_recorded parse live (client, state) (all ▸ plain), all]

/-- What a new client hands on over a recording. -/
def replayed (out : String) : List (String × Json) :=
  ({} : WebSocketClient).handedOn parse ((replayLines out).map (FeedTurn.message (σ := Unit)))

/-- The recording of one connection, gaps and all, brings every replay mode where the live messages would have brought
it; so the backtest goes by the frames that the live client handed on. -/
theorem capture_replays_connection (silent : parse "" = none) {turns : List (FeedTurn σ)}
    (one : FeedTurn.connect ∉ turns) (plain : ∀ text ∈ turns.filterMap FeedTurn.text?, '\n' ∉ text.toList) :
    let out := captureOf live parse client state turns
    let messages := client.handedOn parse (.connect :: turns)
    (∀ (τ : Type) (offline : Callbacks F τ) (start : τ), (replayCapture parse offline out ({}, start)).2.2 =
      (Eff.forEach messages (fun message => offline.dispatch message.1 message.2) start).2) ∧
    ∀ (Y : Type) (world : Host Y) (rest : RestClient) (config : QuoterConfig F) (limits : RiskLimits F)
      (flow : FlowImbalanceConfig F) (y : Y),
      (replayCapture parse (backtestCallbacks world rest) out
        ({}, (Process.replayStart config limits flow y).desk)).2.2 =
        (runBacktestMode world rest config limits flow y (messages.filterMap (Frame.ofMessage F))).desk := by
  intro out messages
  have lines : captureLines out = turns.filterMap FeedTurn.text? :=
    captureLines_captureOf live parse client state plain
  have generic : ∀ (τ : Type) (offline : Callbacks F τ) (start : τ),
    (replayCapture parse offline out ({}, start)).2.2 =
      (Eff.forEach messages (fun message => offline.dispatch message.1 message.2) start).2 := by
    intro τ offline start
    unfold replayCapture replayLines
    rw [WebSocketClient.forEach_handedOn, WebSocketClient.handedOn_nonempty parse silent, lines]
    have same : ({} : WebSocketClient).lastSeqBySid = client.handleConnect.lastSeqBySid :=
      client.handleConnect_seen.symm
    have handed := WebSocketClient.handedOn_alike (τ := τ) parse one same
    exact congrArg (fun messages => (Eff.forEach messages _ start).2) handed
  refine ⟨generic, ?_⟩
  intro Y world rest config limits flow y
  rw [generic, backtest_messages world rest messages rfl]
  rfl

/-- Where the live client took no frame for a gap, a replay over any number of connections hands on what it did, in
its order, but for at most one frame of each connection after the first. -/
theorem replay_loses_one_frame_per_reconnect (silent : parse "" = none) {turns : List (FeedTurn σ)}
    (plain : ∀ text ∈ turns.filterMap FeedTurn.text?, '\n' ∉ text.toList)
    (unbroken : client.Unbroken parse (.connect :: turns)) :
    let out := captureOf live parse client state turns
    let messages := client.handedOn parse (.connect :: turns)
    (replayed parse out).Sublist messages ∧
      messages.length ≤ (replayed parse out).length + turns.countP FeedTurn.isConnect := by
  intro out messages
  have lines : captureLines out = turns.filterMap FeedTurn.text? :=
    captureLines_captureOf live parse client state plain
  unfold replayed replayLines
  rw [WebSocketClient.handedOn_nonempty parse silent, lines]
  have fresh : Sequence.Within ({} : WebSocketClient).lastSeqBySid client.handleConnect.lastSeqBySid := by
    intro sid last noted
    change none = some last at noted
    cases noted
  have connected : client.handleConnect.Unbroken parse turns := unbroken
  exact WebSocketClient.handedOn_lags parse connected (.inl ⟨rfl, fresh⟩)

end

/-! ### A reconnect -/

/-- The snapshot of an empty book, numbered on the one subscription. -/
def numberedSnapshot (seq : Int) : Json :=
  .obj [("type", .str "orderbook_snapshot"), ("sid", .int 1), ("seq", .int seq),
    ("msg", .obj [("market_ticker", .str "M")])]

/-- Its frame as the exchange sends it. -/
def snapshotFrame (seq : String) : String :=
  "\x7b\"type\":\"orderbook_snapshot\",\"sid\":1,\"seq\":" ++ seq ++
    ",\"msg\":\x7b\"market_ticker\":\"M\"\x7d\x7d"

/-- What the parser makes of the first two. -/
def parseNumbered (text : String) : Option Json :=
  if text = snapshotFrame "1" then some (numberedSnapshot 1)
  else if text = snapshotFrame "2" then some (numberedSnapshot 2)
  else none

def ignoring : Callbacks ℚ Unit := ⟨fun _ => pure (), fun _ => pure (), fun _ => pure (), fun _ => pure ()⟩

def counting : Callbacks ℚ Nat :=
  ⟨fun _ => Eff.modify Nat.succ, fun _ => pure (), fun _ => pure (), fun _ => pure ()⟩

theorem capture_replays_connection_twice :
    (replayCapture parseNumbered counting (captureOf ignoring parseNumbered {} ()
      [.message (snapshotFrame "1"), .message (snapshotFrame "2")]) ({}, 0)).2.2 = 2 :=
  ((capture_replays_connection ignoring parseNumbered {} () (by decide +kernel) (by simp)
    (by decide +kernel)).1 Nat counting 0).trans (by decide +kernel)

/-- Each connection has the one snapshot. -/
def resubscribed : List (FeedTurn Unit) :=
  [.message (snapshotFrame "1"), .connect, .message (snapshotFrame "1")]

theorem resubscribed_unbroken : ({} : WebSocketClient).Unbroken parseNumbered (.connect :: resubscribed) := by
  refine ⟨?_, ?_, trivial⟩ <;>
    · intro frame parsed
      cases parsed
      decide +kernel

theorem replay_loses_one_frame_per_reconnect_once :
    (({} : WebSocketClient).handedOn parseNumbered (.connect :: resubscribed)).length ≤
      (replayed parseNumbered (captureOf ignoring parseNumbered {} () resubscribed)).length + 1 := by
  have reconnects : resubscribed.countP FeedTurn.isConnect = 1 := by decide +kernel
  rw [← reconnects]
  exact (replay_loses_one_frame_per_reconnect ignoring parseNumbered {} () (by decide +kernel) (by decide +kernel)
    resubscribed_unbroken).2

/-- The second connection's snapshot starts its numbers anew, and the replay takes it for a gap. -/
theorem replay_drops_resubscribed_snapshot :
    (({} : WebSocketClient).handedOn parseNumbered (.connect :: resubscribed)).length = 2 ∧
      (replayed parseNumbered (captureOf ignoring parseNumbered {} () resubscribed)).length = 1 := by
  decide +kernel

end Kalshi
