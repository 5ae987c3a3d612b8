import KalshiMaker.App.Backtest
import KalshiMaker.Net.Capture

/-! The backtest from its capture file on: the client that parses, and the callbacks it is given. -/
namespace Kalshi

open Effect

variable {F Y : Type} [Floating F] (world : Host Y) (rest : RestClient)

/-- No fill callback is set: a replay's own fills come from the paper exchange. -/
def backtestCallbacks : Callbacks F (Desk F (PaperWorld F Y)) where
  snapshot snapshot := handleFrame world rest (.snapshot snapshot)
  delta delta := handleFrame world rest (.delta delta.1 delta.2.1 delta.2.2.1 delta.2.2.2)
  fill _ := pure ()
  trade print := handleFrame world rest (.trade print)

/-- What a message is to the session, if it parses. -/
def Frame.ofMessage (F : Type) [Floating F] (message : String × Json) : Option Frame :=
  match message.1 with
  | "orderbook_snapshot" => (parseSnapshot F message.2).toOption.map .snapshot
  | "orderbook_delta" =>
    (parseDelta F message.2).toOption.map fun delta => .delta delta.1 delta.2.1 delta.2.2.1 delta.2.2.2
  | "trade" => (parseTrade F message.2).toOption.map .trade
  | _ => none

theorem contained_parsed {σ α : Type} (callback : α → Eff σ String Unit) (parsed : Except String α) (s : σ) :
    contained callback parsed s =
      match parsed.toOption with
      | none => (.ok (), s)
      | some value => Eff.handleWith (fun _ => pure ()) (callback value s) := by
  cases parsed <;> rfl

/-- A dispatch is the handling of the frame that the message is, or nothing. -/
theorem backtest_dispatch (message : String × Json) (s : Desk F (PaperWorld F Y)) :
    (backtestCallbacks world rest).dispatch message.1 message.2 s =
      match Frame.ofMessage F message with
      | none => (.ok (), s)
      | some frame => Eff.handleWith (fun _ => pure ()) (handleFrame world rest frame s) := by
  obtain ⟨msgType, msgBody⟩ := message
  unfold Callbacks.dispatch Frame.ofMessage
  dsimp only
  split
  · rw [contained_parsed]
    cases (parseSnapshot F msgBody).toOption <;> rfl
  · rw [contained_parsed]
    cases (parseDelta F msgBody).toOption <;> rfl
  · change dispatchFill (fun _ => pure ()) msgBody s = (.ok (), s)
    unfold dispatchFill
    cases messageFill F msgBody <;> simp
  · rw [contained_parsed]
    cases (parseTrade F msgBody).toOption <;> rfl
  next noSnapshot noDelta _ noTrade =>
    split
    · rfl
    next frame found =>
      split at found
      · exact absurd rfl noSnapshot
      · exact absurd rfl noDelta
      · exact absurd rfl noTrade
      · cases found

/-- The messages of a capture end the backtest where its frames do. -/
theorem backtest_messages (messages : List (String × Json)) {p : Process F (PaperWorld F Y)} (alive : p.alive = true) :
    (Eff.forEach messages (fun message => (backtestCallbacks world rest).dispatch message.1 message.2) p.desk).2 =
      ((messages.filterMap (Frame.ofMessage F)).foldl (Process.injectFrame world rest) p).desk := by
  have ended : ∀ (frames : List Frame) {p : Process F (PaperWorld F Y)}, p.alive = false →
      frames.foldl (Process.injectFrame world rest) p = p := by
    intro frames
    induction frames with
    | nil => exact fun _ => rfl
    | cons frame frames ih =>
      intro p dead
      have skipped : p.injectFrame world rest frame = p := if_neg (by simp [dead])
      rw [List.foldl_cons, skipped, ih dead]
  induction messages generalizing p with
  | nil => rfl
  | cons message messages ih =>
    rw [Eff.forEach_cons, backtest_dispatch]
    cases found : Frame.ofMessage F message with
    | none =>
      rw [List.filterMap_cons_none found]
      exact ih alive
    | some frame =>
      rw [List.filterMap_cons_some found, List.foldl_cons]
      dsimp only
      cases handled : handleFrame world rest frame p.desk with
      | mk outcome desk =>
        -- only an abort ends the process
        have aborted : ∀ what, outcome = .error (.abort what) →
            p.injectFrame world rest frame = { desk, alive := false } := by
          rintro what rfl
          unfold Process.injectFrame
          rw [if_pos alive, handled]
        have went : (∀ what, outcome ≠ .error (.abort what)) → p.injectFrame world rest frame = { desk } := by
          intro lives
          unfold Process.injectFrame
          rw [if_pos alive, handled]
          split
          next what _ same => exact absurd (congrArg Prod.fst same) (lives what)
          next same =>
            cases same
            rfl
        rcases outcome with (what | what) | _
        · rw [went nofun]
          exact ih (p := { desk }) rfl
        · rw [aborted what rfl, ended _ rfl]
          rfl
        · rw [went nofun]
          exact ih (p := { desk }) rfl

end Kalshi
