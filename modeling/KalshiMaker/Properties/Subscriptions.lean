import KalshiMaker.Net.ConnectionEvents
import Mathlib.Data.List.Induction

/-! On a connection that stands, every listed market has been asked for once, whichever thread came first. -/
namespace Kalshi

/-- A command that asks for the deltas of a market. -/
def Subscribe.asksFor (ticker : Ticker) (command : Subscribe) : Bool :=
  decide ("orderbook_delta" ∈ command.channels) && decide (ticker ∈ command.marketTickers)

def Subscribe.asksForFills (command : Subscribe) : Bool := decide ("fill" ∈ command.channels)

namespace WebSocketClient

/-- The commands of this connection that ask for a market. -/
def asksFor (client : WebSocketClient) (ticker : Ticker) : Nat := client.outbox.countP (Subscribe.asksFor ticker)

def asksForFills (client : WebSocketClient) : Nat := client.outbox.countP Subscribe.asksForFills

theorem asksFor_sendSubscribe (client : WebSocketClient) (name ticker : Ticker) :
    (client.sendSubscribe name).asksFor ticker = client.asksFor ticker + if ticker = name then 1 else 0 := by
  by_cases same : ticker = name <;> simp [asksFor, sendSubscribe, send, Subscribe.asksFor, same]

@[simp] theorem asksForFills_sendSubscribe (client : WebSocketClient) (name : Ticker) :
    (client.sendSubscribe name).asksForFills = client.asksForFills := by
  simp [asksForFills, sendSubscribe, send, Subscribe.asksForFills]

/-- Announcing some markets asks for each as often as it is listed, and changes nothing but what is sent. -/
theorem announce_spec (tickers : List Ticker) (client : WebSocketClient) :
    (∀ ticker, (tickers.foldl sendSubscribe client).asksFor ticker = client.asksFor ticker + tickers.count ticker) ∧
      (tickers.foldl sendSubscribe client).asksForFills = client.asksForFills ∧
      (tickers.foldl sendSubscribe client).subscribedTickers = client.subscribedTickers ∧
      (tickers.foldl sendSubscribe client).connected = client.connected := by
  induction tickers generalizing client with
  | nil => exact ⟨fun ticker => rfl, rfl, rfl, rfl⟩
  | cons name tickers ih =>
    obtain ⟨asked, fills, listed, connected⟩ := ih (client.sendSubscribe name)
    refine ⟨fun ticker => ?_, fills.trans (asksForFills_sendSubscribe client name), listed, connected⟩
    rw [List.foldl_cons, asked, asksFor_sendSubscribe, List.count_cons]
    by_cases same : ticker = name
    · subst same
      simp only [if_true, beq_self_eq_true]
      omega
    · rw [if_neg same, if_neg (by simpa using Ne.symm same)]
      omega

def listing (client : WebSocketClient) (ticker : Ticker) : WebSocketClient :=
  { client with subscribedTickers := client.subscribedTickers ++ [ticker] }

theorem subscribe_listed {client : WebSocketClient} {ticker : Ticker} (listed : ticker ∈ client.subscribedTickers) :
    client.subscribe ticker = client :=
  if_pos listed

theorem subscribe_unlisted {client : WebSocketClient} {ticker : Ticker}
    (unlisted : ticker ∉ client.subscribedTickers) :
    client.subscribe ticker =
      if client.connected then (client.listing ticker).sendSubscribe ticker else client.listing ticker :=
  if_neg unlisted

end WebSocketClient

namespace Connection

/-- What the client has sent at each stage, and whether it sends at once. -/
structure Sound (connection : Connection) : Prop where
  distinct : connection.client.subscribedTickers.Nodup
  connected : connection.client.connected = true ↔ connection.stage = .up
  opening : connection.stage = .opening →
    (∀ ticker, connection.client.asksFor ticker = 0) ∧ connection.client.asksForFills = 1
  up : connection.stage = .up →
    (∀ ticker, connection.client.asksFor ticker = if ticker ∈ connection.client.subscribedTickers then 1 else 0) ∧
      connection.client.asksForFills = 1

theorem initial_sound : Sound {} where
  distinct := List.nodup_nil
  connected := by simp
  opening := by simp
  up := by simp

theorem Sound.subscribe {connection : Connection} (sound : connection.Sound) (ticker : Ticker) :
    (connection.take (.subscribe ticker)).Sound := by
  change Sound { connection with client := connection.client.subscribe ticker }
  by_cases listed : ticker ∈ connection.client.subscribedTickers
  · rw [WebSocketClient.subscribe_listed listed]
    exact sound
  · have distinct : (connection.client.subscribedTickers ++ [ticker]).Nodup := by
      rw [List.nodup_append]
      refine ⟨sound.distinct, List.nodup_singleton _, fun other among last final same => ?_⟩
      rw [same, List.mem_singleton.mp final] at among
      exact listed among
    rw [WebSocketClient.subscribe_unlisted listed]
    cases connected : connection.client.connected with
    | true =>
      -- the command goes out on the connection that has announced all others
      have stage := sound.connected.mp connected
      obtain ⟨asked, fills⟩ := sound.up stage
      constructor
      · exact distinct
      · exact ⟨fun _ => stage, fun _ => connected⟩
      · intro opening
        cases opening.symm.trans stage
      · intro _
        constructor
        · intro other
          have sent := WebSocketClient.asksFor_sendSubscribe (connection.client.listing ticker) ticker other
          have before : (connection.client.listing ticker).asksFor other = connection.client.asksFor other := rfl
          have known : other ∈ connection.client.subscribedTickers ++ [ticker] ↔
              other ∈ connection.client.subscribedTickers ∨ other = ticker := by simp
          change ((connection.client.listing ticker).sendSubscribe ticker).asksFor other =
            if other ∈ connection.client.subscribedTickers ++ [ticker] then 1 else 0
          rw [sent, before, asked other]
          simp only [known]
          by_cases same : other = ticker
          · subst same
            simp [listed]
          · simp [same]
        · exact (WebSocketClient.asksForFills_sendSubscribe _ ticker).trans fills
    | false =>
      have below : connection.stage ≠ .up := by
        intro stage
        rw [sound.connected.mpr stage] at connected
        cases connected
      constructor
      · exact distinct
      · simpa [WebSocketClient.listing, connected] using below
      · exact sound.opening
      · exact fun up => absurd up below

theorem Sound.opened {connection : Connection} (sound : connection.Sound) : (connection.take .opened).Sound := by
  unfold take
  dsimp only
  split
  next down =>
    have idle : connection.client.connected = false := by
      have := sound.connected
      simpa [down] using this
    constructor
    · exact sound.distinct
    · simpa [WebSocketClient.openConnection, WebSocketClient.sendSubscribeFills, WebSocketClient.send] using idle
    · intro _
      constructor
      · intro ticker
        simp [WebSocketClient.asksFor, WebSocketClient.openConnection, WebSocketClient.sendSubscribeFills,
          WebSocketClient.send, Subscribe.asksFor]
      · simp [WebSocketClient.asksForFills, WebSocketClient.openConnection, WebSocketClient.sendSubscribeFills,
          WebSocketClient.send, Subscribe.asksForFills]
    · intro up
      cases up
  next => exact sound

theorem Sound.announced {connection : Connection} (sound : connection.Sound) : (connection.take .announced).Sound := by
  unfold take
  dsimp only
  split
  next opening =>
    obtain ⟨missing, fills⟩ := sound.opening opening
    obtain ⟨asked, fills', listed, connected⟩ := WebSocketClient.announce_spec connection.client.subscribedTickers
      { connection.client with connected := true }
    constructor
    · exact listed ▸ sound.distinct
    · exact iff_of_true connected rfl
    · intro opening
      cases opening
    · intro _
      refine ⟨fun ticker => ?_, fills'.trans fills⟩
      change (connection.client.subscribedTickers.foldl WebSocketClient.sendSubscribe _).asksFor ticker =
        if ticker ∈ (connection.client.subscribedTickers.foldl WebSocketClient.sendSubscribe
          _).subscribedTickers then 1
        else 0
      rw [asked, listed]
      -- nothing was asked for on this connection before the announcement
      have before : WebSocketClient.asksFor { connection.client with connected := true } ticker = 0 := missing ticker
      rw [before, zero_add]
      split
      next among => exact List.count_eq_one_of_mem sound.distinct among
      next absent => exact List.count_eq_zero_of_not_mem absent
  next => exact sound

theorem Sound.take {connection : Connection} (sound : connection.Sound) (turn : ConnectionTurn) :
    (connection.take turn).Sound := by
  cases turn with
  | subscribe ticker => exact sound.subscribe ticker
  | opened => exact sound.opened
  | announced => exact sound.announced
  | lost => exact ⟨sound.distinct, sound.connected, sound.opening, sound.up⟩
  | disconnected =>
    unfold Connection.take
    dsimp only
    split
    · refine ⟨sound.distinct, ?_, ?_, ?_⟩ <;> simp [WebSocketClient.handleDisconnect]
    · exact sound

theorem take_listed (connection : Connection) (turn : ConnectionTurn) (ticker : Ticker) :
    ticker ∈ (connection.take turn).client.subscribedTickers ↔
      ticker ∈ connection.client.subscribedTickers ∨ turn = .subscribe ticker := by
  cases turn with
  | subscribe name =>
    change ticker ∈ (connection.client.subscribe name).subscribedTickers ↔ _
    -- a ticker is listed once, sent or not
    by_cases listed : name ∈ connection.client.subscribedTickers
    · rw [WebSocketClient.subscribe_listed listed]
      constructor
      · exact .inl
      · rintro (among | same)
        · exact among
        · cases same
          exact listed
    · have here : ticker ∈ connection.client.subscribedTickers ++ [name] ↔
          ticker ∈ connection.client.subscribedTickers ∨ ConnectionTurn.subscribe name = .subscribe ticker := by
        simp [eq_comm]
      rw [WebSocketClient.subscribe_unlisted listed]
      split
      · exact here
      · exact here
  | opened =>
    unfold take
    dsimp only
    split <;> simp [WebSocketClient.openConnection, WebSocketClient.sendSubscribeFills, WebSocketClient.send]
  | announced =>
    unfold take
    dsimp only
    split
    next =>
      obtain ⟨_, _, listed, _⟩ := WebSocketClient.announce_spec connection.client.subscribedTickers
        { connection.client with connected := true }
      rw [WebSocketClient.announceAll, listed]
      simp
    next => simp
  | lost => simp [take]
  | disconnected =>
    unfold take
    dsimp only
    split <;> simp [WebSocketClient.handleDisconnect]

theorem after_sound (turns : List ConnectionTurn) : (after turns).Sound := by
  induction turns using List.reverseRecOn with
  | nil => exact initial_sound
  | append_singleton turns turn ih =>
    unfold after at ih ⊢
    rw [List.foldl_append]
    exact ih.take turn

theorem after_listed (turns : List ConnectionTurn) (ticker : Ticker) :
    ticker ∈ (after turns).client.subscribedTickers ↔ .subscribe ticker ∈ turns := by
  induction turns using List.reverseRecOn with
  | nil => simp [after]
  | append_singleton turns turn ih =>
    unfold after at ih ⊢
    rw [List.foldl_append, List.foldl_cons, List.foldl_nil, take_listed, ih, List.mem_append,
      List.mem_singleton, eq_comm]

end Connection

/-- No market is asked for twice on a connection, nor are the fills; and once the connect handler of a connection that
stands is through, each market subscribed so far has been asked for, and the fills. -/
theorem subscribed_once (turns : List ConnectionTurn) :
    let connection := Connection.after turns
    (connection.stage ≠ .down →
      (∀ ticker, connection.client.asksFor ticker ≤ 1) ∧ connection.client.asksForFills = 1) ∧
    (connection.stage = .up → connection.live = true → ∀ ticker,
      connection.client.asksFor ticker = if .subscribe ticker ∈ turns then 1 else 0) := by
  intro connection
  have sound : connection.Sound := Connection.after_sound turns
  constructor
  · intro standing
    cases stage : connection.stage with
    | down => exact absurd stage standing
    | opening =>
      obtain ⟨unasked, fills⟩ := sound.opening stage
      exact ⟨fun ticker => (unasked ticker).le.trans zero_le_one, fills⟩
    | up =>
      obtain ⟨asked, fills⟩ := sound.up stage
      refine ⟨fun ticker => ?_, fills⟩
      rw [asked]
      split <;> omega
  · intro stage live ticker
    rw [(sound.up stage).1 ticker]
    simp only [connection, Connection.after_listed]

/-- Two threads ask for a market while the connect handler is on its way to the mutex, on a second connection. -/
theorem subscribed_once_reconnected :
    let turns : List ConnectionTurn := [.subscribe "M", .opened, .announced, .subscribe "N", .lost, .disconnected,
      .subscribe "M", .opened, .subscribe "P", .subscribe "P", .announced, .subscribe "Q", .subscribe "N"]
    let connection := Connection.after turns
    connection.client.outbox.length = 5 ∧ connection.client.asksForFills = 1 ∧
      ∀ ticker, connection.client.asksFor ticker = if .subscribe ticker ∈ turns then 1 else 0 := by
  intro turns connection
  obtain ⟨once, all⟩ := subscribed_once turns
  exact ⟨by decide +kernel, (once (by decide +kernel)).2, all (by decide +kernel) (by decide +kernel)⟩

end Kalshi
