import KalshiMaker.App.Rotation
import KalshiMaker.Engine.Looks
import KalshiMaker.Engine.Process
import KalshiMaker.Lib.Run
import KalshiMaker.Net.ScriptedHost

/-! The session's books against the exchange's, as markets are rotated out and in on one connection. -/
namespace Kalshi

open Effect Eff Relation TradingSession

variable {F X : Type} [Floating F]

/-- What a message makes of the book of a market. -/
def BookMessage.on (ticker : Ticker) (book : LocalOrderbook) : BookMessage → LocalOrderbook
  | .snapshot seed => if seed.ticker = ticker then LocalOrderbook.applySnapshot seed else book
  | .delta other side priceCents qty => if other = ticker then book.applyDelta side priceCents qty else book

def replay (ticker : Ticker) (book : LocalOrderbook) (messages : List BookMessage) : LocalOrderbook :=
  messages.foldl (BookMessage.on ticker) book

theorem replay_append (ticker : Ticker) (book : LocalOrderbook) (first second : List BookMessage) :
    replay ticker book (first ++ second) = replay ticker (replay ticker book first) second :=
  List.foldl_append

namespace Rotation

/-- A subscribe command for a market is on its way. -/
def Requested (m : Rotation F X) (ticker : Ticker) : Prop := ∃ command ∈ m.client.outbox, ticker ∈ command.books

/-- A snapshot of a market is still to come from the exchange: its command is on its way, or about to be sent. -/
def Awaited (m : Rotation F X) (ticker : Ticker) : Prop :=
  m.Requested ticker ∨ (m.adoption = .added ticker ∧ ticker ∉ m.client.subscribedTickers)

/-- A market's book with the messages under way is the exchange's book. -/
def Current (m : Rotation F X) (ticker : Ticker) : Prop :=
  replay ticker (m.desk.session.book ticker) m.flight = (m.market ticker).book

/-! ### Messages on the session -/

variable (venue : Venue X)

theorem quotes_tickers {ticker : Ticker} {s s' : Desk F X}
    (chain : ReflTransGen (fun L L' : Ledger F => Ledger.QuoteStep ticker L L') s.ledger s'.ledger) :
    s'.session.tickers = s.session.tickers :=
  chain_invariant (fun L : Ledger F => L.tickers = s.session.tickers)
    (fun _ _ step same => (Ledger.quoteStep_tickers step).trans same) chain rfl

theorem deliver_tickers (message : BookMessage) (s : Desk F X) :
    (deliver venue message s).2.session.tickers = s.session.tickers := by
  cases message with
  | snapshot snapshot => rfl
  | delta ticker side priceCents qty =>
    have leads := onDelta_leads (ledger_reacts venue) ticker side priceCents qty s
    exact quotes_tickers (leads.mono fun _ _ => And.right)

theorem deliver_book (message : BookMessage) (s : Desk F X) (ticker : Ticker) :
    (deliver venue message s).2.session.book ticker = message.on ticker (s.session.book ticker) := by
  cases message with
  | snapshot seed =>
    have inserted : (onSnapshot venue seed s).2.session.obMap =
      s.session.obMap.insert seed.ticker (LocalOrderbook.applySnapshot seed) := rfl
    exact book_of_insert inserted ticker
  | delta other side priceCents qty =>
    have inserted := (onDelta_shown venue other side priceCents qty s).1
    refine (book_of_insert inserted ticker).trans ?_
    by_cases same : other = ticker
    · subst same
      rfl
    · simp only [BookMessage.on, if_neg same]

theorem addMarket_tickers (snapshot : Orderbook) (s : Desk F X) :
    (addMarket venue snapshot s).2.session.tickers = (s.session.adopt snapshot.ticker).tickers := by
  rw [addMarket_eq]
  exact quotes_tickers (seedOrderbook_leads (ledger_reacts venue) snapshot _)

theorem addMarket_book (snapshot : Orderbook) (s : Desk F X) (ticker : Ticker) :
    (addMarket venue snapshot s).2.session.book ticker =
      if snapshot.ticker = ticker then LocalOrderbook.applySnapshot snapshot else s.session.book ticker := by
  rw [addMarket_eq]
  have inserted := congrArg Prod.fst (seedOrderbook_shown venue snapshot
    { s with session := s.session.adopt snapshot.ticker })
  have kept : (s.session.adopt snapshot.ticker).obMap = s.session.obMap := by
    unfold adopt
    split <;> rfl
  refine (book_of_insert inserted ticker).trans ?_
  unfold TradingSession.book
  rw [kept]

/-! ### Everything under way arriving -/

/-- On a connection, a subscription not listed yet is listed and asked for. -/
theorem subscribe_new {client : WebSocketClient} {ticker : Ticker} (connected : client.connected = true)
    (new : ticker ∉ client.subscribedTickers) :
    (client.subscribe ticker).outbox =
        client.outbox ++ [⟨client.nextMsgId, ["orderbook_delta", "trade"], [ticker]⟩] ∧
      (client.subscribe ticker).subscribedTickers = client.subscribedTickers ++ [ticker] ∧
      (client.subscribe ticker).connected = true := by
  unfold WebSocketClient.subscribe
  rw [if_neg new]
  dsimp only
  rw [if_pos connected]
  exact ⟨rfl, rfl, connected⟩

theorem subscribe_listed {client : WebSocketClient} {ticker : Ticker} (listed : ticker ∈ client.subscribedTickers) :
    client.subscribe ticker = client := if_pos listed

/-- What the subscribe call in hand does not touch. -/
theorem finish_frame (m : Rotation F X) :
    m.finish.desk = m.desk ∧ m.finish.market = m.market ∧ m.finish.flight = m.flight ∧
      m.finish.streams = m.streams := by
  unfold finish
  split <;> exact ⟨rfl, rfl, rfl, rfl⟩

/-- After the subscribe call, what was awaited is asked for. -/
theorem finish_requested {m : Rotation F X} (connected : m.client.connected = true) (ticker : Ticker) :
    m.finish.Requested ticker ↔ m.Awaited ticker := by
  unfold finish Awaited Requested
  cases adoption : m.adoption with
  | idle | fetched _ => simp
  | added adopted =>
    dsimp only
    -- a ticker on the list is not asked for again
    by_cases listed : adopted ∈ m.client.subscribedTickers
    · rw [subscribe_listed listed]
      constructor
      · exact .inl
      · rintro (asked | ⟨same, unlisted⟩)
        · exact asked
        · cases same
          exact absurd listed unlisted
    · obtain ⟨outbox, _⟩ := subscribe_new connected listed
      rw [outbox]
      simp only [List.mem_append, List.mem_singleton, or_and_right, exists_or, exists_eq_left]
      apply or_congr_right
      simp only [Subscribe.books, List.mem_cons, true_or, if_true, List.not_mem_nil, or_false,
        Adoption.added.injEq]
      constructor
      · rintro rfl
        exact ⟨rfl, listed⟩
      · exact fun same => same.1.symm

/-- The snapshot of a market makes its replay the exchange's book, and leaves the others alone. -/
theorem stream_replay (m : Rotation F X) (other ticker : Ticker) (book : LocalOrderbook) :
    replay ticker book (m.stream other).flight =
      if ticker = other then (m.market ticker).book else replay ticker book m.flight := by
  have named : (m.market other).read.ticker = other := (m.market other).named
  change replay ticker book (m.flight ++ [.snapshot (m.market other).read]) = _
  rw [replay_append]
  change (if (m.market other).read.ticker = ticker then LocalOrderbook.applySnapshot (m.market other).read
    else replay ticker book m.flight) = _
  rw [named, MarketBook.applySnapshot_read]
  by_cases same : ticker = other
  · subst same
    rw [if_pos rfl]
  · rw [if_neg same, if_neg (Ne.symm same)]

/-- What the exchange's answers to subscriptions do not touch. -/
structure Answers (before after : Rotation F X) : Prop where
  desk : after.desk = before.desk
  market : after.market = before.market
  adoption : after.adoption = before.adoption
  listed : after.client.subscribedTickers = before.client.subscribedTickers
  connected : after.client.connected = before.client.connected

theorem streams_frame (tickers : List Ticker) (m : Rotation F X) :
    Answers m (tickers.foldl stream m) ∧ (tickers.foldl stream m).client.outbox = m.client.outbox := by
  induction tickers generalizing m with
  | nil => exact ⟨⟨rfl, rfl, rfl, rfl, rfl⟩, rfl⟩
  | cons other tickers ih =>
    obtain ⟨⟨desk, market, adoption, listed, connected⟩, outbox⟩ := ih (m.stream other)
    exact ⟨⟨desk, market, adoption, listed, connected⟩, outbox⟩

theorem streams_replay (tickers : List Ticker) (m : Rotation F X) (ticker : Ticker) (book : LocalOrderbook) :
    replay ticker book (tickers.foldl stream m).flight =
      if ticker ∈ tickers then (m.market ticker).book else replay ticker book m.flight := by
  induction tickers generalizing m with
  | nil => simp
  | cons other tickers ih =>
    rw [List.foldl_cons, ih (m.stream other), stream_replay]
    by_cases later : ticker ∈ tickers
    · simp [later, stream]
    · simp [later]

/-- A market keeps its stream, and gets one when it is subscribed. -/
theorem streams_streams (tickers : List Ticker) (m : Rotation F X) (ticker : Ticker) :
    (tickers.foldl stream m).streams ticker = true ↔ ticker ∈ tickers ∨ m.streams ticker = true := by
  induction tickers generalizing m with
  | nil => simp
  | cons other tickers ih =>
    rw [List.foldl_cons, ih (m.stream other)]
    by_cases same : ticker = other
    · subst same
      simp [stream]
    · simp [stream, same]

theorem accept_frame (m : Rotation F X) :
    Answers m m.accept ∧ m.accept.client.outbox = m.client.outbox.tail := by
  unfold accept
  cases asked : m.client.outbox with
  | nil => exact ⟨⟨rfl, rfl, rfl, rfl, rfl⟩, asked⟩
  | cons command outbox =>
    obtain ⟨⟨desk, market, adoption, listed, connected⟩, rest⟩ :=
      streams_frame command.books { m with client := { m.client with outbox } }
    exact ⟨⟨desk, market, adoption, listed, connected⟩, rest⟩

theorem accept_replay {m : Rotation F X} {command : Subscribe} {outbox : List Subscribe}
    (asked : m.client.outbox = command :: outbox) (ticker : Ticker) (book : LocalOrderbook) :
    replay ticker book m.accept.flight =
      if ticker ∈ command.books then (m.market ticker).book else replay ticker book m.flight := by
  unfold accept
  rw [asked]
  exact streams_replay command.books _ ticker book

theorem requested_cons {m : Rotation F X} {command : Subscribe} {outbox : List Subscribe}
    (asked : m.client.outbox = command :: outbox) (ticker : Ticker) :
    m.Requested ticker ↔ ticker ∈ command.books ∨ m.accept.Requested ticker := by
  unfold Requested
  rw [(accept_frame m).2, asked]
  simp

/-- Once every command is answered, the replay of a market asked for ends in its snapshot. -/
theorem acceptAll_replay (commands : List Subscribe) {m : Rotation F X} (asked : m.client.outbox = commands) :
    Answers m (commands.foldl (fun m _ => m.accept) m) ∧ ∀ ticker book,
      (m.Requested ticker →
        replay ticker book (commands.foldl (fun m _ => m.accept) m).flight = (m.market ticker).book) ∧
      (¬ m.Requested ticker →
        replay ticker book (commands.foldl (fun m _ => m.accept) m).flight = replay ticker book m.flight) := by
  induction commands generalizing m with
  | nil =>
    refine ⟨⟨rfl, rfl, rfl, rfl, rfl⟩, fun ticker book => ⟨?_, fun _ => rfl⟩⟩
    rintro ⟨command, among, _⟩
    rw [asked] at among
    exact absurd among List.not_mem_nil
  | cons command commands ih =>
    obtain ⟨same, tail⟩ := accept_frame m
    obtain ⟨later, replayed⟩ := ih (m := m.accept) (by rw [tail, asked]; rfl)
    refine ⟨⟨later.desk.trans same.desk, later.market.trans same.market, later.adoption.trans same.adoption,
      later.listed.trans same.listed, later.connected.trans same.connected⟩, fun ticker book => ?_⟩
    rw [List.foldl_cons, requested_cons asked]
    -- the last snapshot of a market decides, so a later command for it takes precedence
    by_cases again : m.accept.Requested ticker
    · refine ⟨fun _ => ?_, fun unasked => absurd (.inr again) unasked⟩
      rw [(replayed ticker book).1 again, same.market]
    · rw [(replayed ticker book).2 again, accept_replay asked]
      constructor
      · exact fun wanted => if_pos (wanted.resolve_right again)
      · exact fun unasked => if_neg fun here => unasked (.inl here)

theorem receiveAll_book (messages : List BookMessage) {m : Rotation F X} (flight : m.flight = messages) :
    (messages.foldl (fun m _ => m.receive venue) m).desk.session.tickers = m.desk.session.tickers ∧
      (messages.foldl (fun m _ => m.receive venue) m).market = m.market ∧
      ∀ ticker, (messages.foldl (fun m _ => m.receive venue) m).desk.session.book ticker =
        replay ticker (m.desk.session.book ticker) messages := by
  induction messages generalizing m with
  | nil => exact ⟨rfl, rfl, fun _ => rfl⟩
  | cons message messages ih =>
    have received : m.receive venue = { m with desk := (deliver venue message m.desk).2, flight := messages } := by
      unfold receive
      rw [flight]
    obtain ⟨tickers, market, books⟩ := ih (m := m.receive venue) (by rw [received])
    rw [List.foldl_cons]
    refine ⟨?_, ?_, fun ticker => ?_⟩
    · rw [tickers, received]
      exact deliver_tickers venue message m.desk
    · rw [market, received]
    · rw [books ticker, received]
      exact congrArg (fun book => replay ticker book messages) (deliver_book venue message m.desk ticker)

/-- Once everything under way has arrived, the books of the tracked markets are the exchange's exactly if each is
current or has a snapshot to come. -/
theorem settled_synced_iff {m : Rotation F X} (connected : m.client.connected = true) :
    (m.settled venue).Synced ↔ ∀ ticker ∈ m.desk.session.tickers, m.Awaited ticker ∨ m.Current ticker := by
  obtain ⟨desk, market, flight, _⟩ := finish_frame m
  obtain ⟨answers, replayed⟩ := acceptAll_replay m.finish.client.outbox (m := m.finish) rfl
  obtain ⟨tickers, market', books⟩ :=
    receiveAll_book venue _ (m := m.finish.client.outbox.foldl (fun m _ => m.accept) m.finish) rfl
  unfold Synced settled
  dsimp only
  rw [tickers, market', answers.market, answers.desk, desk, market]
  apply forall₂_congr
  intro ticker _
  rw [books ticker, answers.desk, desk, ← finish_requested connected ticker]
  by_cases asked : m.finish.Requested ticker
  · rw [(replayed ticker _).1 asked, market]
    exact iff_of_true rfl (.inl asked)
  · rw [(replayed ticker _).2 asked, flight]
    exact (or_iff_right asked).symm

/-! ### Steps -/

/-- A market adopted again while it is still listed has a snapshot to come, or its REST read with the messages under
way is the exchange's book. -/
def CaughtUp (m : Rotation F X) : Happening F X → Prop
  | .added => ∀ seed, m.adoption = .fetched seed → seed.ticker ∈ m.client.subscribedTickers →
      m.Requested seed.ticker ∨
        replay seed.ticker (LocalOrderbook.applySnapshot seed) m.flight = (m.market seed.ticker).book
  | _ => True

structure Sound (m : Rotation F X) : Prop where
  connected : m.client.connected = true
  listed : ∀ ticker ∈ m.desk.session.tickers, ticker ∈ m.client.subscribedTickers ∨ m.adoption = .added ticker
  streamed : ∀ ticker ∈ m.client.subscribedTickers, m.Requested ticker ∨ m.streams ticker = true
  current : ∀ ticker ∈ m.desk.session.tickers, m.Awaited ticker ∨ m.Current ticker

theorem sends_spec (tickers : List Ticker) (client : WebSocketClient) :
    (tickers.foldl WebSocketClient.sendSubscribe client).connected = client.connected ∧
      (tickers.foldl WebSocketClient.sendSubscribe client).subscribedTickers = client.subscribedTickers ∧
      (∀ command ∈ client.outbox, command ∈ (tickers.foldl WebSocketClient.sendSubscribe client).outbox) ∧
      ∀ ticker ∈ tickers, ∃ command ∈ (tickers.foldl WebSocketClient.sendSubscribe client).outbox,
        ticker ∈ command.books := by
  induction tickers generalizing client with
  | nil => exact ⟨rfl, rfl, fun _ sent => sent, fun _ among => absurd among List.not_mem_nil⟩
  | cons first tickers ih =>
    obtain ⟨connected, listed, kept, sent⟩ := ih (client.sendSubscribe first)
    refine ⟨connected, listed, fun command before => ?_, fun ticker among => ?_⟩
    · exact kept command (List.mem_append_left _ before)
    · rcases List.mem_cons.mp among with rfl | later
      · exact ⟨_, kept _ (List.mem_append_right _ (List.mem_singleton_self _)), by simp [Subscribe.books]⟩
      · exact sent ticker later

/-- On a new connection every listed market is asked for. -/
theorem handleConnect_spec (client : WebSocketClient) :
    client.handleConnect.connected = true ∧
      client.handleConnect.subscribedTickers = client.subscribedTickers ∧
      ∀ ticker ∈ client.subscribedTickers, ∃ command ∈ client.handleConnect.outbox, ticker ∈ command.books := by
  obtain ⟨connected, listed, _, sent⟩ := sends_spec client.subscribedTickers
    { WebSocketClient.sendSubscribeFills { client with
        lastSeqBySid := fun _ => none
        closeRequested := false
        outbox := []
        checked := [] } with connected := true }
  exact ⟨connected, listed, sent⟩

theorem start_sound (desk : Desk F X) (market : (ticker : Ticker) → MarketBook ticker) :
    (start desk market).Sound := by
  obtain ⟨connected, listed, sent⟩ := handleConnect_spec { subscribedTickers := desk.session.tickers }
  refine ⟨connected, fun ticker tracked => ?_, fun ticker among => ?_, fun ticker tracked => ?_⟩
  · exact .inl (listed.symm ▸ tracked)
  · exact .inl (sent ticker (listed ▸ among))
  · exact .inl (.inl (sent ticker tracked))

variable {venue} in
theorem moved_sound {m : Rotation F X} (sound : m.Sound) (ticker : Ticker) (side : Side) (priceCents : Int)
    (qty : Quantity) : (m.step venue (.moved ticker side priceCents qty)).Sound := by
  refine ⟨sound.connected, sound.listed, sound.streamed, fun other tracked => ?_⟩
  rcases sound.current other tracked with awaited | current
  · exact .inl awaited
  · by_cases awaited : m.Awaited other
    · exact .inl awaited
    · right
      unfold Current at current ⊢
      -- a tracked market that is not awaited has a live stream, or its deltas would be lost
      have live : m.streams other = true := by
        rcases sound.listed other tracked with listed | added
        · exact (sound.streamed other listed).resolve_left fun asked => awaited (.inl asked)
        · by_contra quiet
          by_cases listed : other ∈ m.client.subscribedTickers
          · exact ((sound.streamed other listed).resolve_right quiet) |> fun asked => awaited (.inl asked)
          · exact awaited (.inr ⟨added, listed⟩)
      change replay other (m.desk.session.book other)
        (m.flight ++ if m.streams ticker then [.delta ticker side priceCents qty] else []) =
          (Function.update m.market ticker ((m.market ticker).shift side priceCents qty) other).book
      rw [replay_append, current]
      by_cases same : ticker = other
      · subst same
        rw [live, Function.update_self]
        exact if_pos rfl
      · rw [Function.update_of_ne (Ne.symm same)]
        split
        · exact if_neg same
        · rfl

theorem accept_streams {m : Rotation F X} {command : Subscribe} {outbox : List Subscribe}
    (asked : m.client.outbox = command :: outbox) (ticker : Ticker) :
    m.accept.streams ticker = true ↔ ticker ∈ command.books ∨ m.streams ticker = true := by
  unfold accept
  rw [asked]
  exact streams_streams command.books _ ticker

theorem accept_sound {m : Rotation F X} (sound : m.Sound) : m.accept.Sound := by
  cases asked : m.client.outbox with
  | nil =>
    have idle : m.accept = m := by
      unfold accept
      rw [asked]
    rw [idle]
    exact sound
  | cons command outbox =>
    obtain ⟨same, _⟩ := accept_frame m
    constructor
    · rw [same.connected]
      exact sound.connected
    · rw [same.desk, same.listed, same.adoption]
      exact sound.listed
    · intro ticker listed
      rw [same.listed] at listed
      rw [accept_streams asked]
      rcases sound.streamed ticker listed with wanted | live
      · rcases (requested_cons asked ticker).mp wanted with now | later
        · exact .inr (.inl now)
        · exact .inl later
      · exact .inr (.inr live)
    · intro ticker tracked
      rw [same.desk] at tracked
      -- the command's snapshot is what the market is now
      have answered : ticker ∈ command.books → m.accept.Current ticker := by
        intro now
        unfold Current
        rw [accept_replay asked, if_pos now, same.market]
      rcases sound.current ticker tracked with (wanted | ⟨added, unlisted⟩) | current
      · rcases (requested_cons asked ticker).mp wanted with now | later
        · exact .inr (answered now)
        · exact .inl (.inl later)
      · exact .inl (.inr ⟨same.adoption.trans added, same.listed ▸ unlisted⟩)
      · by_cases now : ticker ∈ command.books
        · exact .inr (answered now)
        · right
          unfold Current
          rw [accept_replay asked, if_neg now, same.market, same.desk]
          exact current

variable {venue} in
theorem receive_sound {m : Rotation F X} (sound : m.Sound) : (m.receive venue).Sound := by
  cases flight : m.flight with
  | nil =>
    have idle : m.receive venue = m := by
      unfold receive
      rw [flight]
    rw [idle]
    exact sound
  | cons message messages =>
    have received : m.receive venue = { m with desk := (deliver venue message m.desk).2, flight := messages } := by
      unfold receive
      rw [flight]
    rw [received]
    refine ⟨sound.connected, ?_, sound.streamed, ?_⟩
    · intro ticker tracked
      rw [deliver_tickers venue message m.desk] at tracked
      exact sound.listed ticker tracked
    · intro ticker tracked
      rw [deliver_tickers venue message m.desk] at tracked
      refine (sound.current ticker tracked).imp_right fun current => ?_
      unfold Current at current ⊢
      rw [flight] at current
      rw [deliver_book venue message m.desk ticker]
      exact current

theorem removeMarketIfIdle_run (ticker : Ticker) (s : Desk F X) :
    removeMarketIfIdle ticker s =
      if removable s ticker then (.ok true, { s with session := s.session.dropMarket ticker })
        else (.ok false, s) := by
  unfold removeMarketIfIdle
  rw [bind_apply, get_apply, andThen_ok]
  split <;> rfl

/-- The markets that stay tracked keep their books. -/
theorem removeMarketIfIdle_keeps (removed : Ticker) (s : Desk F X) {ticker : Ticker}
    (tracked : ticker ∈ (removeMarketIfIdle removed s).2.session.tickers) :
    ticker ∈ s.session.tickers ∧ (removeMarketIfIdle removed s).2.session.book ticker = s.session.book ticker := by
  rw [removeMarketIfIdle_run] at tracked ⊢
  split at tracked
  next idle =>
    rw [if_pos idle]
    obtain ⟨among, other⟩ := List.mem_filter.mp tracked
    refine ⟨among, ?_⟩
    change ((s.session.obMap.erase removed).lookup ticker).getD {} = _
    rw [AList.lookup_erase_ne (by simpa using other)]
    rfl
  next idle =>
    rw [if_neg idle]
    exact ⟨tracked, rfl⟩

variable {venue} in
theorem added_sound {m : Rotation F X} (sound : m.Sound) {seed : Orderbook} (fetched : m.adoption = .fetched seed)
    (caughtUp : seed.ticker ∈ m.client.subscribedTickers → m.Requested seed.ticker ∨
      replay seed.ticker (LocalOrderbook.applySnapshot seed) m.flight = (m.market seed.ticker).book) :
    ({ m with desk := (addMarket venue seed m.desk).2, adoption := .added seed.ticker } : Rotation F X).Sound := by
  have tickers := addMarket_tickers venue seed m.desk
  have among : ∀ ticker ∈ (addMarket venue seed m.desk).2.session.tickers,
      ticker = seed.ticker ∨ ticker ∈ m.desk.session.tickers := by
    intro ticker tracked
    rw [tickers] at tracked
    unfold adopt at tracked
    split at tracked
    · exact .inr tracked
    · exact (List.mem_append.mp tracked).symm.imp_left List.mem_singleton.mp
  refine ⟨sound.connected, ?_, sound.streamed, ?_⟩
  · intro ticker tracked
    rcases among ticker tracked with rfl | before
    · exact .inr rfl
    · left
      refine (sound.listed ticker before).resolve_right fun added => ?_
      rw [fetched] at added
      cases added
  · intro ticker tracked
    -- only the adopted market's book changes, to the seed that the caller vouches for
    by_cases own : ticker = seed.ticker
    · subst own
      by_cases listed : seed.ticker ∈ m.client.subscribedTickers
      · refine (caughtUp listed).imp .inl fun current => ?_
        unfold Current
        rw [addMarket_book, if_pos rfl]
        exact current
      · exact .inl (.inr ⟨rfl, listed⟩)
    · have before := (among ticker tracked).resolve_left own
      rcases sound.current ticker before with (asked | ⟨added, _⟩) | current
      · exact .inl (.inl asked)
      · rw [fetched] at added
        cases added
      · right
        unfold Current at current ⊢
        rw [addMarket_book, if_neg (Ne.symm own)]
        exact current

theorem finish_sound {m : Rotation F X} (sound : m.Sound) : m.finish.Sound := by
  obtain ⟨desk, market, flight, streams⟩ := finish_frame m
  have asked := finish_requested (m := m) sound.connected
  -- the list grows by the adopted market at most, and never shrinks
  have listing : m.finish.client.connected = true ∧
      (∀ ticker ∈ m.client.subscribedTickers, ticker ∈ m.finish.client.subscribedTickers) ∧
      (∀ ticker, m.adoption = .added ticker → ticker ∈ m.finish.client.subscribedTickers) ∧
      ∀ ticker ∈ m.finish.client.subscribedTickers, ticker ∈ m.client.subscribedTickers ∨ m.Awaited ticker := by
    unfold finish
    cases adoption : m.adoption with
    | idle | fetched _ => exact ⟨sound.connected, fun _ among => among, nofun, fun _ among => .inl among⟩
    | added adopted =>
      dsimp only
      by_cases listed : adopted ∈ m.client.subscribedTickers
      · rw [subscribe_listed listed]
        refine ⟨sound.connected, fun _ among => among, ?_, fun _ among => .inl among⟩
        rintro ticker ⟨⟩
        exact listed
      · obtain ⟨_, list, connected⟩ := subscribe_new sound.connected listed
        rw [list]
        refine ⟨connected, fun _ among => List.mem_append_left _ among, ?_, fun ticker among => ?_⟩
        · rintro ticker ⟨⟩
          exact List.mem_append_right _ (List.mem_singleton_self _)
        · rcases List.mem_append.mp among with before | new
          · exact .inl before
          · rw [List.mem_singleton.mp new]
            exact .inr (.inr ⟨adoption, listed⟩)
  obtain ⟨connected, kept, own, among⟩ := listing
  constructor
  · exact connected
  · intro ticker tracked
    rw [desk] at tracked
    exact .inl ((sound.listed ticker tracked).elim (kept ticker) (own ticker))
  · intro ticker listed
    rw [streams, asked]
    rcases among ticker listed with before | awaited
    · exact (sound.streamed ticker before).imp_left .inl
    · exact .inl awaited
  · intro ticker tracked
    rw [desk] at tracked
    refine (sound.current ticker tracked).imp (fun awaited => .inl ((asked ticker).mpr awaited)) fun current => ?_
    unfold Current
    rw [desk, market, flight]
    exact current

variable {venue} in
theorem step_sound {m : Rotation F X} {happening : Happening F X} (sound : m.Sound) (caughtUp : m.CaughtUp happening) :
    (m.step venue happening).Sound := by
  cases happening with
  | moved ticker side priceCents qty => exact moved_sound sound ticker side priceCents qty
  | accepted => exact accept_sound sound
  | delivered => exact receive_sound sound
  | removed ticker =>
    unfold step
    dsimp only
    split
    · refine ⟨sound.connected, fun other tracked => ?_, sound.streamed, fun other tracked => ?_⟩
      · exact sound.listed other (removeMarketIfIdle_keeps ticker m.desk tracked).1
      · obtain ⟨before, book⟩ := removeMarketIfIdle_keeps ticker m.desk tracked
        refine (sound.current other before).imp_right fun current => ?_
        unfold Current
        rw [book]
        exact current
    · exact sound
  | fetched ticker =>
    unfold step
    dsimp only
    split
    next free =>
      -- an adoption starts only where none is under way
      have notAdded : ∀ other, m.adoption ≠ .added other := by
        intro other added
        rw [free.1] at added
        cases added
      refine ⟨sound.connected, fun other tracked => ?_, sound.streamed, fun other tracked => ?_⟩
      · exact .inl ((sound.listed other tracked).resolve_right (notAdded other))
      · rcases sound.current other tracked with (asked | ⟨added, _⟩) | current
        · exact .inl (.inl asked)
        · exact absurd added (notAdded other)
        · exact .inr current
    · exact sound
  | added =>
    unfold step
    dsimp only
    split
    next seed fetched => exact added_sound sound fetched (caughtUp seed fetched)
    · exact sound
  | subscribed => exact finish_sound sound
  | elsewhere desk => exact ⟨sound.connected, sound.listed, sound.streamed, sound.current⟩

/-- An adoption that is not caught up leaves a book that the messages under way do not mend. -/
theorem step_unsettled {m : Rotation F X} {happening : Happening F X} (sound : m.Sound)
    (stale : ¬ m.CaughtUp happening) : ¬ ((m.step venue happening).settled venue).Synced := by
  cases happening with
  | added =>
    simp only [CaughtUp, Classical.not_forall, not_or] at stale
    obtain ⟨seed, fetched, listed, unasked, differs⟩ := stale
    have stepped : m.step venue .added =
        { m with desk := (addMarket venue seed m.desk).2, adoption := .added seed.ticker } := by
      simp only [step, fetched]
    rw [stepped]
    intro synced
    have tracked : seed.ticker ∈ (addMarket venue seed m.desk).2.session.tickers := by
      rw [addMarket_tickers]
      unfold adopt
      split
      next already => simpa [isTracked] using already
      next => simp
    have settles := settled_synced_iff venue (m := { m with
      desk := (addMarket venue seed m.desk).2, adoption := .added seed.ticker }) sound.connected
    -- the market is tracked now, and no snapshot is to come that would replace the stale seed
    rcases settles.mp synced seed.ticker tracked with (asked | ⟨_, unlisted⟩) | current
    · exact unasked asked
    · exact unlisted listed
    · unfold Current at current
      rw [addMarket_book, if_pos rfl] at current
      exact differs current
  | moved _ _ _ _ | accepted | delivered | removed _ | fetched _ | subscribed | elsewhere _ =>
    exact absurd trivial stale

end Rotation

/-- However the REST reads, the feed and the adoptions interleave: the books of the tracked markets always come to be
the exchange's exactly if every adoption is caught up. -/
theorem books_sync_iff (venue : Venue X) (desk : Desk F X) (market : (ticker : Ticker) → MarketBook ticker)
    (happenings : List (Happening F X)) :
    (∀ seen, seen <+: happenings →
      ((seen.foldl (Rotation.step venue) (Rotation.start desk market)).settled venue).Synced) ↔
    Run.Meets (Rotation.step venue) Rotation.CaughtUp (Rotation.start desk market) happenings :=
  Run.holds_iff_meets Rotation.Sound (fun m => (m.settled venue).Synced)
    (fun _ sound => (Rotation.settled_synced_iff venue sound.connected).mpr sound.current)
    (fun _ _ caughtUp sound => Rotation.step_sound sound caughtUp)
    (fun _ _ stale sound => Rotation.step_unsettled venue sound stale)
    (Rotation.start_sound desk market) happenings

/-- The one order of ten at 40 grows by five while the market is rotated out. -/
theorem readopted_book_differs :
    let venue : Venue Script := ⟨⟨"exchange"⟩, Script.host⟩
    let market (ticker : Ticker) : MarketBook ticker :=
      { book := ⟨{ ticker, yes := [⟨40, ⟨1000⟩⟩] }⟩
        sorted := fun side => by cases side <;> simp [LocalOrderbook.levels]
        named := rfl }
    let desk : Desk ℚ Script :=
      (Process.start { tickers := ["M"] } {} {} {} none none false false : Process ℚ Script).desk
    let settled := ([.accepted, .accepted, .accepted, .delivered, .removed "M", .moved "M" .yes 40 ⟨500⟩, .fetched "M",
      .added, .subscribed].foldl (Rotation.step venue) (Rotation.start desk market)).settled venue
    settled.desk.session.tickers = ["M"] ∧
      (settled.desk.session.book "M").levels .yes = [⟨40, ⟨2000⟩⟩] ∧
      (settled.market "M").book.levels .yes = [⟨40, ⟨1500⟩⟩] ∧ ¬ settled.Synced := by
  intro venue market desk settled
  have tracked : settled.desk.session.tickers = ["M"] := by decide +kernel
  have ours : (settled.desk.session.book "M").levels .yes = [⟨40, ⟨2000⟩⟩] := by decide +kernel
  have theirs : (settled.market "M").book.levels .yes = [⟨40, ⟨1500⟩⟩] := by decide +kernel
  refine ⟨tracked, ours, theirs, fun synced => ?_⟩
  rw [synced "M" (by simp [tracked]), theirs] at ours
  cases ours

end Kalshi
