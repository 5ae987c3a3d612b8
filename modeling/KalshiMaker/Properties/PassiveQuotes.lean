import KalshiMaker.Engine.Steps
import KalshiMaker.Net.ScriptedHost

/-! The quoter's own bid and ask never cross, and no order it sends crosses the market or its own quote. -/
namespace Kalshi

open Effect Eff Relation Quoter TradingSession

variable {F X : Type} [Floating F]

/-- Where both sides of a market are quoted, the bid is below the ask. -/
def Uncrossed (slots : Ticker → Side → OrderId × Int) : Prop :=
  ∀ ticker, (slots ticker .yes).1 ≠ "" → (slots ticker .no).1 ≠ "" → (slots ticker .yes).2 < (slots ticker .no).2

/-- The YES price an order is sent at, with its market and side. -/
def Call.quoted : Call F → Option (Ticker × Side × Int)
  | .place ticker side price _ _ => some (ticker, side, (legOf side).orderPrice price)
  | .amend _ ticker side price _ _ => some (ticker, side, (legOf side).orderPrice price)
  | .cancel _ _ | .recordFill _ _ => none

/-- A YES price passive both to the visible book and to the slot on the other side. -/
def PassiveTo (visible : LocalOrderbook) (other : OrderId × Int) : Side → Int → Prop
  | .yes, price => (∃ ask, visible.bestAsk = some ask ∧ price < ask.priceCents) ∧ (other.1 ≠ "" → price < other.2)
  | .no, price => (∃ bid, visible.bestBid = some bid ∧ bid.priceCents < price) ∧ (other.1 ≠ "" → other.2 < price)

/-- One request of an update, from slots that do not cross to slots that do not: if it sends an order,
at a passive price. -/
structure SendsPassively (venue : Venue X) (visible : LocalOrderbook) (ticker : Ticker) (u v : Posture F) :
    Prop where
  request : ∃ aim side, Request venue aim ticker side u v
  before : Uncrossed u.ledger.slots
  after : Uncrossed v.ledger.slots
  sends : ∃ call, v.ledger.calls = u.ledger.calls ++ [⟨call, u.ledger.tickers⟩] ∧
    ∀ market side price, call.quoted = some (market, side, price) →
      market = ticker ∧ PassiveTo visible (u.ledger.slots ticker side.opposite) side price

theorem orderPrice_orderPrice (side : Side) (price : Int) :
    (legOf side).orderPrice ((legOf side).orderPrice price) = price := by
  cases side with
  | yes => rfl
  | no => exact complementPrice_complementPrice price

/-- A price apart from the slot on the other side is on the right side of it where it is live. -/
theorem Posture.Apart.bid {u : Posture F} {ticker : Ticker} {price : Int} (apart : u.Apart ticker .yes price)
    (live : (u.ledger.slots ticker .no).1 ≠ "") : price < (u.ledger.slots ticker .no).2 := by
  rcases apart with empty | clear
  · exact absurd empty live
  · simpa [legOf, bidLeg, Side.opposite] using clear

theorem Posture.Apart.ask {u : Posture F} {ticker : Ticker} {price : Int} (apart : u.Apart ticker .no price)
    (live : (u.ledger.slots ticker .yes).1 ≠ "") : (u.ledger.slots ticker .yes).2 < price := by
  rcases apart with empty | clear
  · exact absurd empty live
  · simpa [legOf, askLeg, Side.opposite] using clear

/-- A slot filled at a price apart from the other side's does not cross it. -/
theorem filled_uncrossed {u : Posture F} {ticker : Ticker} {side : Side} {price : Int} (id : OrderId)
    (apart : u.Apart ticker side price) (uncrossed : Uncrossed u.ledger.slots) :
    Uncrossed (u.ledger.setSlot ticker side (id, price)).slots := by
  intro market bidLive askLive
  rw [Ledger.setSlot_slots] at bidLive askLive ⊢
  rw [Ledger.setSlot_slots]
  by_cases here : market = ticker
  · subst here
    cases side with
    | yes =>
      simp only [true_and, ↓reduceIte, reduceCtorEq] at askLive ⊢
      exact apart.bid askLive
    | no =>
      simp only [true_and, ↓reduceIte, reduceCtorEq] at bidLive ⊢
      exact apart.ask bidLive
  · simp only [here, false_and, ↓reduceIte] at bidLive askLive ⊢
    exact uncrossed market bidLive askLive

/-- Emptied slots cross nothing. -/
theorem emptied_uncrossed {slots slots' : Ticker → Side → OrderId × Int}
    (emptied : ∀ ticker side, slots' ticker side = slots ticker side ∨ (slots' ticker side).1 = "")
    (uncrossed : Uncrossed slots) : Uncrossed slots' := by
  intro ticker bidLive askLive
  have bid := (emptied ticker .yes).resolve_right bidLive
  have ask := (emptied ticker .no).resolve_right askLive
  rw [bid] at bidLive ⊢
  rw [ask] at askLive ⊢
  exact uncrossed ticker bidLive askLive

namespace Request

variable {venue : Venue X} {aim : Aim} {ticker : Ticker} {side : Side} {u v : Posture F}

theorem uncrossed (request : Request venue aim ticker side u v) (uncrossed : Uncrossed u.ledger.slots) :
    Uncrossed v.ledger.slots := by
  have released : Uncrossed (u.ledger.setSlot ticker side ("", (u.ledger.slots ticker side).2)).slots := by
    apply emptied_uncrossed _ uncrossed
    intro market other
    rw [Ledger.setSlot_slots]
    split
    · exact .inr rfl
    · exact .inl rfl
  cases request with
  | placed _ apart _ _ _ _ _ _ _ _ => exact filled_uncrossed _ apart uncrossed
  | amended _ apart _ _ => exact filled_uncrossed _ apart uncrossed
  | placeFailed _ _ _ _ | amendFailed _ _ _ _ | kept => exact uncrossed
  | released | forgotten _ => exact released

/-- A request makes one call; an order goes out at the price aimed at, apart from the other slot. -/
theorem call (request : Request venue aim ticker side u v) :
    ∃ call, v.ledger.calls = u.ledger.calls ++ [⟨call, u.ledger.tickers⟩] ∧
      ∀ market leg price, call.quoted = some (market, leg, price) →
        market = ticker ∧ leg = side ∧ aim side = some price ∧ u.Apart ticker side price := by
  have order : ∀ {call : Call F} {desired : Int}, aim side = some desired → u.Apart ticker side desired →
      call.quoted = some (ticker, side, (legOf side).orderPrice ((legOf side).orderPrice desired)) →
      ∀ market leg price, call.quoted = some (market, leg, price) →
        market = ticker ∧ leg = side ∧ aim side = some price ∧ u.Apart ticker side price := by
    intro call desired wanted apart quoted market leg price sent
    rw [quoted, orderPrice_orderPrice] at sent
    cases sent
    exact ⟨rfl, rfl, wanted, apart⟩
  cases request with
  | placed wanted apart _ _ _ _ _ _ _ _ => exact ⟨_, rfl, order wanted apart rfl⟩
  | placeFailed wanted apart _ _ => exact ⟨_, rfl, order wanted apart rfl⟩
  | amended wanted apart _ _ => exact ⟨_, rfl, order wanted apart rfl⟩
  | amendFailed wanted apart _ _ => exact ⟨_, rfl, order wanted apart rfl⟩
  | released | forgotten _ | kept => exact ⟨_, rfl, nofun⟩

end Request

/-- Every request of an update towards a passive aim sends passively. -/
theorem request_sendsPassively {venue : Venue X} {s : Desk F X} {visible : LocalOrderbook} {ticker : Ticker}
    {aim : Aim} (aimed : Aimed s ticker visible aim) {side : Side} {u v : Posture F}
    (uncrossed : Uncrossed u.ledger.slots) (request : Request venue aim ticker side u v) :
    SendsPassively venue visible ticker u v := by
  refine ⟨⟨aim, side, request⟩, uncrossed, request.uncrossed uncrossed, ?_⟩
  obtain ⟨call, calls, sent⟩ := request.call
  refine ⟨call, calls, fun market leg price quoted => ?_⟩
  obtain ⟨here, rfl, wanted, apart⟩ := sent market leg price quoted
  refine ⟨here, ?_⟩
  cases leg with
  | yes => exact ⟨aimed.bid price wanted, apart.bid⟩
  | no => exact ⟨aimed.ask price wanted, apart.ask⟩

variable (venue : Venue X)

theorem update_sendsPassively {s : Desk F X} (uncrossed : Uncrossed s.ledger.slots) (ticker : Ticker)
    (book : LocalOrderbook) :
    ReflTransGen (SendsPassively venue (s.bookWithoutOwnQuotes ticker book) ticker) s.posture
      (update venue ticker book s).2.posture := by
  obtain ⟨aim, aimed, chain⟩ := update_requests venue ticker book s
  have within := chain_along (fun u : Posture F => Uncrossed u.ledger.slots)
    (fun u v ⟨_, request⟩ uncrossed => request.uncrossed uncrossed) chain uncrossed
  apply ReflTransGen.mono _ _ _ within
  rintro u v ⟨uncrossed, side, request⟩
  exact request_sendsPassively aimed uncrossed request

/-- The operations on the quoter, whatever the exchange answers, and whatever the rest of the program
does in between. -/
inductive QuoterMove (s : Desk F X) : Desk F X → Prop where
  | update (ticker : Ticker) (book : LocalOrderbook) : QuoterMove s (update venue ticker book s).2
  | forgetOrder (ticker : Ticker) (orderId : OrderId) :
      QuoterMove s { s with quoter := s.quoter.forgetOrder ticker orderId }
  | forgetTicker (ticker : Ticker) : QuoterMove s { s with quoter := s.quoter.forgetTicker ticker }
  | resetQuotes : QuoterMove s { s with quoter := s.quoter.resetQuotes }
  | elsewhere {s' : Desk F X} (same : s'.quoter.ownQuotes = s.quoter.ownQuotes) : QuoterMove s s'

theorem quoterMove_uncrossed {s s' : Desk F X} (move : QuoterMove venue s s')
    (uncrossed : Uncrossed s.ledger.slots) : Uncrossed s'.ledger.slots := by
  cases move with
  | update ticker book =>
    exact chain_invariant (fun u : Posture F => Uncrossed u.ledger.slots) (fun _ _ sends _ => sends.after)
      (update_sendsPassively venue uncrossed ticker book) uncrossed
  | forgetOrder ticker orderId =>
    rw [forgetOrder_ledger]
    exact emptied_uncrossed (forgetOrder_cleared ticker orderId s.ledger.slots) uncrossed
  | forgetTicker ticker =>
    rw [forgetTicker_ledger]
    exact emptied_uncrossed (forgetTicker_cleared ticker s.ledger.slots) uncrossed
  | resetQuotes => exact emptied_uncrossed (fun _ _ => .inr rfl) uncrossed
  | elsewhere same =>
    have slots : s'.ledger.slots = s.ledger.slots := by
      simp only [Desk.ledger, same]
    rw [slots]
    exact uncrossed

/-- From a quoter without quotes, in whatever order its operations come: its quotes do not cross, and an
update moves by requests that each leave them so and send passively. -/
theorem quotes_passive_uncrossed {start s : Desk F X} (vacant : ∀ ticker, start.quoter.ownQuotes ticker = fun _ => {})
    (reached : ReflTransGen (QuoterMove venue) start s) :
    Uncrossed s.ledger.slots ∧ ∀ ticker book,
      ReflTransGen (SendsPassively venue (s.bookWithoutOwnQuotes ticker book) ticker) s.posture
        (update venue ticker book s).2.posture := by
  have initial : Uncrossed start.ledger.slots := by
    intro ticker live
    simp [Desk.ledger, vacant] at live
  have uncrossed : Uncrossed s.ledger.slots :=
    chain_invariant (fun s : Desk F X => Uncrossed s.ledger.slots) (fun _ _ move => quoterMove_uncrossed venue move)
      reached initial
  exact ⟨uncrossed, update_sendsPassively venue uncrossed⟩

/-- Quoted at 48 and 52, then with the ask's order forgotten. -/
theorem quotes_passive_uncrossed_forgotten :
    let venue : Venue Script := ⟨⟨"exchange"⟩, Script.host⟩
    let book : LocalOrderbook := ⟨{ ticker := "M", yes := [⟨40, ⟨1000⟩⟩], no := [⟨40, ⟨1000⟩⟩] }⟩
    let start : Desk ℚ Script := (Process.start { tickers := ["M"] } {} {} {} none none false false).desk
    let quoted := (update venue "M" book start).2
    let forgotten := { quoted with quoter := quoted.quoter.forgetOrder "M" "order-2" }
    (quoted.ledger.slots "M" .yes, quoted.ledger.slots "M" .no) = (("order-1", 48), ("order-2", 52)) ∧
      Uncrossed forgotten.ledger.slots ∧ ∀ ticker book,
        ReflTransGen (SendsPassively venue (forgotten.bookWithoutOwnQuotes ticker book) ticker) forgotten.posture
          (update venue ticker book forgotten).2.posture := by
  intro venue book start quoted forgotten
  have reached : ReflTransGen (QuoterMove venue) start forgotten :=
    .tail (.single (.update "M" book)) (.forgetOrder "M" "order-2")
  exact ⟨by decide +kernel, quotes_passive_uncrossed venue (fun _ => rfl) reached⟩

end Kalshi
