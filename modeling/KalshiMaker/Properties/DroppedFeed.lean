import KalshiMaker.Engine.Steps
import KalshiMaker.Net.ScriptedHost

/-! Between a disconnect and the next word of the feed on a market, nothing is sent on it unless the
requote loop or a new seed quotes it. -/
namespace Kalshi

open Effect Eff Relation

variable {F X : Type} [Floating F]

/-- No order went out on the market since `before`. -/
def Ledger.SilentOn (ticker : Ticker) (before : List (Entry F)) (L : Ledger F) : Prop :=
  ∃ later, L.calls = before ++ later ∧ ∀ entry ∈ later, entry.call.sentOn ≠ some ticker

theorem Ledger.step_silent {ticker : Ticker} {before : List (Entry F)} {action : Action F} {L L' : Ledger F}
    (step : Step L action L') (other : action ≠ .quote ticker) (silent : L.SilentOn ticker before) :
    L'.SilentOn ticker before := by
  obtain ⟨later, calls, quiet⟩ := silent
  obtain ⟨more, added, sends⟩ := step.calls
  refine ⟨later ++ more, by rw [added, calls, List.append_assoc], fun entry member => ?_⟩
  rcases List.mem_append.mp member with member | member
  · exact quiet entry member
  · exact fun sent => other ((sends entry member).2 ticker sent).1

/-- The feed speaks for a market. -/
def Event.feeds (ticker : Ticker) : Event F → Prop
  | .snapshot book => book.ticker = ticker
  | .delta other _ _ _ => other = ticker
  | _ => False

namespace Process

variable (venue : Venue X)

/-- The requote loop passes the market over, and it gets no new seed. -/
def PassesOver (ticker : Ticker) (p : Process F X) : Event F → Prop
  | .requoteIdleMarkets => p.alive = true → TradingSession.RequotesOnly venue (· ≠ ticker) p.desk
  | .addMarket seed | .seedOrderbook seed => p.alive = true → seed.ticker ≠ ticker
  | _ => True

theorem handle_silent {ticker : Ticker} {p : Process F X} {event : Event F} (alive : p.alive = true)
    (dropped : ¬ event.feeds ticker) (passes : PassesOver venue ticker p event) {before : List (Entry F)}
    (silent : p.desk.ledger.SilentOn ticker before) :
    (handle venue event p.desk).2.ledger.SilentOn ticker before := by
  have only : event.QuotesOnly venue (· ≠ ticker) p.desk := by
    cases event with
    | delta other _ _ _ => exact fun _ => dropped
    | requoteIdleMarkets | addMarket _ | seedOrderbook _ => exact passes alive
    | _ => trivial
  refine chain_invariant (Ledger.SilentOn ticker before) ?_ (handle_quotes venue only) silent
  rintro L L' ⟨action, ⟨_, allowed⟩, step⟩ silent
  exact Ledger.step_silent step (fun quote => allowed ticker quote rfl) silent

theorem dispatch_silent {ticker : Ticker} (p : Process F X) (event : Event F)
    (dropped : ¬ event.feeds ticker) (passes : PassesOver venue ticker p event) {before : List (Entry F)}
    (silent : p.desk.ledger.SilentOn ticker before) :
    (p.dispatch venue event).desk.ledger.SilentOn ticker before := by
  rcases dispatch_cases venue p event with same | ⟨alive, done⟩ | ⟨alive, _, ended⟩
  · rw [same]
    exact silent
  · rw [done]
    exact handle_silent venue alive dropped passes silent
  · rw [ended]
    refine chain_invariant (Ledger.SilentOn ticker before) ?_ (TradingSession.cancelAllQuotes_leads venue _)
      (handle_silent venue alive dropped passes silent)
    rintro L L' ⟨_, rfl, step⟩ silent
    exact Ledger.step_silent step nofun silent

theorem run_silent {ticker : Ticker} (p : Process F X) {events : List (Event F)}
    (dropped : ∀ event ∈ events, ¬ event.feeds ticker)
    (passes : p.Meets venue (PassesOver venue ticker) events) {before : List (Entry F)}
    (silent : p.desk.ledger.SilentOn ticker before) :
    (p.run venue events).desk.ledger.SilentOn ticker before := by
  induction events generalizing p with
  | nil => exact silent
  | cons event events ih =>
    refine ih _ (fun later member => dropped later (List.mem_cons_of_mem event member)) passes.2 ?_
    exact dispatch_silent venue p event (dropped event List.mem_cons_self) passes.1 silent

end Process

/-- From a disconnect until the feed speaks for a market again, nothing is sent on it while every
requote passes it over. -/
theorem silent_on_dropped_feed (venue : Venue X) (ticker : Ticker) (p : Process F X)
    (events : List (Event F)) (dropped : ∀ event ∈ events, ¬ event.feeds ticker)
    (passes : (p.dispatch venue .disconnect).Meets venue (Process.PassesOver venue ticker) events) :
    ∃ later, (p.run venue (.disconnect :: events)).desk.calls = p.desk.calls ++ later ∧
      ∀ entry ∈ later, entry.call.sentOn ≠ some ticker := by
  have silent : p.desk.ledger.SilentOn ticker p.desk.calls := ⟨[], (List.append_nil _).symm, by simp⟩
  refine Process.run_silent venue _ dropped passes ?_
  exact Process.dispatch_silent venue p .disconnect id trivial silent

/-- While the feed of `M` is down, the safety net and another market's feed work, and the requote loop passes `M`
over: its orders rest, as the exchange has refused to cancel them. -/
theorem silent_on_dropped_feed_safety :
    let venue : Venue Script := ⟨⟨"exchange"⟩, Script.host⟩
    let book : Orderbook := { ticker := "M", yes := [⟨40, ⟨1000⟩⟩], no := [⟨40, ⟨1000⟩⟩] }
    let p : Process ℚ Script :=
      (Process.start { tickers := ["M", "N"] } {} {} { cancels := [500, 500] } none none false false).run venue
        [.seedOrderbook book]
    ∃ later, (p.run venue
        [.disconnect, .enforceQuoteSafety, .delta "N" .yes 40 ⟨500⟩, .requoteIdleMarkets]).desk.calls =
        p.desk.calls ++ later ∧
      ∀ entry ∈ later, entry.call.sentOn ≠ some "M" := by
  intro venue book p
  let q := p.run venue [.disconnect, .enforceQuoteSafety, .delta "N" .yes 40 ⟨500⟩]
  have passed : TradingSession.RequotesOnly venue (· ≠ "M") q.desk := by
    have keys : venue.host.arrange q.desk.outside q.desk.session.obMap.keys = ["N", "M"] := by decide +kernel
    refine .inr ?_
    rw [keys]
    refine ⟨fun _ => by decide, fun desk ran => ⟨fun wanted => ?_, fun _ _ => trivial⟩⟩
    obtain rfl : (TradingSession.requoteMarket venue "N" q.desk).2 = desk := congrArg Prod.snd ran
    exact absurd wanted (by decide +kernel)
  refine silent_on_dropped_feed venue "M" p _ ?_ ⟨trivial, trivial, fun _ => passed, trivial⟩
  intro event member
  simp only [List.mem_cons, List.not_mem_nil, or_false] at member
  rcases member with rfl | rfl | rfl
  · exact id
  · simp [Event.feeds]
  · exact id

/-- The requote loop quotes `M` off the book it had before the disconnect; nothing halted it. -/
theorem requote_on_dropped_feed :
    let venue : Venue Script := ⟨⟨"exchange"⟩, Script.host⟩
    let book : Orderbook := { ticker := "M", yes := [⟨40, ⟨1000⟩⟩], no := [⟨40, ⟨1000⟩⟩] }
    let p : Process ℚ Script :=
      (Process.start { tickers := ["M"] } {} {} {} none none false false).run venue [.snapshot book]
    let desk := (p.run venue [.disconnect, .requoteIdleMarkets]).desk
    desk.riskMgr.isHalted = false ∧ p.desk.calls.length = 0 ∧
      desk.calls.map (fun entry => entry.call.sentOn) = [some "M", some "M"] := by
  decide +kernel

end Kalshi
