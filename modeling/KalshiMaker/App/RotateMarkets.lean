import KalshiMaker.Engine.Process
import KalshiMaker.Net.WebSocketClient

/-! A whole pass of `rotate_markets`, with the feed's callbacks between its critical sections. -/
namespace Kalshi

open Effect Desk TradingSession

variable {F X : Type} [Floating F]

/-- The two sides of a market's book, as `get_orderbook` answers them; `none` where it throws. -/
abbrev FetchedBook := Option (List Level × List Level)

structure RotationPass (F X : Type) [Floating F] where
  process : Process F X
  client : WebSocketClient

/-- Under one lock: whatever is no pick and is idle is dropped. -/
def dropStale (picks : List Ticker) : Eff (Desk F X) String Unit := do
  let s ← Eff.get
  Eff.forEach s.session.tickers fun ticker =>
    if ticker ∈ picks then pure () else do let _ ← removeMarketIfIdle ticker

def toAdd (picks : List Ticker) (s : Desk F X) : List Ticker :=
  picks.filter fun ticker => !s.session.isTracked ticker

namespace RotationPass

variable (venue : Venue X) (fetch : Ticker → FetchedBook) (meanwhile : Ticker → List (Event F))

/-- A market's book is fetched without the lock, so the feed goes on meanwhile; a failed fetch skips the market. -/
def adopt (pass : RotationPass F X) (ticker : Ticker) : RotationPass F X :=
  let process := pass.process.run venue (meanwhile ticker)
  match fetch ticker with
  | none => { pass with process }
  | some (yes, no) =>
    let added := process.dispatch venue (.addMarket { ticker, yes, no })
    -- `add_market` throws nothing; a failed `ensure` within it ends the process
    { process := added, client := if added.alive then pass.client.subscribe ticker else pass.client }

/-- `picks` are the markets of the scan, and `none` where it failed. -/
def rotateMarkets (picks : Option (List Ticker)) (pass : RotationPass F X) : RotationPass F X :=
  match picks with
  | none => pass
  | some picks =>
    let kept := (dropStale picks pass.process.desk).2
    (toAdd picks kept).foldl (adopt venue fetch meanwhile)
      { pass with process := { pass.process with desk := kept } }

end RotationPass

end Kalshi
