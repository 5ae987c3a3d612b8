import KalshiMaker.Engine.TradingSession
import KalshiMaker.Net.WebSocketClient

/-! The callbacks that the program hangs on the websocket client. The engine lock makes each of them atomic. -/
namespace Kalshi

open Effect

variable {F X : Type} [Floating F]

/-- What the callbacks work on: the desk, and the time of the latest fill of the feed. -/
structure Live (F X : Type) [Floating F] where
  desk : Desk F X
  lastFillTime : TimePoint := 0

namespace Live

def onDesk {α : Type} (m : Eff (Desk F X) String α) : Eff (Live F X) String α :=
  Eff.onPart Live.desk (fun live desk => { live with desk }) m

def onFill (fill : Fill F) : Eff (Live F X) String Unit := do
  Eff.modify fun live => { live with lastFillTime := max live.lastFillTime fill.timestamp }
  let _ ← onDesk (TradingSession.onFill fill)

def callbacks (venue : Venue X) : Callbacks F (Live F X) where
  snapshot snapshot := onDesk (TradingSession.onSnapshot venue snapshot)
  delta delta := onDesk (TradingSession.onDelta venue delta.1 delta.2.1 delta.2.2.1 delta.2.2.2)
  fill := onFill
  trade trade := onDesk (TradingSession.onTrade trade)

theorem onFill_desk (fill : Fill F) (live : Live F X) :
    (onFill fill live).2.desk = (TradingSession.onFill fill live.desk).2 := by
  unfold onFill onDesk
  simp only [Eff.bind_apply, Eff.modify_apply, Eff.andThen_ok, Eff.onPart_apply]
  cases (TradingSession.onFill fill live.desk).1 <;> rfl

end Live

end Kalshi
