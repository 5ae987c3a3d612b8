import KalshiMaker.Strategy.Twins

/-! Two desks that price a market off the same gauges come to the same prices. -/
namespace Kalshi

open Effect Eff Desk

variable {F X : Type} [Floating F]

namespace Quoter

/-- What a pricing of `ticker` reads of a desk, its smoothed price apart. -/
structure SameGauges (ticker : Ticker) (s s' : Desk F X) : Prop where
  config : s.quoter.config = s'.quoter.config
  model : s.quoter.model = s'.quoter.model
  inventoryB : s.quoter.inventoryBContracts = s'.quoter.inventoryBContracts
  tradeTape : s.tradeTape = s'.tradeTape
  flowGuard : s.flowGuard = s'.flowGuard
  analytics : s.analytics = s'.analytics
  position : s.orderMgr.netPosition ticker = s'.orderMgr.netPosition ticker

/-- A relation of desks with the same gauges, kept up by the clock and by what the analytics tap is told. -/
structure PricesAlike (venue : Venue X) (ticker : Ticker) (R : Desk F X → Desk F X → Prop) : Prop where
  gauges : ∀ {s s'}, R s s' → SameGauges ticker s s'
  system : ∀ {s s'}, R s s' → Alike R (systemNow venue) (systemNow venue) s s'
  emit : ∀ {s s'} (emission : Emission F), R s s' → R (Desk.emit emission s).2 (Desk.emit emission s').2

namespace PricesAlike

variable {venue : Venue X} {ticker : Ticker} {R : Desk F X → Desk F X → Prop} (alike : PricesAlike venue ticker R)
  {s s' : Desk F X}

include alike

theorem tapeVwap (related : R s s') : Alike R (tapeVwap venue ticker) (tapeVwap venue ticker) s s' := by
  unfold Quoter.tapeVwap
  refine Alike.get_bind ?_
  rw [← (alike.gauges related).tradeTape, ← (alike.gauges related).config]
  cases s.tradeTape with
  | none => exact Alike.pure none related
  | some tape => exact Alike.bind (alike.system related) fun now _ _ _ _ related => Alike.pure _ related

theorem fairValue {micro : F} (smoothed : Alike R (smoothedMicro ticker micro) (smoothedMicro ticker micro) s s') :
    Alike R (fairValue venue ticker micro) (fairValue venue ticker micro) s s' := by
  unfold Quoter.fairValue
  refine Alike.bind smoothed (fun smoothed t t' _ _ related => ?_)
  refine Alike.bind (alike.tapeVwap related) (fun vwap t t' _ _ related => ?_)
  refine Alike.get_bind ?_
  rw [← (alike.gauges related).model]
  refine Alike.bind (ensure_alike _ _ related) (fun _ t t' _ _ related => ?_)
  exact Alike.pure _ related

theorem imbalanced (related : R s s') : Alike R (imbalanced venue ticker) (imbalanced venue ticker) s s' := by
  unfold Quoter.imbalanced
  refine Alike.get_bind ?_
  rw [← (alike.gauges related).flowGuard]
  cases s.flowGuard with
  | none => exact Alike.pure false related
  | some guard => exact Alike.bind (alike.system related) fun now _ _ _ _ related => Alike.pure _ related

theorem takerSide (related : R s s') (imbalanced : Bool) :
    Alike R (takerSide venue ticker imbalanced) (takerSide venue ticker imbalanced) s s' := by
  unfold Quoter.takerSide
  refine Alike.get_bind ?_
  rw [← (alike.gauges related).flowGuard]
  cases s.flowGuard with
  | none => exact Alike.pure none related
  | some guard =>
    refine Alike.ite Iff.rfl (fun _ => ?_) (fun _ => Alike.pure none related)
    exact Alike.bind (alike.system related) fun now _ _ _ _ related => Alike.pure _ related

/-- Equal gauges and equally smoothed prices make equal prices. -/
theorem desiredQuotes {visible : LocalOrderbook} (marketBid marketAsk : Int)
    (smoothed : Alike R (smoothedMicro ticker visible.microPriceCents) (smoothedMicro ticker visible.microPriceCents)
      s s') :
    Alike R (desiredQuotes venue ticker visible marketBid marketAsk)
      (desiredQuotes venue ticker visible marketBid marketAsk) s s' := by
  unfold Quoter.desiredQuotes
  refine Alike.bind (alike.fairValue smoothed) (fun fairVal t t' _ _ related => ?_)
  refine Alike.bind (alike.imbalanced related) (fun imbalanced t t' _ _ related => ?_)
  refine Alike.get_bind ?_
  obtain ⟨config, _, inventoryB, _, _, analytics, position⟩ := alike.gauges related
  rw [← config, ← inventoryB, ← position, ← analytics]
  refine Alike.bind (alike.takerSide related imbalanced) (fun takerSide u u' _ _ related => ?_)
  refine Alike.ite Iff.rfl (fun _ => ?_) (fun _ => Alike.pure _ related)
  refine Alike.bind ⟨rfl, alike.emit _ related⟩ (fun _ v v' _ _ related => Alike.pure _ related)

end PricesAlike

end Quoter

end Kalshi
