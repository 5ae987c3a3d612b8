import KalshiMaker.Strategy.QuoterWalk

/-! The pair of prices an update works towards, as a function of what it looks at. -/
namespace Kalshi

open Effect Eff Desk

variable {F X : Type} [Floating F]

namespace QuoterConfig

variable (config : QuoterConfig F)

/-- The bid or ask that is a longshot is moved further out. -/
def shadeBid (bid : Int) : Int :=
  if bid < config.longshotPriceThresholdCents then max kBidMinCents (bid - config.longshotEdgeCents) else bid

def shadeAsk (ask : Int) : Int :=
  if complementPrice ask < config.longshotPriceThresholdCents then min kAskMaxCents (ask + config.longshotEdgeCents)
  else ask

theorem rawQuotes_shaded (value : F) (halfSpread : Int) (inventory : F) :
    config.rawQuotes value halfSpread inventory =
      if 0 < inventory then
        (config.shadeBid (computeQuotes value halfSpread).1,
          max (config.shadeBid (computeQuotes value halfSpread).1 + 1)
            (Floating.ceil (value + config.unwindEdgeCents)))
      else if inventory < 0 then
        (min (config.shadeAsk (computeQuotes value halfSpread).2 - 1)
          (Floating.floor (value - config.unwindEdgeCents)),
          config.shadeAsk (computeQuotes value halfSpread).2)
      else (config.shadeBid (computeQuotes value halfSpread).1,
        config.shadeAsk (computeQuotes value halfSpread).2) := rfl

end QuoterConfig

/-- The desired bid and ask at a fair value, that value leaned with the flow, and an inventory. -/
def Quoter.desiredAt (quoter : Quoter F) (fairVal leanedVal : F) (imbalanced : Bool) (inventory : F)
    (marketBid marketAsk : Int) : Quoter.Aim :=
  let reservationVal := lmsrSkewedFairValue leanedVal inventory quoter.inventoryBContracts
  let raw := quoter.config.rawQuotes reservationVal (quoter.config.halfSpread imbalanced fairVal) inventory
  fun
    | .yes => passiveBid raw.1 marketAsk
    | .no => passiveAsk raw.2 marketBid

/-- What an update prices off. The flow guard is asked twice, each time with the clock's next reading. -/
structure Outlook (F : Type) [Floating F] where
  ticker : Ticker
  visible : LocalOrderbook
  ema : Option F
  vwap : Option F
  flowGuard : Option (FlowImbalanceGuard F)
  inventory : F
  imbalanceAskedAt : TimePoint := 0
  takersAskedAt : TimePoint := 0

namespace Outlook

def smoothedMicro (outlook : Outlook F) (config : QuoterConfig F) : F :=
  match outlook.ema with
  | none => outlook.visible.microPriceCents
  | some ema =>
    config.fvEmaAlpha * outlook.visible.microPriceCents + (((1 : Int) : F) - config.fvEmaAlpha) * ema

def fairVal (outlook : Outlook F) (quoter : Quoter F) : F :=
  quoter.model.estimate
    { midCents := outlook.smoothedMicro quoter.config
      timeToCloseHours := (kDefaultTimeToCloseHours : F)
      netPosition := 0
      externalProb := none
      tapeVwapCents := outlook.vwap }

def imbalanced (outlook : Outlook F) : Bool :=
  outlook.flowGuard.any fun guard => guard.isImbalanced outlook.ticker outlook.imbalanceAskedAt

def takerSide (outlook : Outlook F) : Option Side :=
  if outlook.imbalanced then
    outlook.flowGuard.bind fun guard => guard.dominantTakerSide outlook.ticker outlook.takersAskedAt
  else none

def leanedVal (outlook : Outlook F) (quoter : Quoter F) : F :=
  quoter.config.leanedVal (outlook.fairVal quoter) outlook.takerSide

def desired (outlook : Outlook F) (quoter : Quoter F) (marketBid marketAsk : Int) : Quoter.Aim :=
  quoter.desiredAt (outlook.fairVal quoter) (outlook.leanedVal quoter) outlook.imbalanced outlook.inventory
    marketBid marketAsk

/-- What the analytics tap is told of it. -/
def decision (outlook : Outlook F) (quoter : Quoter F) (marketBid marketAsk : Int) : Emission F :=
  .quoteDecision outlook.ticker outlook.visible.midPriceCents outlook.visible.microPriceCents (outlook.fairVal quoter)
    ((outlook.desired quoter marketBid marketAsk .yes).getD (-1))
    ((outlook.desired quoter marketBid marketAsk .no).getD (-1)) outlook.inventory outlook.imbalanced

end Outlook

/-- What an update of `ticker` looks at, where its clock readings are these. -/
def Desk.outlook (s : Desk F X) (ticker : Ticker) (visible : LocalOrderbook)
    (tapeAskedAt imbalanceAskedAt takersAskedAt : TimePoint) : Outlook F where
  ticker
  visible
  ema := s.quoter.fvEma ticker
  vwap := s.tradeTape.bind fun tape =>
    tape.vwapCents ticker s.quoter.config.tapeHalfLifeSeconds tapeAskedAt
  flowGuard := s.flowGuard
  inventory := (s.orderMgr.netPosition ticker).contracts
  imbalanceAskedAt
  takersAskedAt

/-- The desk once `ticker`'s price is smoothed. -/
def Desk.smoothed (s : Desk F X) (ticker : Ticker) (visible : LocalOrderbook) (outside : X) : Desk F X :=
  { s with
    quoter := { s.quoter with
      fvEma := Function.update s.quoter.fvEma ticker
        (some ((s.outlook ticker visible 0 0 0).smoothedMicro s.quoter.config)) }
    outside }

namespace Quoter

variable (venue : Venue X)

/-- Where a question needs the time, it takes the clock's next reading. -/
def Asked (x : X) (now : TimePoint) (y : X) : Prop :=
  now = (venue.host.systemNow x).1 ∧ (y = x ∨ y = (venue.host.systemNow x).2)

theorem tapeVwap_run (ticker : Ticker) (s : Desk F X) :
    ∃ now x, Asked venue s.outside now x ∧ tapeVwap venue ticker s =
      (.ok (s.tradeTape.bind fun tape => tape.vwapCents ticker s.quoter.config.tapeHalfLifeSeconds now),
        { s with outside := x }) := by
  obtain ⟨_, _, _, _, tradeTape, _, _, _, outside, _, _, _⟩ := s
  cases tradeTape with
  | none => exact ⟨_, outside, ⟨rfl, .inl rfl⟩, rfl⟩
  | some tape => exact ⟨_, _, ⟨rfl, .inr rfl⟩, rfl⟩

theorem imbalanced_run (ticker : Ticker) (s : Desk F X) :
    ∃ now x, Asked venue s.outside now x ∧ imbalanced venue ticker s =
      (.ok (s.flowGuard.any fun guard => guard.isImbalanced ticker now), { s with outside := x }) := by
  obtain ⟨_, _, _, flowGuard, _, _, _, _, outside, _, _, _⟩ := s
  cases flowGuard with
  | none => exact ⟨_, outside, ⟨rfl, .inl rfl⟩, rfl⟩
  | some guard => exact ⟨_, _, ⟨rfl, .inr rfl⟩, rfl⟩

theorem takerSide_run (ticker : Ticker) (imbalanced : Bool) (s : Desk F X) :
    ∃ now x, Asked venue s.outside now x ∧ takerSide venue ticker imbalanced s =
      (.ok (if imbalanced then s.flowGuard.bind fun guard => guard.dominantTakerSide ticker now else none),
        { s with outside := x }) := by
  obtain ⟨_, _, _, flowGuard, _, _, _, _, outside, _, _, _⟩ := s
  cases flowGuard with
  | none => exact ⟨_, outside, ⟨rfl, .inl rfl⟩, by cases imbalanced <;> rfl⟩
  | some guard =>
    cases imbalanced with
    | false => exact ⟨_, outside, ⟨rfl, .inl rfl⟩, rfl⟩
    | true => exact ⟨_, _, ⟨rfl, .inr rfl⟩, rfl⟩

theorem fairValue_run (ticker : Ticker) (visible : LocalOrderbook) (s : Desk F X) :
    ∃ now x, Asked venue s.outside now x ∧ fairValue venue ticker visible.microPriceCents s =
      (if Floating.isFinite ((s.outlook ticker visible now 0 0).fairVal s.quoter) then
        .ok ((s.outlook ticker visible now 0 0).fairVal s.quoter)
      else .error (.abort "fair value is not finite"), s.smoothed ticker visible x) := by
  have smoothed : smoothedMicro ticker visible.microPriceCents s =
      (.ok ((s.outlook ticker visible 0 0 0).smoothedMicro s.quoter.config), s.smoothed ticker visible s.outside) :=
        rfl
  obtain ⟨now, x, asked, vwap⟩ := tapeVwap_run venue ticker (s.smoothed ticker visible s.outside)
  refine ⟨now, x, asked, ?_⟩
  unfold fairValue
  rw [bind_apply, smoothed, andThen_ok, bind_apply, vwap, andThen_ok, bind_apply, get_apply, andThen_ok]
  have ensured : ∀ (fairVal : F) (t : Desk F X),
      (do ensure (Floating.isFinite fairVal) "fair value is not finite"
          pure fairVal : Eff (Desk F X) String F) t =
        (if Floating.isFinite fairVal then .ok fairVal else .error (.abort "fair value is not finite"), t) := by
    intro fairVal t
    cases Floating.isFinite fairVal <;> rfl
  exact ensured _ _

/-- A pricing asks for the desired pair of its outlook, or aborts where the fair value is not finite. -/
theorem desiredQuotes_run (ticker : Ticker) (visible : LocalOrderbook) (marketBid marketAsk : Int) (s : Desk F X) :
    ∃ tapeAskedAt x imbalanceAskedAt y takersAskedAt z outlook,
      outlook = s.outlook ticker visible tapeAskedAt imbalanceAskedAt takersAskedAt ∧
      Asked venue s.outside tapeAskedAt x ∧ Asked venue x imbalanceAskedAt y ∧ Asked venue y takersAskedAt z ∧
      if Floating.isFinite (outlook.fairVal s.quoter) then
        desiredQuotes venue ticker visible marketBid marketAsk s =
          (.ok (outlook.inventory, outlook.desired s.quoter marketBid marketAsk .yes,
              outlook.desired s.quoter marketBid marketAsk .no),
            { s.smoothed ticker visible z with
              emitted := if s.analytics then s.emitted ++ [outlook.decision s.quoter marketBid marketAsk]
                else s.emitted })
      else
        desiredQuotes venue ticker visible marketBid marketAsk s =
          (.error (.abort "fair value is not finite"), s.smoothed ticker visible x) := by
  obtain ⟨tapeAskedAt, x, asked₁, fair⟩ := fairValue_run venue ticker visible s
  obtain ⟨imbalanceAskedAt, y, asked₂, imbalance⟩ := imbalanced_run venue ticker (s.smoothed ticker visible x)
  obtain ⟨takersAskedAt, z, asked₃, takers⟩ := takerSide_run venue ticker
    (s.flowGuard.any fun guard => guard.isImbalanced ticker imbalanceAskedAt) (s.smoothed ticker visible y)
  refine ⟨tapeAskedAt, x, imbalanceAskedAt, y, takersAskedAt, z, _, rfl, asked₁, asked₂, asked₃, ?_⟩
  -- neither the fair value nor its being finite depends on the flow guard's two readings
  change if Floating.isFinite ((s.outlook ticker visible tapeAskedAt 0 0).fairVal s.quoter) = true then _ else _
  split
  next finite =>
    rw [if_pos finite] at fair
    have reported : ∀ (report : Bool) (emission : Emission F) (value : F × Option Int × Option Int) (t : Desk F X),
        (do if report then Desk.emit emission
            pure value : Eff (Desk F X) String _) t =
          (.ok value, { t with emitted := if report then t.emitted ++ [emission] else t.emitted }) := by
      intro report emission value t
      cases report <;> rfl
    unfold desiredQuotes
    rw [bind_apply, fair, andThen_ok, bind_apply, imbalance, andThen_ok, bind_apply, get_apply, andThen_ok]
    exact (congrArg (andThen _) takers).trans (reported s.analytics _ _ (s.smoothed ticker visible z))
  next infinite =>
    rw [if_neg infinite] at fair
    unfold desiredQuotes
    rw [bind_apply, fair, andThen_error]

end Quoter

end Kalshi
