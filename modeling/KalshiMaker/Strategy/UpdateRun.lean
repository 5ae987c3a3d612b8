import KalshiMaker.Strategy.DesiredQuotes

/-! How an update goes: it leaves the quotes alone, ends the process, or brings them to the prices of its outlook. -/
namespace Kalshi

open Effect Eff Desk

variable {F X : Type} [Floating F]

/-- The desk once an update has its prices, and has reported them. -/
def Desk.decided (s : Desk F X) (outlook : Outlook F) (bestBid bestAsk : Level) (outside : X) : Desk F X :=
  { s.smoothed outlook.ticker outlook.visible outside with
    emitted :=
      if s.analytics then s.emitted ++ [outlook.decision s.quoter bestBid.priceCents bestAsk.priceCents]
        else s.emitted }

/-- A book without two sides apart. -/
def LocalOrderbook.Degenerate (visible : LocalOrderbook) : Prop :=
  ∀ bestBid bestAsk, visible.bestBid = some bestBid → visible.bestAsk = some bestAsk →
    bestAsk.priceCents ≤ bestBid.priceCents

namespace Quoter

variable (venue : Venue X)

/-- What an update of `ticker` prices off: a visible book with two sides apart, and the clock readings it takes. -/
structure PricesOff (s : Desk F X) (ticker : Ticker) (visible : LocalOrderbook) (bestBid bestAsk : Level)
    (outlook : Outlook F) : Prop where
  bid : visible.bestBid = some bestBid
  ask : visible.bestAsk = some bestAsk
  apart : bestBid.priceCents < bestAsk.priceCents
  asked : ∃ tapeAskedAt x imbalanceAskedAt y takersAskedAt z, Asked venue s.outside tapeAskedAt x ∧
    Asked venue x imbalanceAskedAt y ∧ Asked venue y takersAskedAt z ∧
    outlook = s.outlook ticker visible tapeAskedAt imbalanceAskedAt takersAskedAt

/-- An update on a degenerate visible book only takes note of it. -/
theorem update_degenerate {ticker : Ticker} {book : LocalOrderbook} {s : Desk F X}
    (degenerate : (s.bookWithoutOwnQuotes ticker book).Degenerate) :
    update venue ticker book s = (.ok (), (notePriced ticker book s).2) := by
  unfold update
  rw [bind_apply, get_apply, andThen_ok, bind_apply]
  cases bid : (s.bookWithoutOwnQuotes ticker book).bestBid with
  | none => rfl
  | some bestBid =>
    cases ask : (s.bookWithoutOwnQuotes ticker book).bestAsk with
    | none => rfl
    | some bestAsk =>
      dsimp only
      rw [if_pos (degenerate bestBid bestAsk bid ask)]
      rfl

/-- An update on a visible book with two sides apart works out the prices it wants, and applies them. -/
theorem update_desired {ticker : Ticker} {book : LocalOrderbook} {s : Desk F X} {bestBid bestAsk : Level}
    (bid : (s.bookWithoutOwnQuotes ticker book).bestBid = some bestBid)
    (ask : (s.bookWithoutOwnQuotes ticker book).bestAsk = some bestAsk)
    (apart : bestBid.priceCents < bestAsk.priceCents) :
    update venue ticker book s =
      (do
        let desired ← desiredQuotes venue ticker (s.bookWithoutOwnQuotes ticker book) bestBid.priceCents
          bestAsk.priceCents
        applyQuotes venue ticker desired.1 desired.2.1 desired.2.2) (notePriced ticker book s).2 := by
  unfold update
  rw [bind_apply, get_apply, andThen_ok, bind_apply, bid, ask]
  dsimp only
  rw [if_neg (not_le.mpr apart)]
  rfl

/-- What an update wants on a visible book with two sides apart: the prices of its outlook, if that has a
fair value. -/
theorem desiredQuotes_outlook {ticker : Ticker} {book : LocalOrderbook} {s : Desk F X} {bestBid bestAsk : Level}
    (bid : (s.bookWithoutOwnQuotes ticker book).bestBid = some bestBid)
    (ask : (s.bookWithoutOwnQuotes ticker book).bestAsk = some bestAsk)
    (apart : bestBid.priceCents < bestAsk.priceCents) :
    ∃ outlook x y, PricesOff venue s ticker (s.bookWithoutOwnQuotes ticker book) bestBid bestAsk outlook ∧
      desiredQuotes venue ticker (s.bookWithoutOwnQuotes ticker book) bestBid.priceCents bestAsk.priceCents
          (notePriced ticker book s).2 =
        if Floating.isFinite (outlook.fairVal s.quoter) then
          (.ok (outlook.inventory, outlook.desired s.quoter bestBid.priceCents bestAsk.priceCents .yes,
            outlook.desired s.quoter bestBid.priceCents bestAsk.priceCents .no),
            (notePriced ticker book s).2.decided outlook bestBid bestAsk y)
        else (.error (.abort "fair value is not finite"),
          (notePriced ticker book s).2.smoothed ticker (s.bookWithoutOwnQuotes ticker book) x) := by
  obtain ⟨tapeAskedAt, x, imbalanceAskedAt, y, takersAskedAt, z, outlook, read, first, second, third, priced⟩ :=
    desiredQuotes_run venue ticker (s.bookWithoutOwnQuotes ticker book) bestBid.priceCents bestAsk.priceCents
      (notePriced ticker book s).2
  refine ⟨outlook, x, z, ⟨bid, ask, apart, _, _, _, _, _, _, first, second, third, read⟩, ?_⟩
  change if Floating.isFinite (outlook.fairVal s.quoter) = true then _ else _ at priced
  split at priced
  next finite =>
    rw [if_pos finite, priced]
    subst read
    rfl
  next infinite => rw [if_neg infinite, priced]

/-- An update on a visible book with two sides apart prices off it. -/
theorem update_priced {ticker : Ticker} {book : LocalOrderbook} {s : Desk F X} {bestBid bestAsk : Level}
    (bid : (s.bookWithoutOwnQuotes ticker book).bestBid = some bestBid)
    (ask : (s.bookWithoutOwnQuotes ticker book).bestAsk = some bestAsk)
    (apart : bestBid.priceCents < bestAsk.priceCents) :
    ∃ outlook x y, PricesOff venue s ticker (s.bookWithoutOwnQuotes ticker book) bestBid bestAsk outlook ∧
      if Floating.isFinite (outlook.fairVal s.quoter) then
        update venue ticker book s =
          applyQuotes venue ticker outlook.inventory
            (outlook.desired s.quoter bestBid.priceCents bestAsk.priceCents .yes)
            (outlook.desired s.quoter bestBid.priceCents bestAsk.priceCents .no)
            ((notePriced ticker book s).2.decided outlook bestBid bestAsk y)
      else
        update venue ticker book s = (.error (.abort "fair value is not finite"),
          (notePriced ticker book s).2.smoothed ticker (s.bookWithoutOwnQuotes ticker book) x) := by
  obtain ⟨outlook, x, y, pricesOff, priced⟩ := desiredQuotes_outlook venue bid ask apart
  refine ⟨outlook, x, y, pricesOff, ?_⟩
  rw [update_desired venue bid ask apart, bind_apply, priced]
  -- a fair value that is not finite aborts before anything is sent
  split
  · rw [andThen_ok]
  · rw [andThen_error]

end Quoter

end Kalshi
