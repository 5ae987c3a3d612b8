import KalshiMaker.Engine.Settings
import KalshiMaker.Properties.ClearingLaws
import KalshiMaker.Properties.OwnEcho

/-! The smoothed micro-price stays between the best prices of the books that it was smoothed over. -/
namespace Kalshi

open Effect Eff Desk Relation Quoter

section

variable {F X : Type} [Floating F]

/-- The best bid and ask of a book that has both, apart. -/
def LocalOrderbook.top (book : LocalOrderbook) : Option (Int × Int) :=
  match book.bestBid, book.bestAsk with
  | some bid, some ask => if ask.priceCents ≤ bid.priceCents then none else some (bid.priceCents, ask.priceCents)
  | _, _ => none

theorem LocalOrderbook.top_eq_some {book : LocalOrderbook} {prices : Int × Int} :
    book.top = some prices ↔ ∃ bid ask, book.bestBid = some bid ∧ book.bestAsk = some ask ∧
      bid.priceCents < ask.priceCents ∧ prices = (bid.priceCents, ask.priceCents) := by
  unfold top
  cases book.bestBid with
  | none => simp
  | some bid =>
    cases book.bestAsk with
    | none => simp
    | some ask =>
      dsimp only
      by_cases crossed : ask.priceCents ≤ bid.priceCents
      · simp [crossed]
      · simp [crossed, not_le.mp crossed, eq_comm]

/-- The best prices of the books seen, of those that have two sides apart. -/
def tops (seen : List LocalOrderbook) : List (Int × Int) := seen.filterMap LocalOrderbook.top

variable (venue : Venue X)

/-- The quoter's operations, with the visible books of the updates since the last reset. Of what else happens
it matters only that it leaves the smoothed prices and the configuration alone. -/
inductive Smooths (ticker : Ticker) :
    Desk F X × List LocalOrderbook → Desk F X × List LocalOrderbook → Prop where
  | update {s seen} (book : LocalOrderbook) :
      Smooths ticker (s, seen) ((update venue ticker book s).2, seen ++ [s.bookWithoutOwnQuotes ticker book])
  | updateOther {s seen} (other : Ticker) (apart : other ≠ ticker) (book : LocalOrderbook) :
      Smooths ticker (s, seen) ((Quoter.update venue other book s).2, seen)
  | forgetOrder {s seen} (other : Ticker) (orderId : OrderId) :
      Smooths ticker (s, seen) ({ s with quoter := s.quoter.forgetOrder other orderId }, seen)
  | forgetTicker {s seen} (other : Ticker) :
      Smooths ticker (s, seen) ({ s with quoter := s.quoter.forgetTicker other }, seen)
  | resetQuotes {s seen} : Smooths ticker (s, seen) ({ s with quoter := s.quoter.resetQuotes }, [])
  | elsewhere {s s' : Desk F X} {seen} (smoothing : s'.quoter.fvEma = s.quoter.fvEma)
      (config : s'.quoter.config = s.quoter.config) : Smooths ticker (s, seen) (s', seen)

theorem update_config (ticker : Ticker) (book : LocalOrderbook) (s : Desk F X) :
    (update venue ticker book s).2.quoter.config = s.quoter.config :=
  congrArg Prod.fst (chain_unmoved (update_moves (settings_moves venue ticker) book s))

/-- An update without two sides apart leaves the smoothed prices as they are. -/
theorem update_fvEma_degenerate {ticker : Ticker} {book : LocalOrderbook} {s : Desk F X}
    (absent : (s.bookWithoutOwnQuotes ticker book).top = none) :
    (update venue ticker book s).2.quoter.fvEma = s.quoter.fvEma := by
  have degenerate : (s.bookWithoutOwnQuotes ticker book).Degenerate := by
    intro bid ask bids asks
    by_contra apart
    have priced := LocalOrderbook.top_eq_some.mpr ⟨bid, ask, bids, asks, not_le.mp apart, rfl⟩
    rw [absent] at priced
    cases priced
  rw [update_degenerate venue degenerate]
  rfl

/-- An update that prices keeps the smoothed price it prices off, also where it then aborts. -/
theorem update_fvEma_priced {ticker : Ticker} {book : LocalOrderbook} {s : Desk F X} {bestBid bestAsk : Level}
    (bid : (s.bookWithoutOwnQuotes ticker book).bestBid = some bestBid)
    (ask : (s.bookWithoutOwnQuotes ticker book).bestAsk = some bestAsk)
    (apart : bestBid.priceCents < bestAsk.priceCents) :
    ∃ outlook, PricesOff venue s ticker (s.bookWithoutOwnQuotes ticker book) bestBid bestAsk outlook ∧
      (update venue ticker book s).2.quoter.fvEma =
        Function.update s.quoter.fvEma ticker (some (outlook.smoothedMicro s.quoter.config)) := by
  obtain ⟨outlook, x, y, prices, ran⟩ := update_priced venue bid ask apart
  refine ⟨outlook, prices, ?_⟩
  obtain ⟨_, _, _, _, _, _, _, _, _, rfl⟩ := prices.asked
  split at ran
  next finite =>
    rw [ran]
    exact congrArg Prod.fst (applyQuotes_priceKept ticker _ _ _ _)
  next infinite =>
    rw [ran]
    rfl

end

/-! ### In real arithmetic -/

/-- Where the two sides are apart, no best level of negative size is outweighed by the other. -/
def LocalOrderbook.Weighable (book : LocalOrderbook) : Prop :=
  ∀ bid ask, book.bestBid = some bid → book.bestAsk = some ask → bid.priceCents < ask.priceCents →
    0 < bid.quantity.centi + ask.quantity.centi → 0 ≤ bid.quantity.centi ∧ 0 ≤ ask.quantity.centi

open Set

/-- The micro-price is between the best prices exactly where no negative size is outweighed. -/
theorem microPrice_mem_iff {book : LocalOrderbook} {bid ask : Level} (bids : book.bestBid = some bid)
    (asks : book.bestAsk = some ask) (apart : bid.priceCents < ask.priceCents) :
    (book.microPriceCents : ℝ) ∈ Icc (bid.priceCents : ℝ) ask.priceCents ↔ book.Weighable := by
  have wide : (bid.priceCents : ℝ) < ask.priceCents := by exact_mod_cast apart
  have weighs : book.Weighable ↔ (0 < (bid.quantity.centi : ℝ) + ask.quantity.centi →
      0 ≤ (bid.quantity.centi : ℝ) ∧ 0 ≤ (ask.quantity.centi : ℝ)) := by
    norm_cast
    constructor
    · exact fun weighable => weighable bid ask bids asks apart
    · intro weighable other other' found found' _
      cases bids.symm.trans found
      cases asks.symm.trans found'
      exact weighable
  rw [LocalOrderbook.microPriceCents_real bids asks, weighs, Quantity.contracts_real, Quantity.contracts_real]
  split
  next absent =>
    -- without size the mid is taken, which is always between
    refine iff_of_true ⟨by linarith, by linarith⟩ fun present => ?_
    linarith
  next present =>
    have total : (0 : ℝ) < bid.quantity.centi / 100 + ask.quantity.centi / 100 := not_le.mp present
    have positive : (0 : ℝ) < (bid.quantity.centi : ℝ) + ask.quantity.centi := by linarith
    rw [mem_Icc, le_div_iff₀ total, div_le_iff₀ total]
    constructor
    · rintro ⟨above, below⟩ _
      constructor
      · nlinarith
      · nlinarith
    · intro weighable
      obtain ⟨bidSize, askSize⟩ := weighable positive
      constructor
      · nlinarith
      · nlinarith

/-- What the smoothed price of a ticker is, after the books seen. -/
structure Smoothed {X : Type} (ticker : Ticker) (alpha : ℝ) (s : Desk ℝ X) (seen : List LocalOrderbook) :
    Prop where
  config : s.quoter.config.fvEmaAlpha = alpha
  present : ∀ value, s.quoter.fvEma ticker = some value → tops seen ≠ []
  hulled : (∀ visible ∈ seen, visible.Weighable) → ∀ value, s.quoter.fvEma ticker = some value →
    ∀ low high : ℝ, (∀ prices ∈ tops seen, low ≤ prices.1 ∧ (prices.2 : ℝ) ≤ high) → value ∈ Icc low high

variable {X : Type} {venue : Venue X} {ticker : Ticker} {alpha : ℝ}

theorem Smoothed.kept {s s' : Desk ℝ X} {seen : List LocalOrderbook} (smoothed : Smoothed ticker alpha s seen)
    (config : s'.quoter.config = s.quoter.config) (smoothing : s'.quoter.fvEma ticker = s.quoter.fvEma ticker) :
    Smoothed ticker alpha s' seen where
  config := by rw [config, smoothed.config]
  present := by rw [smoothing]; exact smoothed.present
  hulled := by rw [smoothing]; exact smoothed.hulled

theorem tops_append (seen : List LocalOrderbook) (visible : LocalOrderbook) :
    tops (seen ++ [visible]) = tops seen ++ visible.top.toList := by
  unfold tops
  rw [List.filterMap_append]
  cases top : visible.top <;> simp [top]

/-- What an update prices off is the micro-price of its book, or a blend of it with what was kept. -/
theorem Smoothed.blend {s : Desk ℝ X} {seen : List LocalOrderbook} (smoothed : Smoothed ticker alpha s seen)
    (positive : 0 ≤ alpha) (proper : alpha ≤ 1) {visible : LocalOrderbook} {bid ask : Level} {outlook : Outlook ℝ}
    (prices : PricesOff venue s ticker visible bid ask outlook)
    (weighable : ∀ book ∈ seen ++ [visible], book.Weighable) {low high : ℝ}
    (bounds : ∀ prices ∈ tops (seen ++ [visible]), low ≤ prices.1 ∧ (prices.2 : ℝ) ≤ high) :
    outlook.smoothedMicro s.quoter.config ∈ Icc low high := by
  obtain ⟨_, _, _, _, _, _, _, _, _, rfl⟩ := prices.asked
  have top : visible.top = some (bid.priceCents, ask.priceCents) :=
    LocalOrderbook.top_eq_some.mpr ⟨bid, ask, prices.bid, prices.ask, prices.apart, rfl⟩
  rw [tops_append, top] at bounds
  obtain ⟨above, below⟩ := bounds (bid.priceCents, ask.priceCents) (List.mem_append_right _ (by simp))
  have last := weighable visible (List.mem_append_right _ List.mem_cons_self)
  have micro : (visible.microPriceCents : ℝ) ∈ Icc low high :=
    Icc_subset_Icc above below ((microPrice_mem_iff prices.bid prices.ask prices.apart).mpr last)
  unfold Outlook.smoothedMicro Desk.outlook
  dsimp only
  cases kept : s.quoter.fvEma ticker with
  | none => exact micro
  | some ema =>
    have earlier : ∀ visible ∈ seen, visible.Weighable :=
      fun visible member => weighable visible (List.mem_append_left _ member)
    -- what was kept is in the hull of the earlier books, and so in that of all
    have before := smoothed.hulled earlier ema kept low high
      fun prices member => bounds prices (List.mem_append_left _ member)
    dsimp only
    rw [smoothed.config, Int.cast_one]
    exact Mean.blend_mem_Icc micro before positive proper

theorem Smoothed.update {s : Desk ℝ X} {seen : List LocalOrderbook} (smoothed : Smoothed ticker alpha s seen)
    (positive : 0 ≤ alpha) (proper : alpha ≤ 1) (book : LocalOrderbook) :
    Smoothed ticker alpha (Quoter.update venue ticker book s).2 (seen ++ [s.bookWithoutOwnQuotes ticker book]) := by
  cases top : (s.bookWithoutOwnQuotes ticker book).top with
  | none =>
    have same : tops (seen ++ [s.bookWithoutOwnQuotes ticker book]) = tops seen := by
      rw [tops_append, top, Option.toList_none, List.append_nil]
    constructor
    case config => rw [update_config, smoothed.config]
    -- a book without two sides is not priced, and what was kept stays
    case present =>
      rw [update_fvEma_degenerate venue top, same]
      exact smoothed.present
    case hulled =>
      intro weighable
      rw [update_fvEma_degenerate venue top, same]
      exact smoothed.hulled fun visible member => weighable visible (List.mem_append_left _ member)
  | some prices =>
    obtain ⟨bid, ask, bids, asks, apart, rfl⟩ := LocalOrderbook.top_eq_some.mp top
    obtain ⟨outlook, priced, stored⟩ := update_fvEma_priced venue bids asks apart
    constructor
    case config => rw [update_config, smoothed.config]
    case present =>
      intro _ _
      rw [tops_append, top]
      simp
    case hulled =>
      intro weighable value found low high bounds
      rw [stored, Function.update_self] at found
      cases found
      exact smoothed.blend positive proper priced weighable bounds

theorem Smoothed.step {s s' : Desk ℝ X} {seen seen' : List LocalOrderbook}
    (step : Smooths venue ticker (s, seen) (s', seen')) (smoothed : Smoothed ticker alpha s seen)
    (positive : 0 ≤ alpha) (proper : alpha ≤ 1) : Smoothed ticker alpha s' seen' := by
  cases step with
  | update book => exact smoothed.update positive proper book
  | updateOther other apart book =>
    refine smoothed.kept (update_config venue other book s) ?_
    cases top : (s.bookWithoutOwnQuotes other book).top with
    | none => rw [update_fvEma_degenerate venue top]
    | some prices =>
      obtain ⟨bid, ask, bids, asks, above, _⟩ := LocalOrderbook.top_eq_some.mp top
      obtain ⟨_, _, stored⟩ := update_fvEma_priced venue bids asks above
      rw [stored, Function.update_of_ne (Ne.symm apart)]
  | forgetOrder other orderId => exact smoothed.kept rfl rfl
  | forgetTicker other => exact smoothed.kept rfl rfl
  | resetQuotes =>
    refine ⟨smoothed.config, fun value found => ?_, fun _ value found => ?_⟩
    · cases found
    · cases found
  | elsewhere smoothing config => exact smoothed.kept config (congrFun smoothing ticker)

theorem smoothed_run {start s : Desk ℝ X} {seen : List LocalOrderbook} (fresh : start.quoter.fvEma ticker = none)
    (positive : 0 ≤ start.quoter.config.fvEmaAlpha) (proper : start.quoter.config.fvEmaAlpha ≤ 1)
    (reached : ReflTransGen (Smooths venue ticker) (start, []) (s, seen)) :
    Smoothed ticker start.quoter.config.fvEmaAlpha s seen := by
  have initial : Smoothed ticker start.quoter.config.fvEmaAlpha start [] := by
    refine ⟨rfl, fun value found => ?_, fun _ value found => ?_⟩
    · cases fresh.symm.trans found
    · cases fresh.symm.trans found
  exact chain_invariant
    (fun t : Desk ℝ X × List LocalOrderbook => Smoothed ticker start.quoter.config.fvEmaAlpha t.1 t.2)
    (fun _ _ step smoothed => Smoothed.step step smoothed positive proper) reached initial

/-- Since the last reset, whatever came between: each micro-price seen is between the best prices of its book, and the
smoothed price between the lowest best bid and the highest best ask; and it is what an update prices off. -/
theorem smoothed_in_hull {start s : Desk ℝ X} {seen : List LocalOrderbook} (fresh : start.quoter.fvEma ticker = none)
    (positive : 0 ≤ start.quoter.config.fvEmaAlpha) (proper : start.quoter.config.fvEmaAlpha ≤ 1)
    (reached : ReflTransGen (Smooths venue ticker) (start, []) (s, seen))
    (weighable : ∀ visible ∈ seen, visible.Weighable) :
    (∀ visible ∈ seen, ∀ prices, visible.top = some prices →
        (visible.microPriceCents : ℝ) ∈ Icc (prices.1 : ℝ) prices.2) ∧
      (∀ value, s.quoter.fvEma ticker = some value → ∃ lowest highest,
        ((tops seen).map Prod.fst).min? = some lowest ∧ ((tops seen).map Prod.snd).max? = some highest ∧
          value ∈ Icc (lowest : ℝ) highest) ∧
      ∀ book prices, (s.bookWithoutOwnQuotes ticker book).top = some prices → ∃ bestBid bestAsk outlook,
        PricesOff venue s ticker (s.bookWithoutOwnQuotes ticker book) bestBid bestAsk outlook ∧
          (update venue ticker book s).2.quoter.fvEma ticker = some (outlook.smoothedMicro s.quoter.config) := by
  have smoothed := smoothed_run fresh positive proper reached
  refine ⟨?_, ?_, ?_⟩
  · intro visible member prices top
    obtain ⟨bid, ask, bids, asks, apart, rfl⟩ := LocalOrderbook.top_eq_some.mp top
    exact (microPrice_mem_iff bids asks apart).mpr (weighable visible member)
  · intro value found
    have present := smoothed.present value found
    -- a kept value means that some book was priced, so the extremes exist
    obtain ⟨lowest, least⟩ := Option.ne_none_iff_exists'.mp
      (mt List.min?_eq_none_iff.mp (mt List.map_eq_nil_iff.mp present) : ((tops seen).map Prod.fst).min? ≠ none)
    obtain ⟨highest, greatest⟩ := Option.ne_none_iff_exists'.mp
      (mt List.max?_eq_none_iff.mp (mt List.map_eq_nil_iff.mp present) : ((tops seen).map Prod.snd).max? ≠ none)
    refine ⟨lowest, highest, least, greatest, smoothed.hulled weighable value found _ _ fun prices member => ?_⟩
    have above := (List.min?_eq_some_iff.mp least).2 prices.1 (List.mem_map_of_mem member)
    have below := (List.max?_eq_some_iff.mp greatest).2 prices.2 (List.mem_map_of_mem member)
    exact ⟨by exact_mod_cast above, by exact_mod_cast below⟩
  · intro book prices top
    obtain ⟨bid, ask, bids, asks, apart, _⟩ := LocalOrderbook.top_eq_some.mp top
    obtain ⟨outlook, priced, stored⟩ := update_fvEma_priced venue bids asks apart
    refine ⟨bid, ask, outlook, priced, ?_⟩
    rw [stored, Function.update_self]

/-- Two updates, on a book of 40 and 60 and on one of 50 and 70, with the orders forgotten in between. -/
theorem smoothed_in_hull_first :
    let venue : Venue Script := ⟨⟨"exchange"⟩, Script.host⟩
    let book : LocalOrderbook := ⟨{ ticker := "M", yes := [⟨40, ⟨100⟩⟩], no := [⟨40, ⟨300⟩⟩] }⟩
    let higher : LocalOrderbook := ⟨{ ticker := "M", yes := [⟨50, ⟨200⟩⟩], no := [⟨30, ⟨200⟩⟩] }⟩
    let start : Desk ℝ Script := (Process.start { tickers := ["M"] } {} {} {} none none false false).desk
    let first := (update venue "M" book start).2
    let between : Desk ℝ Script := { first with quoter := first.quoter.forgetTicker "M" }
    ∀ value, (update venue "M" higher between).2.quoter.fvEma "M" = some value → value ∈ Icc (40 : ℝ) 70 := by
  intro venue book higher start first between value found
  -- without orders of our own the second book is seen as it is
  have seen : between.bookWithoutOwnQuotes "M" higher = higher := by
    have vacant : between.quoter.ownQuotes "M" = fun _ => {} := by
      change Function.update first.quoter.ownQuotes "M" (fun _ => {}) "M" = _
      rw [Function.update_self]
    unfold Desk.bookWithoutOwnQuotes Desk.withoutOwn Desk.ownOrder
    simp only [vacant, ↓reduceIte]
  have reached : ReflTransGen (Smooths venue "M") (start, [])
      ((update venue "M" higher between).2, [book, higher]) := by
    have once : Smooths venue "M" (start, []) (first, [book]) := .update book
    have twice : Smooths venue "M" (between, [book])
        ((update venue "M" higher between).2, [book] ++ [between.bookWithoutOwnQuotes "M" higher]) := .update higher
    rw [seen] at twice
    exact ((ReflTransGen.single once).tail (.forgetTicker "M")).tail twice
  have weighable : ∀ visible ∈ [book, higher], visible.Weighable := by
    intro visible member bid ask bids asks _ _
    rcases List.mem_pair.mp member with rfl | rfl
    · cases bids
      cases asks
      decide
    · cases bids
      cases asks
      decide
  have positive : 0 ≤ start.quoter.config.fvEmaAlpha := by
    change (0 : ℝ) ≤ ((2 : Int) : ℝ) / ((10 : Int) : ℝ)
    positivity
  have proper : start.quoter.config.fvEmaAlpha ≤ 1 := by
    change ((2 : Int) : ℝ) / ((10 : Int) : ℝ) ≤ 1
    norm_num
  obtain ⟨lowest, highest, least, greatest, within⟩ :=
    (smoothed_in_hull rfl positive proper reached weighable).2.1 value found
  have low : ((tops [book, higher]).map Prod.fst).min? = some 40 := by decide
  have high : ((tops [book, higher]).map Prod.snd).max? = some 70 := by decide
  cases low.symm.trans least
  cases high.symm.trans greatest
  simpa using within

/-- A bid of negative size that is outweighed pulls the price below it. -/
theorem smoothed_outside_hull :
    let venue : Venue Script := ⟨⟨"exchange"⟩, Script.host⟩
    let book : LocalOrderbook := ⟨{ ticker := "M", yes := [⟨40, ⟨-100⟩⟩], no := [⟨50, ⟨300⟩⟩] }⟩
    let start : Desk ℝ Script := (Process.start { tickers := ["M"] } {} {} {} none none false false).desk
    start.quoter.fvEma "M" = none ∧ 0 ≤ start.quoter.config.fvEmaAlpha ∧ start.quoter.config.fvEmaAlpha ≤ 1 ∧
      (start.bookWithoutOwnQuotes "M" book).top = some (40, 50) ∧ (book.microPriceCents : ℝ) = 35 ∧
      (update venue "M" book start).2.quoter.fvEma "M" = some 35 := by
  intro venue book start
  have bids : book.bestBid = some ⟨40, ⟨-100⟩⟩ := rfl
  have asks : book.bestAsk = some ⟨50, ⟨300⟩⟩ := rfl
  have micro : (book.microPriceCents : ℝ) = 35 := by
    rw [LocalOrderbook.microPriceCents_real bids asks, Quantity.contracts_real, Quantity.contracts_real]
    norm_num
  refine ⟨rfl, ?_, ?_, rfl, micro, ?_⟩
  · change (0 : ℝ) ≤ ((2 : Int) : ℝ) / ((10 : Int) : ℝ)
    positivity
  · change ((2 : Int) : ℝ) / ((10 : Int) : ℝ) ≤ 1
    norm_num
  · have seenBid : (start.bookWithoutOwnQuotes "M" book).bestBid = some ⟨40, ⟨-100⟩⟩ := rfl
    have seenAsk : (start.bookWithoutOwnQuotes "M" book).bestAsk = some ⟨50, ⟨300⟩⟩ := rfl
    obtain ⟨outlook, priced, stored⟩ := update_fvEma_priced venue seenBid seenAsk (by decide)
    obtain ⟨_, _, _, _, _, _, _, _, _, rfl⟩ := priced.asked
    rw [stored, Function.update_self, ← micro]
    rfl

end Kalshi
