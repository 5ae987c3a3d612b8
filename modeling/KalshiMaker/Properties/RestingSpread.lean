import KalshiMaker.Properties.GrantedQuotes
import KalshiMaker.Properties.MirrorSymmetry

/-! How far apart the two resting orders of a market are. -/
namespace Kalshi

open Effect Eff Desk Quoter Relation

variable {F X : Type} [Floating F]

/-! ### The floor under the spread -/

/-- How far the ask is above the bid, where this side is at the first price and the other one at the second. -/
def Side.spreadTo : Side → Int → Int → Int
  | .yes, bid, ask => ask - bid
  | .no, ask, bid => ask - bid

namespace Desk

variable (venue : Venue X) (ticker : Ticker)

def BothLive (s : Desk F X) : Prop := ∀ side, (s.quoter.ownQuotes ticker side).orderId ≠ ""

/-- How far apart the two quotes are. -/
def restingSpread (s : Desk F X) : Int :=
  (s.quoter.ownQuotes ticker .no).quotedCents - (s.quoter.ownQuotes ticker .yes).quotedCents

/-- Two live quotes are no closer than the configuration allows. -/
def Floored (s : Desk F X) : Prop := s.BothLive ticker → s.quoter.config.minSpreadCents ≤ s.restingSpread ticker

/-- The exchange lets an order rest on a side: an update placed it there or amended the one there was. -/
def GrantsQuote (book : LocalOrderbook) (s : Desk F X) (side : Side) : Prop :=
  Granted ticker side (s.callsSince (update venue ticker book s).2)

instance (book : LocalOrderbook) (s : Desk F X) (side : Side) : Decidable (s.GrantsQuote venue ticker book side) :=
  inferInstanceAs (Decidable (Granted _ _ _))

/-- The price an update moves a side to: it is to enter the slot or to reprice its order, and the exchange does not
refuse to have the order moved. -/
def movesTo (book : LocalOrderbook) (s : Desk F X) (side : Side) : Option Int :=
  let slot := s.quoter.ownQuotes ticker side
  (look venue ticker book s side).bind fun seen =>
    -- what the exchange answers matters for an order that is there
    if slot.orderId ≠ "" ∧ ¬ s.GrantsQuote venue ticker book side then none
    else dueAt s.quoter.config (legOf side) slot seen

/-- A side that moves while the other one stays is no closer than the floor to the order that stays. -/
def AloneApart (book : LocalOrderbook) (s : Desk F X) : Prop :=
  ∀ side desired, s.movesTo venue ticker book side = some desired →
    s.movesTo venue ticker book side.opposite = none →
    s.quoter.config.minSpreadCents ≤ side.spreadTo desired (s.quoter.ownQuotes ticker side.opposite).quotedCents

/-- Two sides that move together are no closer than the floor. -/
def TogetherApart (book : LocalOrderbook) (s : Desk F X) : Prop :=
  ∀ bid ask, s.movesTo venue ticker book .yes = some bid → s.movesTo venue ticker book .no = some ask →
    s.quoter.config.minSpreadCents ≤ ask - bid

/-- What the floor under the desired pair leaves open: a side that moves alone, and a price gate or a longshot edge
that lets the pair itself come closer. -/
structure KeepsFloor (book : LocalOrderbook) (s : Desk F X) : Prop where
  alone : s.AloneApart venue ticker book
  together : s.riskMgr.limits.minQuotePriceCents < 2 ∨ s.quoter.config.longshotEdgeCents < 0 →
    s.TogetherApart venue ticker book

variable {venue ticker}

theorem Floored.aside {s s' : Desk F X} (floored : s.Floored ticker) (between : s.Aside venue ticker s') :
    s'.Floored ticker := by
  intro live
  have bid := between.live (live .yes)
  have ask := between.live (live .no)
  have before : s.BothLive ticker := by
    intro side
    rw [← between.live (live side)]
    exact live side
  unfold restingSpread
  rw [between.config, bid, ask]
  exact floored before

/-! ### Where a live side is after an update -/

/-- A side that is live after an update that had an order granted on it is at the price wanted. -/
theorem quoted_price {s : Desk F X} {book : LocalOrderbook} {bestBid bestAsk : Level} {outlook : Outlook F}
    (goesBy : GoesBy venue s ticker book bestBid bestAsk outlook) {side : Side}
    (live : ((update venue ticker book s).2.quoter.ownQuotes ticker side).orderId ≠ "")
    (quotes : s.GrantsQuote venue ticker book side) :
    outlook.desired s.quoter bestBid.priceCents bestAsk.priceCents side =
      some ((update venue ticker book s).2.quoter.ownQuotes ticker side).quotedCents := by
  obtain ⟨aim, aimed, chain⟩ := goesBy.requests
  obtain ⟨later, calls, settled⟩ := requests_outcome chain side
  unfold GrantsQuote at quotes
  rw [s.callsSince_of_append calls] at quotes
  exact aimed side _ ((settled.moved quotes).resolve_left live)

/-- A side that is live after an update without an order granted on it is as it was. -/
theorem unquoted_price {s : Desk F X} {book : LocalOrderbook} {side : Side}
    (live : ((update venue ticker book s).2.quoter.ownQuotes ticker side).orderId ≠ "")
    (unquoted : ¬ s.GrantsQuote venue ticker book side) :
    ((update venue ticker book s).2.quoter.ownQuotes ticker side).orderId = (s.quoter.ownQuotes ticker side).orderId ∧
      ((update venue ticker book s).2.quoter.ownQuotes ticker side).quotedCents =
        (s.quoter.ownQuotes ticker side).quotedCents := by
  obtain ⟨aim, _, chain⟩ := update_requests venue ticker book s
  obtain ⟨later, calls, settled⟩ := requests_outcome chain side
  unfold GrantsQuote at unquoted
  rw [s.callsSince_of_append calls] at unquoted
  have same := (settled.stayed unquoted).resolve_left live
  exact ⟨congrArg Prod.fst same, congrArg Prod.snd same⟩

/-- An update that refreshes a side goes by an outlook, and refreshes towards the prices desired there. -/
theorem look_goesBy {s : Desk F X} {book : LocalOrderbook} {aside : Side} {first : Look}
    (looked : look venue ticker book s aside = some first) :
    ∃ bestBid bestAsk outlook, GoesBy venue s ticker book bestBid bestAsk outlook ∧
      ∀ side seen, look venue ticker book s side = some seen →
        outlook.desired s.quoter bestBid.priceCents bestAsk.priceCents side = some seen.desired := by
  cases headed : head venue ticker book s with
  | mk r t =>
    rcases r with stop | (_ | heading)
    · unfold look at looked
      rw [headed] at looked
      cases looked
    · unfold look at looked
      rw [headed] at looked
      cases looked
    · obtain ⟨bestBid, bestAsk, desired, u, bid, ask, apart, wanted, aims⟩ := head_aim headed
      obtain ⟨outlook, x, y, pricesOff, priced⟩ := desiredQuotes_outlook venue bid ask apart
      rw [wanted] at priced
      split at priced
      · cases priced
        refine ⟨bestBid, bestAsk, outlook, ⟨pricesOff, y, ?_⟩, fun side seen looked => ?_⟩
        · rw [update_desired venue bid ask apart, bind_apply, wanted, andThen_ok]
        · -- the refresh of either side is towards the heading's price of it
          have heads : heading.look side = some seen := by
            unfold look at looked
            rw [headed] at looked
            cases side with
            | yes => exact looked
            | no =>
              dsimp only at looked
              split at looked
              · exact looked
              · cases looked
          obtain ⟨price, aimed, rfl⟩ := Option.map_eq_some_iff.mp heads
          rw [aims] at aimed
          exact desired_of_aimOf aimed
      · cases priced

/-- A side that is live after an update is at the price it moved to, or as it was. -/
theorem movesTo_spec {s : Desk F X} {book : LocalOrderbook} {side : Side}
    (live : ((update venue ticker book s).2.quoter.ownQuotes ticker side).orderId ≠ "") :
    (s.movesTo venue ticker book side =
      some ((update venue ticker book s).2.quoter.ownQuotes ticker side).quotedCents ∧
        s.GrantsQuote venue ticker book side) ∨
      s.movesTo venue ticker book side = none ∧
        ((update venue ticker book s).2.quoter.ownQuotes ticker side).orderId =
          (s.quoter.ownQuotes ticker side).orderId ∧
        ((update venue ticker book s).2.quoter.ownQuotes ticker side).quotedCents =
          (s.quoter.ownQuotes ticker side).quotedCents := by
  unfold movesTo
  cases looked : look venue ticker book s side with
  | none =>
    rcases update_unrefreshed venue ticker looked with same | emptied
    · rw [same]
      exact .inr ⟨rfl, rfl, rfl⟩
    · exact absurd (congrArg QuoteSlot.orderId emptied) live
  | some seen =>
    have unquoted : ¬ s.GrantsQuote venue ticker book side → _ := unquoted_price live
    dsimp only [Option.bind_some]
    rcases (update_refreshed venue ticker looked).moved live with ⟨due, arrived⟩ | ⟨held, stands⟩
    · by_cases granted : s.GrantsQuote venue ticker book side
      · rw [if_neg fun refused => refused.2 granted, due, arrived]
        exact .inl ⟨rfl, granted⟩
      · -- an order that was not there before has been granted
        have held : (s.quoter.ownQuotes ticker side).orderId ≠ "" := (unquoted granted).1 ▸ live
        rw [if_pos ⟨held, granted⟩]
        exact .inr ⟨rfl, unquoted granted⟩
    · by_cases granted : s.GrantsQuote venue ticker book side
      · rw [if_neg fun refused => refused.2 granted]
        cases due : dueAt s.quoter.config (legOf side) (s.quoter.ownQuotes ticker side) seen with
        | none => exact .inr ⟨rfl, stands⟩
        | some price =>
          -- an order that stands although one was granted stands at the price wanted
          obtain ⟨bestBid, bestAsk, outlook, goesBy, wants⟩ := look_goesBy looked
          have wanted := (wants side seen looked).symm.trans (quoted_price goesBy live granted)
          rw [dueAt_desired due, wanted]
          exact .inl ⟨rfl, granted⟩
      · rw [if_pos ⟨held, granted⟩]
        exact .inr ⟨rfl, stands⟩

/-- Where an update returns and no cancel in it is refused, what it moves is a matter of the slots, the desired prices
and the clock alone. -/
theorem movesTo_of_accepted {s : Desk F X} {book : LocalOrderbook} {side : Side}
    (live : ((update venue ticker book s).2.quoter.ownQuotes ticker side).orderId ≠ "")
    (returned : (update venue ticker book s).1 = .ok ())
    (accepted : s.CancelsAccepted (update venue ticker book s).2) :
    s.movesTo venue ticker book side = (look venue ticker book s side).bind fun seen =>
      dueAt s.quoter.config (legOf side) (s.quoter.ownQuotes ticker side) seen := by
  unfold movesTo
  cases looked : look venue ticker book s side with
  | none => rfl
  | some seen =>
    dsimp only [Option.bind_some]
    split
    next refused =>
      cases due : dueAt s.quoter.config (legOf side) (s.quoter.ownQuotes ticker side) seen with
      | none => rfl
      | some price =>
        obtain ⟨later, calls, entry, member, granted | unheeded⟩ := update_answered looked due returned live
        · refine absurd ⟨entry, ?_, granted⟩ refused.2
          rw [s.callsSince_of_append calls]
          exact member
        · have heeded := accepted entry (by rw [s.callsSince_of_append calls]; exact member)
          rw [unheeded] at heeded
          cases heeded
    next => rfl

theorem update_config (venue : Venue X) (ticker : Ticker) (book : LocalOrderbook) (s : Desk F X) :
    (update venue ticker book s).2.quoter.config = s.quoter.config := by
  obtain ⟨aim, _, chain⟩ := update_requests venue ticker book s
  exact chain_invariant (fun u : Posture F => u.config = s.quoter.config)
    (fun _ _ ⟨_, request⟩ same => request.config.trans same) chain rfl

theorem restingSpread_from (s : Desk F X) (side : Side) : s.restingSpread ticker =
    side.spreadTo (s.quoter.ownQuotes ticker side).quotedCents
      (s.quoter.ownQuotes ticker side.opposite).quotedCents := by
  cases side <;> rfl

/-- Where one side moves alone, the order on the other side is the one there was. -/
theorem alone_iff {s : Desk F X} {book : LocalOrderbook} {side : Side}
    (live : (update venue ticker book s).2.BothLive ticker)
    (moves : s.movesTo venue ticker book side =
      some ((update venue ticker book s).2.quoter.ownQuotes ticker side).quotedCents)
    (stays : s.movesTo venue ticker book side.opposite = none) :
    s.quoter.config.minSpreadCents ≤ (update venue ticker book s).2.restingSpread ticker ↔
      s.AloneApart venue ticker book ∧ s.TogetherApart venue ticker book := by
  have stood : ((update venue ticker book s).2.quoter.ownQuotes ticker side.opposite).quotedCents =
      (s.quoter.ownQuotes ticker side.opposite).quotedCents := by
    rcases movesTo_spec (live side.opposite) with ⟨across, _⟩ | ⟨_, _, same⟩
    · exact absurd (stays.symm.trans across) nofun
    · exact same
  rw [restingSpread_from _ side, stood]
  constructor
  · intro wide
    constructor
    · intro other desired wanted across
      cases other <;> cases side
      case yes.yes | no.no =>
        cases moves.symm.trans wanted
        exact wide
      -- the other side is the one that stays
      case yes.no | no.yes => exact absurd (stays.symm.trans wanted) nofun
    · intro bid ask movesBid movesAsk
      cases side with
      | yes => exact absurd (stays.symm.trans movesAsk) nofun
      | no => exact absurd (stays.symm.trans movesBid) nofun
  · intro apart
    exact apart.1 side _ moves stays

/-- From a state with the floor kept, an update that leaves two live quotes keeps it exactly if the sides that it
moves are no closer than the floor, alone or together. -/
theorem Floored.update_iff {s : Desk F X} (floored : s.Floored ticker) (book : LocalOrderbook)
    (live : (update venue ticker book s).2.BothLive ticker) :
    s.quoter.config.minSpreadCents ≤ (update venue ticker book s).2.restingSpread ticker ↔
      s.AloneApart venue ticker book ∧ s.TogetherApart venue ticker book := by
  rcases movesTo_spec (live .yes) with ⟨bidMoves, _⟩ | ⟨bidStays, bidHeld, bidAt⟩
  · rcases movesTo_spec (live .no) with ⟨askMoves, _⟩ | ⟨askStays, _, _⟩
    · constructor
      · intro wide
        constructor
        · intro side _ _ stays
          cases side with
          | yes => exact absurd (stays.symm.trans askMoves) nofun
          | no => exact absurd (stays.symm.trans bidMoves) nofun
        · intro bid ask movesBid movesAsk
          cases bidMoves.symm.trans movesBid
          cases askMoves.symm.trans movesAsk
          exact wide
      · intro apart
        exact apart.2 _ _ bidMoves askMoves
    · exact alone_iff live bidMoves askStays
  · rcases movesTo_spec (live .no) with ⟨askMoves, _⟩ | ⟨askStays, askHeld, askAt⟩
    · exact alone_iff live askMoves bidStays
    · -- neither side moves: the two orders are those there were
      have stays : ∀ side, s.movesTo venue ticker book side = none := by
        intro side
        cases side with
        | yes => exact bidStays
        | no => exact askStays
      have before : s.BothLive ticker := by
        intro side
        cases side with
        | yes => exact bidHeld ▸ live .yes
        | no => exact askHeld ▸ live .no
      have wide := floored before
      unfold restingSpread at wide ⊢
      rw [bidAt, askAt]
      refine iff_of_true wide ⟨fun side _ moves _ => ?_, fun _ _ moves _ => ?_⟩
      · exact absurd ((stays side).symm.trans moves) nofun
      · exact absurd (bidStays.symm.trans moves) nofun

end Desk

/-! ### Moving both sides at once -/

section

variable [Elementary ℚ]

/-- The same configuration, its numbers read as reals. -/
def QuoterConfig.toReal (config : QuoterConfig ℚ) : QuoterConfig ℝ where
  targetSpreadCents := config.targetSpreadCents
  repriceThresholdCents := config.repriceThresholdCents
  quoteSize := config.quoteSize
  imbalanceSpreadCents := config.imbalanceSpreadCents
  minSpreadCents := config.minSpreadCents
  minRestMs := config.minRestMs
  theoJumpCents := config.theoJumpCents
  fadeRestMs := config.fadeRestMs
  longshotPriceThresholdCents := config.longshotPriceThresholdCents
  longshotEdgeCents := config.longshotEdgeCents
  fvEmaAlpha := config.fvEmaAlpha
  flowLeanCents := config.flowLeanCents
  useClearingPricing := config.useClearingPricing
  clearingTapeWeight := config.clearingTapeWeight
  tapeHalfLifeSeconds := config.tapeHalfLifeSeconds
  inventoryCapLots := config.inventoryCapLots
  unwindEdgeCents := config.unwindEdgeCents
  useViewBasedPricing := config.useViewBasedPricing
  viewDebiasBeta := config.viewDebiasBeta
  makerFeeRate := config.makerFeeRate

theorem computeQuotes_cast (value : ℚ) (halfSpread : Int) :
    computeQuotes (value : ℝ) halfSpread = computeQuotes value halfSpread := by
  have floors : ⌊(value : ℝ) - (halfSpread : ℝ)⌋ = ⌊value - halfSpread⌋ := by
    rw [← Rat.floor_cast (α := ℝ)]
    push_cast
    rfl
  have ceils : ⌈(value : ℝ) + (halfSpread : ℝ)⌉ = ⌈value + halfSpread⌉ := by
    rw [← Rat.ceil_cast (α := ℝ)]
    push_cast
    rfl
  change (clampInt ⌊(value : ℝ) - (halfSpread : ℝ)⌋ _ _, clampInt ⌈(value : ℝ) + (halfSpread : ℝ)⌉ _ _) = _
  rw [floors, ceils]
  rfl

theorem rawQuotes_cast (config : QuoterConfig ℚ) (value : ℚ) (halfSpread : Int) :
    config.toReal.rawQuotes (value : ℝ) halfSpread 0 = config.rawQuotes value halfSpread 0 := by
  rw [QuoterConfig.rawQuotes_shaded, QuoterConfig.rawQuotes_shaded, computeQuotes_cast]
  rw [if_neg (lt_irrefl (0 : ℝ)), if_neg (lt_irrefl (0 : ℝ))]
  rfl

theorem round_cast (x : ℚ) : Floating.round (x : ℝ) = Floating.round x := by
  change (if 0 ≤ (x : ℝ) then ⌊(x : ℝ) + 1 / 2⌋ else -⌊-(x : ℝ) + 1 / 2⌋) =
    if 0 ≤ x then ⌊x + 1 / 2⌋ else -⌊-x + 1 / 2⌋
  simp only [Rat.cast_nonneg, ← Rat.floor_cast (α := ℝ)]
  push_cast
  rfl

theorem halfSpread_cast (config : QuoterConfig ℚ) (imbalanced : Bool) (fairVal : ℚ) :
    config.toReal.halfSpread imbalanced (fairVal : ℝ) = config.halfSpread imbalanced fairVal := by
  have fee : (if (0 : ℝ) < (config.makerFeeRate : ℝ) then Floating.round ((config.makerFeeRate : ℝ) *
      ((fairVal : ℝ) / ((100 : Int) : ℝ)) * (((1 : Int) : ℝ) - (fairVal : ℝ) / ((100 : Int) : ℝ)) *
        ((100 : Int) : ℝ)) else 0) =
      if 0 < config.makerFeeRate then Floating.round (config.makerFeeRate * (fairVal / ((100 : Int) : ℚ)) *
        (((1 : Int) : ℚ) - fairVal / ((100 : Int) : ℚ)) * ((100 : Int) : ℚ)) else 0 := by
    rw [← round_cast]
    push_cast
    simp only [Rat.cast_pos]
  let base := max (max kHalfSpreadMin ((if imbalanced then
    config.targetSpreadCents + config.imbalanceSpreadCents else config.targetSpreadCents).tdiv 2))
    ((config.minSpreadCents + 1).tdiv 2)
  exact congrArg (fun feeCents => base + feeCents) fee

/-- Without inventory and off the ends of the price range, the two prices an update wants are at least the configured
spread apart. -/
theorem Outlook.desired_apart (outlook : Outlook ℚ) {quoter : Quoter ℚ} (edge : 0 ≤ quoter.config.longshotEdgeCents)
    (flat : outlook.inventory = 0) {marketBid marketAsk bid ask : Int}
    (wantedBid : outlook.desired quoter marketBid marketAsk .yes = some bid)
    (wantedAsk : outlook.desired quoter marketBid marketAsk .no = some ask) (low : 2 ≤ bid) (high : ask ≤ 98) :
    quoter.config.minSpreadCents ≤ ask - bid := by
  let value := outlook.reservation quoter
  obtain ⟨rawBid, rawAsk, around, raw⟩ :=
    @QuoterConfig.rawQuotes_around quoter.config.toReal edge value (outlook.halfSpread quoter)
  have pair : quoter.config.rawQuotes value (outlook.halfSpread quoter) 0 = (rawBid, rawAsk) := by
    rw [← rawQuotes_cast, raw 0, if_neg (lt_irrefl 0), if_neg (lt_irrefl 0)]
  -- the market can only move a desired price further out
  have bidding : bid ≤ rawBid := by
    have below : bid ≤ (quoter.config.rawQuotes value (outlook.halfSpread quoter) outlook.inventory).1 :=
      passiveBid_le wantedBid
    rw [flat, pair] at below
    exact below
  have asking : rawAsk ≤ ask := by
    have above : (quoter.config.rawQuotes value (outlook.halfSpread quoter) outlook.inventory).2 ≤ ask :=
      le_passiveAsk wantedAsk
    rw [flat, pair] at above
    exact above
  have bidEdge : (rawBid : ℝ) ≤ (value : ℝ) - outlook.halfSpread quoter :=
    around.below.resolve_left (by omega)
  have askEdge : (value : ℝ) + outlook.halfSpread quoter ≤ (rawAsk : ℝ) :=
    around.above.resolve_left (by omega)
  have across : ((2 * outlook.halfSpread quoter : Int) : ℝ) ≤ ((rawAsk - rawBid : Int) : ℝ) := by
    push_cast
    linarith
  -- half the spread is no less than half of the floor
  obtain ⟨least, most⟩ := PricingModel.estimate_within quoter.model _
  change 1 ≤ outlook.fairVal quoter at least
  change outlook.fairVal quoter ≤ 99 at most
  have wide : quoter.config.minSpreadCents ≤ 2 * outlook.halfSpread quoter := by
    have positive : (0 : ℝ) < (outlook.fairVal quoter : ℝ) := by
      exact_mod_cast (by linarith : 0 < outlook.fairVal quoter)
    have below : (outlook.fairVal quoter : ℝ) < 100 := by exact_mod_cast (by linarith : outlook.fairVal quoter < 100)
    have floor := @QuoterConfig.minSpread_le quoter.config.toReal _ positive below outlook.imbalanced
    rw [halfSpread_cast] at floor
    exact floor
  have apart : 2 * outlook.halfSpread quoter ≤ rawAsk - rawBid := Int.cast_le.mp across
  omega

/-- With a price gate of two cents or more to either end and no longshot edge below nothing, an update
without inventory that moves both sides moves them far enough apart. -/
theorem quoted_together_apart (venue : Venue X) (ticker : Ticker) (book : LocalOrderbook) (s : Desk ℚ X)
    (gate : 2 ≤ s.riskMgr.limits.minQuotePriceCents) (edge : 0 ≤ s.quoter.config.longshotEdgeCents)
    (flat : s.orderMgr.netPosition ticker = {}) (live : (update venue ticker book s).2.BothLive ticker) :
    s.TogetherApart venue ticker book := by
  intro bid ask movesBid movesAsk
  have moved : ∀ side desired, s.movesTo venue ticker book side = some desired →
      ((update venue ticker book s).2.quoter.ownQuotes ticker side).quotedCents = desired ∧
        s.GrantsQuote venue ticker book side := by
    intro side desired moves
    rcases movesTo_spec (live side) with ⟨arrived, granted⟩ | ⟨stays, _⟩
    · cases arrived.symm.trans moves
      exact ⟨rfl, granted⟩
    · exact absurd (stays.symm.trans moves) nofun
  obtain ⟨bidAt, bidGranted⟩ := moved .yes bid movesBid
  obtain ⟨askAt, askGranted⟩ := moved .no ask movesAsk
  obtain ⟨seen, looked, _⟩ := Option.bind_eq_some_iff.mp movesBid
  obtain ⟨bestBid, bestAsk, outlook, goesBy, _⟩ := look_goesBy looked
  have wantedBid := quoted_price goesBy (live .yes) bidGranted
  have wantedAsk := quoted_price goesBy (live .no) askGranted
  rw [bidAt] at wantedBid
  rw [askAt] at wantedAsk
  -- a price that was sent has passed the check of the order, and so its lower limit
  have gated : ∀ side desired, outlook.desired s.quoter bestBid.priceCents bestAsk.priceCents side = some desired →
      s.GrantsQuote venue ticker book side → 2 ≤ (legOf side).orderPrice desired := by
    intro side desired wanted quotes
    obtain ⟨entry, member, rests⟩ := quotes
    obtain ⟨price, quoted⟩ := Call.restsOn_quoted rests
    obtain ⟨_, sent, quantity, passed⟩ := goesBy.sends entry member ticker side price quoted
    cases sent.symm.trans wanted
    exact gate.trans (RiskManager.checkOrder_price passed).1
  have without : outlook.inventory = 0 := by
    obtain ⟨_, _, _, _, _, _, _, _, _, read⟩ := goesBy.pricesOff.asked
    rw [read]
    change (s.orderMgr.netPosition ticker).contracts = (0 : ℚ)
    rw [flat]
    norm_num [Quantity.contracts]
  -- the ask is sent as a NO bid, whose own lower limit bounds it from above
  have low : 2 ≤ bid := gated .yes bid wantedBid bidGranted
  have high : 2 ≤ 100 - ask := gated .no ask wantedAsk askGranted
  exact outlook.desired_apart edge without wantedBid wantedAsk low (by omega)

/-! ### Runs -/

namespace Desk

/-- An update of the market without inventory that keeps the floor where it leaves two live quotes, or what happens
between two updates. -/
inductive SpreadTurn (venue : Venue X) (ticker : Ticker) (s : Desk ℚ X) : Desk ℚ X → Prop where
  | update (book : LocalOrderbook) (flat : s.orderMgr.netPosition ticker = {})
      (keeps : (Quoter.update venue ticker book s).2.BothLive ticker → s.KeepsFloor venue ticker book) :
      SpreadTurn venue ticker s (Quoter.update venue ticker book s).2
  | aside {s' : Desk ℚ X} (between : s.Aside venue ticker s') : SpreadTurn venue ticker s s'

/-- Without inventory, an update from a state with the floor kept keeps it exactly if it meets the condition. -/
theorem Floored.keepsFloor_iff {venue : Venue X} {ticker : Ticker} {s : Desk ℚ X} (floored : s.Floored ticker)
    (flat : s.orderMgr.netPosition ticker = {}) (book : LocalOrderbook)
    (live : (update venue ticker book s).2.BothLive ticker) :
    s.quoter.config.minSpreadCents ≤ (update venue ticker book s).2.restingSpread ticker ↔
      s.KeepsFloor venue ticker book := by
  rw [floored.update_iff book live]
  constructor
  · rintro ⟨alone, together⟩
    exact ⟨alone, fun _ => together⟩
  · rintro ⟨alone, together⟩
    refine ⟨alone, ?_⟩
    by_cases gate : 2 ≤ s.riskMgr.limits.minQuotePriceCents
    · by_cases edge : 0 ≤ s.quoter.config.longshotEdgeCents
      · exact quoted_together_apart venue ticker book s gate edge flat live
      · exact together (.inr (not_le.mp edge))
    · exact together (.inl (not_le.mp gate))

theorem Floored.turn {venue : Venue X} {ticker : Ticker} {s s' : Desk ℚ X} (turn : SpreadTurn venue ticker s s')
    (floored : s.Floored ticker) : s'.Floored ticker := by
  cases turn with
  | update book flat keeps =>
    intro live
    rw [update_config]
    exact (floored.keepsFloor_iff flat book live).mpr (keeps live)
  | aside between => exact floored.aside between

end Desk

/-- In every run whose updates, all without inventory, have kept the floor so far, the next one that leaves two live
quotes keeps it exactly if it meets the condition. -/
theorem resting_spread_iff (venue : Venue X) (ticker : Ticker) {start s : Desk ℚ X}
    (vacant : start.quoter.ownQuotes ticker = fun _ => {})
    (reached : ReflTransGen (Desk.SpreadTurn venue ticker) start s) (flat : s.orderMgr.netPosition ticker = {})
    (book : LocalOrderbook) (live : (update venue ticker book s).2.BothLive ticker) :
    s.quoter.config.minSpreadCents ≤ (update venue ticker book s).2.restingSpread ticker ↔
      s.KeepsFloor venue ticker book := by
  have floored : s.Floored ticker := by
    apply chain_invariant (fun s : Desk ℚ X => s.Floored ticker) (fun _ _ turn => Desk.Floored.turn turn) reached
    intro alive
    have held := alive .yes
    rw [vacant] at held
    exact absurd rfl held
  exact floored.keepsFloor_iff flat book live

end

/-! ### A fair value that jumps up by three cents -/

namespace Desk

/-- The venue's clock moves on. -/
def atMs (s : Desk ℚ Script) (ms : Int) : Desk ℚ Script :=
  { s with outside := { s.outside with time := ms * nanosPerMilli } }

def unsmoothed : Desk ℚ Script :=
  (Process.start { tickers := ["M"] } ({ useClearingPricing := true, fvEmaAlpha := 1 } : QuoterConfig ℚ) {}
    ({} : Script) none none false false).desk

/-- A market around this price, ten cents to each side. -/
def marketAt (midCents : Int) : LocalOrderbook :=
  ⟨{ ticker := "M", yes := [⟨midCents - 10, ⟨1000⟩⟩], no := [⟨90 - midCents, ⟨1000⟩⟩] }⟩

end Desk

/-- Both sides follow a move of two cents together. -/
theorem resting_spread_iff_moved :
    let venue : Venue Script := ⟨⟨"exchange"⟩, Script.host⟩
    let quoted := ((update venue "M" (marketAt 50) unsmoothed).2).atMs 4000
    unsmoothed.KeepsFloor venue "M" (marketAt 50) ∧ quoted.KeepsFloor venue "M" (marketAt 52) := by
  intro venue quoted
  have live : (update venue "M" (marketAt 50) unsmoothed).2.BothLive "M" := by
    intro side
    cases side <;> decide +kernel
  have first : unsmoothed.KeepsFloor venue "M" (marketAt 50) :=
    (resting_spread_iff venue "M" rfl .refl rfl (marketAt 50) live).mp (by decide +kernel)
  have updated : SpreadTurn venue "M" unsmoothed (update venue "M" (marketAt 50) unsmoothed).2 :=
    .update (marketAt 50) rfl fun _ => first
  have passed : SpreadTurn venue "M" (update venue "M" (marketAt 50) unsmoothed).2 quoted :=
    .aside (.elsewhere rfl rfl)
  have reached : ReflTransGen (SpreadTurn venue "M") unsmoothed quoted := (ReflTransGen.single updated).tail passed
  have flat : quoted.orderMgr.netPosition "M" = {} := by decide +kernel
  have alive : (update venue "M" (marketAt 52) quoted).2.BothLive "M" := by
    intro side
    cases side <;> decide +kernel
  exact ⟨first, (resting_spread_iff venue "M" rfl reached flat (marketAt 52) alive).mp (by decide +kernel)⟩

/-- After a jump of three cents the bid follows at once and the ask waits for a second sighting. -/
theorem jump_narrows_resting_spread :
    let venue : Venue Script := ⟨⟨"exchange"⟩, Script.host⟩
    let quoted := ((update venue "M" (marketAt 50) unsmoothed).2).atMs 4000
    let jumped := (update venue "M" (marketAt 53) quoted).2
    quoted.orderMgr.netPosition "M" = {} ∧ (jumped.quoter.ownQuotes "M" .yes).orderId = "order-3" ∧
      (jumped.quoter.ownQuotes "M" .no).orderId = "order-2" ∧ jumped.restingSpread "M" = 1 ∧
      jumped.quoter.config.minSpreadCents = 3 := by
  decide +kernel

end Kalshi
