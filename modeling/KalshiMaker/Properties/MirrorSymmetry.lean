import KalshiMaker.Strategy.DesiredQuotes
import KalshiMaker.Strategy.Reservation

/-! Quoting treats YES and NO alike: in exact arithmetic the mirrored market gets the mirrored quotes. -/
namespace Kalshi

/-! ### The book -/

def Level.mirror (level : Level) : Level := { level with priceCents := complementPrice level.priceCents }

namespace LocalOrderbook

/-- The same market with YES and NO exchanged. -/
def mirror (book : LocalOrderbook) : LocalOrderbook :=
  ⟨{ book.state with yes := book.state.no, no := book.state.yes }⟩

variable {book : LocalOrderbook} {bid ask : Level}

theorem mirror_bestBid (asks : book.bestAsk = some ask) : book.mirror.bestBid = some ask.mirror := by
  unfold bestAsk at asks
  cases front : book.state.no.head? with
  | none =>
    rw [front] at asks
    cases asks
  | some bestNo =>
    rw [front] at asks
    cases asks
    simp [mirror, bestBid, front, Level.mirror]

theorem mirror_bestAsk (bids : book.bestBid = some bid) : book.mirror.bestAsk = some bid.mirror := by
  unfold bestBid at bids
  simp [mirror, bestAsk, bids, Level.mirror]

theorem midPriceCents_real (bids : book.bestBid = some bid) (asks : book.bestAsk = some ask) :
    (book.midPriceCents : ℝ) = (bid.priceCents + ask.priceCents) / 2 := by
  unfold midPriceCents
  rw [bids, asks]
  change ((bid.priceCents : ℝ) + ask.priceCents) / ((2 : Int) : ℝ) = _
  rw [Int.cast_ofNat]

theorem microPriceCents_real (bids : book.bestBid = some bid) (asks : book.bestAsk = some ask) :
    (book.microPriceCents : ℝ) =
      if (bid.quantity.contracts : ℝ) + ask.quantity.contracts ≤ 0 then ((bid.priceCents : ℝ) + ask.priceCents) / 2
      else (bid.priceCents * ask.quantity.contracts + ask.priceCents * bid.quantity.contracts) /
        (bid.quantity.contracts + ask.quantity.contracts) := by
  rw [← midPriceCents_real bids asks]
  unfold microPriceCents
  rw [bids, asks]

theorem mirror_microPriceCents (bids : book.bestBid = some bid) (asks : book.bestAsk = some ask) :
    (book.mirror.microPriceCents : ℝ) = 100 - book.microPriceCents := by
  rw [microPriceCents_real bids asks, microPriceCents_real (mirror_bestBid asks) (mirror_bestAsk bids)]
  simp only [Level.mirror, complementPrice, kPriceBasis]
  push_cast
  rw [add_comm (ask.quantity.contracts : ℝ)]
  split
  next => ring
  next held =>
    have total : (bid.quantity.contracts : ℝ) + ask.quantity.contracts ≠ 0 := fun none => held none.le
    field_simp
    ring

end LocalOrderbook

/-! ### The flow of our own fills -/

def FlowEntry.mirror (entry : FlowEntry) : FlowEntry := { entry with side := entry.side.opposite }

namespace FlowImbalanceGuard

/-- The same fills, each on the other side. -/
def mirror (guard : FlowImbalanceGuard ℝ) : FlowImbalanceGuard ℝ :=
  { guard with fills := fun ticker => (guard.fills ticker).map FlowEntry.mirror }

/-- Swapped fills recorded one by one give the mirrored guard. -/
theorem mirror_recordFill (guard : FlowImbalanceGuard ℝ) (ticker : Ticker) (side : Side) (quantity : Quantity)
    (time : TimePoint) : (guard.recordFill ticker side quantity time).mirror =
      guard.mirror.recordFill ticker side.opposite quantity time := by
  unfold recordFill mirror
  congr 1
  funext other
  dsimp only
  split
  · rw [show [(⟨time, side.opposite, quantity⟩ : FlowEntry)] = [(⟨time, side, quantity⟩ : FlowEntry)].map
      FlowEntry.mirror from rfl, ← List.map_append, List.dropWhile_map]
    rfl
  · rfl

theorem mirror_windowedVolume (guard : FlowImbalanceGuard ℝ) (ticker : Ticker) (now : TimePoint) (side : Side) :
    guard.mirror.windowedVolume ticker now side = guard.windowedVolume ticker now side.opposite := by
  have walk : ∀ (entries : List FlowEntry) (volume : Quantity),
      (entries.map FlowEntry.mirror).foldl (fun volume entry =>
        if entry.time < guard.cutoff now then volume
        else if entry.side = side then volume + entry.quantity else volume) volume =
      entries.foldl (fun volume entry =>
        if entry.time < guard.cutoff now then volume
        else if entry.side = side.opposite then volume + entry.quantity else volume) volume := by
    intro entries
    induction entries with
    | nil => exact fun _ => rfl
    | cons entry entries ih =>
      intro volume
      have turned : entry.side.opposite = side ↔ entry.side = side.opposite := by
        cases entry.side <;> cases side <;> simp [Side.opposite]
      rw [List.map_cons, List.foldl_cons, List.foldl_cons, ih]
      simp only [FlowEntry.mirror, turned]
  exact walk (guard.fills ticker) {}

theorem ratio_comm (yesVolume noVolume : ℝ) : ratio yesVolume noVolume = ratio noVolume yesVolume := by
  unfold ratio
  rw [Floating.max_real, Floating.max_real noVolume, Floating.min_real, Floating.min_real noVolume, max_comm,
    min_comm]

theorem ratio_self_le (volume : ℝ) : ratio volume volume ≤ 1 := by
  unfold ratio
  rw [Floating.max_real, Floating.min_real, Floating.max_real, max_self, min_self]
  push_cast
  have base : (0 : ℝ) < max volume 1 := lt_of_lt_of_le one_pos (le_max_right _ _)
  exact (div_le_one base).mpr (le_max_left _ _)

theorem mirror_isImbalanced (guard : FlowImbalanceGuard ℝ) (ticker : Ticker) (now : TimePoint) :
    guard.mirror.isImbalanced ticker now = guard.isImbalanced ticker now := by
  unfold isImbalanced
  simp only [mirror_windowedVolume, Side.opposite]
  have total : guard.windowedVolume ticker now .no + guard.windowedVolume ticker now .yes =
      guard.windowedVolume ticker now .yes + guard.windowedVolume ticker now .no :=
    Quantity.ext_centi (add_comm _ _)
  rw [total, ratio_comm]
  rfl

/-- Flow that counts as one-sided has a heavier side. -/
theorem volumes_differ {guard : FlowImbalanceGuard ℝ} (threshold : 1 ≤ guard.config.imbalanceRatioThreshold)
    {ticker : Ticker} {now : TimePoint} (imbalanced : guard.isImbalanced ticker now = true) :
    guard.windowedVolume ticker now .yes ≠ guard.windowedVolume ticker now .no := by
  intro same
  unfold isImbalanced at imbalanced
  simp only [same] at imbalanced
  split at imbalanced
  · cases imbalanced
  · have above : guard.config.imbalanceRatioThreshold <
        ratio ((guard.windowedVolume ticker now .no).contracts : ℝ) (guard.windowedVolume ticker now .no).contracts :=
      of_decide_eq_true imbalanced
    have below := ratio_self_le ((guard.windowedVolume ticker now .no).contracts : ℝ)
    linarith

/-- A threshold of 1 or more leaves no tie to break towards one side. -/
theorem mirror_dominantTakerSide {guard : FlowImbalanceGuard ℝ}
    (threshold : 1 ≤ guard.config.imbalanceRatioThreshold) (ticker : Ticker) (now : TimePoint) :
    guard.mirror.dominantTakerSide ticker now = (guard.dominantTakerSide ticker now).map Side.opposite := by
  unfold dominantTakerSide
  rw [mirror_isImbalanced, mirror_windowedVolume, mirror_windowedVolume]
  by_cases imbalanced : guard.isImbalanced ticker now = true
  · have differ := volumes_differ threshold imbalanced
    have apart : (guard.windowedVolume ticker now .yes).centi ≠ (guard.windowedVolume ticker now .no).centi :=
      fun same => differ (Quantity.ext_centi same)
    rw [if_neg (not_not.mpr imbalanced), if_neg (not_not.mpr imbalanced)]
    simp only [Side.opposite, Quantity.lt_iff]
    rcases lt_or_gt_of_ne apart with less | more
    · rw [if_pos less, if_neg (by omega)]
      rfl
    · rw [if_neg (by omega), if_pos more]
      rfl
  · rw [if_pos imbalanced, if_pos imbalanced]
    rfl

end FlowImbalanceGuard

/-! ### The models -/

theorem clamp_mirror {low high : ℝ} (ordered : low ≤ high) (total value : ℝ) :
    Floating.clamp (total - value) (total - high) (total - low) = total - Floating.clamp value low high := by
  unfold Floating.clamp
  by_cases under : value < low
  · rw [if_pos under, if_neg (by linarith), if_pos (by linarith)]
  · rw [if_neg under]
    by_cases beyond : high < value
    · rw [if_pos beyond, if_pos (by linarith)]
    · rw [if_neg beyond, if_neg (by linarith), if_neg (by linarith)]

namespace PricingModel

theorem clampCents_mirror (value : ℝ) : clampCents (100 - value) = 100 - clampCents value := by
  have mirrored := clamp_mirror (show ((1 : Int) : ℝ) ≤ ((99 : Int) : ℝ) by norm_num) 100 value
  have low : (100 : ℝ) - ((99 : Int) : ℝ) = ((1 : Int) : ℝ) := by norm_num
  have high : (100 : ℝ) - ((1 : Int) : ℝ) = ((99 : Int) : ℝ) := by norm_num
  rw [low, high] at mirrored
  exact mirrored

theorem ratioOf_real (numerator denominator : Int) :
    (ratioOf numerator denominator : ℝ) = (numerator : ℝ) / denominator := rfl

theorem clampProb_mirror (prob : ℝ) : clampProb (1 - prob) = 1 - clampProb prob := by
  have mirrored := clamp_mirror (show (ratioOf 1 100 : ℝ) ≤ ratioOf 99 100 by
    rw [ratioOf_real, ratioOf_real]; norm_num) 1 prob
  have low : (1 : ℝ) - ratioOf 99 100 = ratioOf 1 100 := by
    rw [ratioOf_real, ratioOf_real]
    norm_num
  have high : (1 : ℝ) - ratioOf 1 100 = ratioOf 99 100 := by
    rw [ratioOf_real, ratioOf_real]
    norm_num
  rw [low, high] at mirrored
  exact mirrored

/-- What the quoter asks a model. -/
def marketInput (midCents : ℝ) (tapeVwapCents : Option ℝ) : FairValueInput ℝ where
  midCents
  timeToCloseHours := (kDefaultTimeToCloseHours : ℝ)
  netPosition := 0
  externalProb := none
  tapeVwapCents

theorem heuristicEstimate_mirror (mid : ℝ) (vwap : Option ℝ) :
    heuristicEstimate (marketInput (100 - mid) (vwap.map fun vwap => 100 - vwap)) =
      100 - heuristicEstimate (marketInput mid vwap) := by
  have unfolded : ∀ mid vwap, heuristicEstimate (marketInput mid vwap) =
      clampCents (mid + (((50 : Int) : ℝ) - mid) * Real.exp
        (-((kDefaultTimeToCloseHours : Int) : ℝ) / ((24 : Int) : ℝ)) -
        ((0 : Int) : ℝ) * (ratioOf 5 100 : ℝ)) := fun _ _ => rfl
  rw [unfolded, unfolded, ← clampCents_mirror]
  congr 1
  push_cast
  ring

theorem clearingPriceEstimate_mirror (tapeWeight mid : ℝ) (vwap : Option ℝ) :
    clearingPriceEstimate tapeWeight (marketInput (100 - mid) (vwap.map fun vwap => 100 - vwap)) =
      100 - clearingPriceEstimate tapeWeight (marketInput mid vwap) := by
  cases vwap with
  | none => exact clampCents_mirror mid
  | some vwap =>
    have unfolded : ∀ mid vwap : ℝ, clearingPriceEstimate tapeWeight (marketInput mid (some vwap)) =
        clampCents (tapeWeight * vwap + (((1 : Int) : ℝ) - tapeWeight) * mid) := fun _ _ => rfl
    rw [Option.map_some, unfolded, unfolded, ← clampCents_mirror]
    congr 1
    push_cast
    ring

theorem viewBasedEstimate_mirror (beta mid : ℝ) (vwap : Option ℝ) :
    viewBasedEstimate beta (marketInput (100 - mid) (vwap.map fun vwap => 100 - vwap)) =
      100 - viewBasedEstimate beta (marketInput mid vwap) := by
  -- The constructor's bound on `beta` keeps the debiasing away from a division by zero.
  have bounded : Floating.clamp beta 0 (ratioOf 95 100) ≤ (95 : ℝ) / 100 := by
    have high : (ratioOf 95 100 : ℝ) = 95 / 100 := by
      rw [ratioOf_real]
      norm_num
    rw [high]
    unfold Floating.clamp
    split_ifs <;> linarith
  have unfolded : ∀ mid vwap, viewBasedEstimate beta (marketInput mid vwap) =
      clampProb ((mid / ((100 : Int) : ℝ) - Floating.clamp beta 0 (ratioOf 95 100) / ((2 : Int) : ℝ)) /
        (((1 : Int) : ℝ) - Floating.clamp beta 0 (ratioOf 95 100))) * ((100 : Int) : ℝ) := fun _ _ => rfl
  rw [unfolded, unfolded]
  generalize Floating.clamp beta 0 (ratioOf 95 100) = beta at bounded
  have apart : 1 - beta ≠ 0 := by linarith
  have mirrored : ((100 - mid) / ((100 : Int) : ℝ) - beta / ((2 : Int) : ℝ)) / (((1 : Int) : ℝ) - beta) =
      1 - (mid / ((100 : Int) : ℝ) - beta / ((2 : Int) : ℝ)) / (((1 : Int) : ℝ) - beta) := by
    push_cast
    field_simp
    ring
  rw [mirrored, clampProb_mirror]
  push_cast
  ring

/-- Every model answers within the price range. -/
theorem estimate_range (model : PricingModel ℝ) (input : FairValueInput ℝ) :
    1 ≤ model.estimate input ∧ model.estimate input ≤ 99 := by
  have clamped : ∀ {low high value : ℝ}, low ≤ high →
      low ≤ Floating.clamp value low high ∧ Floating.clamp value low high ≤ high := by
    intro low high value ordered
    unfold Floating.clamp
    split_ifs <;> constructor <;> linarith
  have cents : ∀ value : ℝ, 1 ≤ clampCents value ∧ clampCents value ≤ 99 := by
    intro value
    obtain ⟨low, high⟩ : ((1 : Int) : ℝ) ≤ clampCents value ∧ clampCents value ≤ ((99 : Int) : ℝ) :=
      clamped (by norm_num)
    generalize clampCents value = clamped at low high ⊢
    push_cast at low high
    exact ⟨low, high⟩
  have prob : ∀ value : ℝ, 1 ≤ clampProb value * ((100 : Int) : ℝ) ∧ clampProb value * ((100 : Int) : ℝ) ≤ 99 := by
    intro value
    obtain ⟨low, high⟩ : (ratioOf 1 100 : ℝ) ≤ clampProb value ∧ clampProb value ≤ (ratioOf 99 100 : ℝ) :=
      clamped (by rw [ratioOf_real, ratioOf_real]; norm_num)
    generalize clampProb value = clamped at low high ⊢
    rw [ratioOf_real] at low high
    push_cast at low high ⊢
    constructor <;> linarith
  rcases model.estimate_clamped input with ⟨value, same⟩ | ⟨value, same⟩
  · rw [same]
    exact cents value
  · rw [same]
    exact prob value

theorem estimate_mirror (model : PricingModel ℝ) (mid : ℝ) (vwap : Option ℝ) :
    model.estimate (marketInput (100 - mid) (vwap.map fun vwap => 100 - vwap)) =
      100 - model.estimate (marketInput mid vwap) := by
  cases model with
  | heuristic => exact heuristicEstimate_mirror mid vwap
  | clearingPrice tapeWeight => exact clearingPriceEstimate_mirror tapeWeight mid vwap
  | viewBased beta => exact viewBasedEstimate_mirror beta mid vwap

end PricingModel

/-! ### The quotes -/

namespace QuoterConfig

variable (config : QuoterConfig ℝ)

theorem halfSpread_mirror (imbalanced : Bool) (fair : ℝ) :
    config.halfSpread imbalanced (100 - fair) = config.halfSpread imbalanced fair := by
  have fee : config.makerFeeRate * ((100 - fair) / ((100 : Int) : ℝ)) *
      (((1 : Int) : ℝ) - (100 - fair) / ((100 : Int) : ℝ)) * ((100 : Int) : ℝ) =
      config.makerFeeRate * (fair / ((100 : Int) : ℝ)) * (((1 : Int) : ℝ) - fair / ((100 : Int) : ℝ)) *
        ((100 : Int) : ℝ) := by
    push_cast
    ring
  unfold halfSpread
  dsimp only
  rw [fee]

theorem leanedVal_mirror (fair : ℝ) (takerSide : Option Side) :
    config.leanedVal (100 - fair) (takerSide.map Side.opposite) = 100 - config.leanedVal fair takerSide := by
  rcases takerSide with _ | _ | _
  · rfl
  · change 100 - fair + -config.flowLeanCents = 100 - (fair + config.flowLeanCents)
    ring
  · change 100 - fair + config.flowLeanCents = 100 - (fair + -config.flowLeanCents)
    ring

theorem floor_mirror (value : ℝ) : ⌊100 - value⌋ = 100 - ⌈value⌉ := by
  have shifted : (100 : ℝ) - value = -value + ((100 : Int) : ℝ) := by
    push_cast
    ring
  rw [shifted, Int.floor_add_intCast, Int.floor_neg]
  ring

theorem ceil_mirror (value : ℝ) : ⌈100 - value⌉ = 100 - ⌊value⌋ := by
  have shifted : (100 : ℝ) - value = -value + ((100 : Int) : ℝ) := by
    push_cast
    ring
  rw [shifted, Int.ceil_add_intCast, Int.ceil_neg]
  ring

theorem computeQuotes_mirror (value : ℝ) (halfSpread : Int) :
    computeQuotes (100 - value) halfSpread =
      (100 - (computeQuotes value halfSpread).2, 100 - (computeQuotes value halfSpread).1) := by
  have unfolded : ∀ value : ℝ, computeQuotes value halfSpread =
      (clampInt ⌊value - halfSpread⌋ 1 98, clampInt ⌈value + halfSpread⌉ 2 99) := fun _ => rfl
  rw [unfolded, unfolded, sub_sub, floor_mirror, show 100 - value + (halfSpread : ℝ) =
    100 - (value - halfSpread) by ring,
    ceil_mirror]
  generalize ⌈value + (halfSpread : ℝ)⌉ = beyond
  generalize ⌊value - (halfSpread : ℝ)⌋ = under
  unfold clampInt
  ext
  · dsimp only
    split_ifs <;> omega
  · dsimp only
    split_ifs <;> omega

theorem shadeBid_mirror (ask : Int) : config.shadeBid (100 - ask) = 100 - config.shadeAsk ask := by
  unfold shadeBid shadeAsk complementPrice kPriceBasis kBidMinCents kAskMaxCents
  split <;> omega

theorem shadeAsk_mirror (bid : Int) : config.shadeAsk (100 - bid) = 100 - config.shadeBid bid := by
  unfold shadeBid shadeAsk complementPrice kPriceBasis kBidMinCents kAskMaxCents
  rw [sub_sub_cancel]
  split <;> omega

theorem rawQuotes_mirror (value : ℝ) (halfSpread : Int) (inventory : ℝ) :
    config.rawQuotes (100 - value) halfSpread (-inventory) =
      (100 - (config.rawQuotes value halfSpread inventory).2,
        100 - (config.rawQuotes value halfSpread inventory).1) := by
  have up : Floating.ceil (100 - value + config.unwindEdgeCents) =
      100 - Floating.floor (value - config.unwindEdgeCents) := by
    rw [show 100 - value + config.unwindEdgeCents = 100 - (value - config.unwindEdgeCents) by ring]
    exact ceil_mirror _
  have down : Floating.floor (100 - value - config.unwindEdgeCents) =
      100 - Floating.ceil (value + config.unwindEdgeCents) := by
    rw [sub_sub]
    exact floor_mirror _
  rw [rawQuotes_shaded, rawQuotes_shaded, computeQuotes_mirror, shadeBid_mirror, shadeAsk_mirror, up, down]
  -- A long inventory becomes a short one, so the branches change places.
  rcases lt_trichotomy inventory 0 with short | flat | long
  · rw [if_pos (by linarith), if_neg (by linarith), if_pos short]
    ext
    · rfl
    · dsimp only
      omega
  · rw [if_neg (by linarith), if_neg (by linarith), if_neg (by linarith), if_neg (by linarith)]
  · rw [if_neg (by linarith), if_pos (by linarith), if_pos long]
    ext
    · dsimp only
      omega
    · rfl

end QuoterConfig

theorem passiveBid_mirror (desiredAsk marketBid : Int) :
    passiveBid (100 - desiredAsk) (complementPrice marketBid) =
      (passiveAsk desiredAsk marketBid).map complementPrice := by
  unfold passiveBid passiveAsk complementPrice kPriceBasis kBidMinCents kAskMaxCents
  dsimp only
  by_cases edge : 99 < marketBid + 1
  · rw [if_pos (by omega), if_pos edge]
    rfl
  · rw [if_neg (by omega), if_neg edge, Option.map_some, Option.some_inj]
    omega

theorem passiveAsk_mirror (desiredBid marketAsk : Int) :
    passiveAsk (100 - desiredBid) (complementPrice marketAsk) =
      (passiveBid desiredBid marketAsk).map complementPrice := by
  unfold passiveBid passiveAsk complementPrice kPriceBasis kBidMinCents kAskMaxCents
  dsimp only
  by_cases edge : marketAsk - 1 < 1
  · rw [if_pos (by omega), if_pos edge]
    rfl
  · rw [if_neg (by omega), if_neg edge, Option.map_some, Option.some_inj]
    omega

namespace Quoter

/-- Each side of the mirrored market must stop trading where the other side must here. -/
theorem suppressed_mirror (quoter : Quoter ℝ) (inventory : ℝ) (side : Side) :
    quoter.suppressed (-inventory) side = quoter.suppressed inventory side.opposite := by
  apply Bool.eq_iff_iff.mpr
  cases side with
  | yes =>
    simp only [suppressed, Side.opposite, Bool.or_eq_true, Bool.and_eq_true, decide_eq_true_eq]
    exact or_congr (and_congr_right fun _ => neg_nonneg) le_neg
  | no =>
    simp only [suppressed, Side.opposite, Bool.or_eq_true, Bool.and_eq_true, decide_eq_true_eq]
    exact or_congr (and_congr_right fun _ => neg_nonpos) neg_le_neg_iff

theorem desiredAt_mirror (quoter : Quoter ℝ) (fair : ℝ) {leaned : ℝ} (positive : 0 < leaned)
    (below : leaned < 100) (imbalanced : Bool) (inventory : ℝ) (marketBid marketAsk : Int) (side : Side) :
    quoter.desiredAt (100 - fair) (100 - leaned) imbalanced (-inventory) (complementPrice marketAsk)
      (complementPrice marketBid) side =
    (quoter.desiredAt fair leaned imbalanced inventory marketBid marketAsk side.opposite).map complementPrice := by
  unfold desiredAt
  rw [lmsrSkewedFairValue_mirror positive below, QuoterConfig.halfSpread_mirror, QuoterConfig.rawQuotes_mirror]
  cases side with
  | yes => exact passiveBid_mirror _ _
  | no => exact passiveAsk_mirror _ _

end Quoter

namespace Outlook

/-- What an update looks at on the mirrored market, after the mirrored history. -/
def mirror (outlook : Outlook ℝ) : Outlook ℝ :=
  { outlook with
    visible := outlook.visible.mirror
    ema := outlook.ema.map fun ema => 100 - ema
    vwap := outlook.vwap.map fun vwap => 100 - vwap
    flowGuard := outlook.flowGuard.map FlowImbalanceGuard.mirror
    inventory := -outlook.inventory }

variable {outlook : Outlook ℝ} {bid ask : Level}

theorem mirror_smoothedMicro (config : QuoterConfig ℝ) (bids : outlook.visible.bestBid = some bid)
    (asks : outlook.visible.bestAsk = some ask) :
    outlook.mirror.smoothedMicro config = 100 - outlook.smoothedMicro config := by
  have micro := LocalOrderbook.mirror_microPriceCents bids asks
  unfold smoothedMicro mirror
  dsimp only
  rw [micro]
  cases outlook.ema with
  | none => rfl
  | some ema =>
    rw [Option.map_some]
    dsimp only
    push_cast
    ring

theorem mirror_fairVal (quoter : Quoter ℝ) (bids : outlook.visible.bestBid = some bid)
    (asks : outlook.visible.bestAsk = some ask) : outlook.mirror.fairVal quoter = 100 - outlook.fairVal quoter := by
  have smoothed := mirror_smoothedMicro quoter.config bids asks
  unfold fairVal
  rw [smoothed]
  exact PricingModel.estimate_mirror quoter.model _ _

theorem mirror_imbalanced (outlook : Outlook ℝ) : outlook.mirror.imbalanced = outlook.imbalanced := by
  unfold imbalanced mirror
  cases outlook.flowGuard with
  | none => rfl
  | some guard => exact guard.mirror_isImbalanced _ _

theorem mirror_takerSide (threshold : ∀ guard ∈ outlook.flowGuard, 1 ≤ guard.config.imbalanceRatioThreshold) :
    outlook.mirror.takerSide = outlook.takerSide.map Side.opposite := by
  unfold takerSide
  rw [mirror_imbalanced]
  split
  · unfold mirror
    dsimp only
    cases guarded : outlook.flowGuard with
    | none => rfl
    | some guard => exact FlowImbalanceGuard.mirror_dominantTakerSide (threshold guard guarded) _ _
  · rfl

theorem mirror_leanedVal (quoter : Quoter ℝ) (bids : outlook.visible.bestBid = some bid)
    (asks : outlook.visible.bestAsk = some ask)
    (threshold : ∀ guard ∈ outlook.flowGuard, 1 ≤ guard.config.imbalanceRatioThreshold) :
    outlook.mirror.leanedVal quoter = 100 - outlook.leanedVal quoter := by
  unfold leanedVal
  rw [mirror_fairVal quoter bids asks, mirror_takerSide threshold, QuoterConfig.leanedVal_mirror]

end Outlook

/-- The mirrored market shows the mirrored best prices, gets the mirrored desired pair, and bars the
other side from trading. -/
theorem quotes_mirror (quoter : Quoter ℝ) {outlook : Outlook ℝ} {bid ask : Level}
    (bids : outlook.visible.bestBid = some bid) (asks : outlook.visible.bestAsk = some ask)
    (threshold : ∀ guard ∈ outlook.flowGuard, 1 ≤ guard.config.imbalanceRatioThreshold)
    (positive : 0 < outlook.leanedVal quoter) (below : outlook.leanedVal quoter < 100) :
    outlook.mirror.visible.bestBid = some ask.mirror ∧ outlook.mirror.visible.bestAsk = some bid.mirror ∧
      ∀ side,
        outlook.mirror.desired quoter ask.mirror.priceCents bid.mirror.priceCents side =
          (outlook.desired quoter bid.priceCents ask.priceCents side.opposite).map complementPrice ∧
        quoter.suppressed outlook.mirror.inventory side = quoter.suppressed outlook.inventory side.opposite := by
  refine ⟨LocalOrderbook.mirror_bestBid asks, LocalOrderbook.mirror_bestAsk bids, fun side => ⟨?_, ?_⟩⟩
  · unfold Outlook.desired
    rw [Outlook.mirror_fairVal quoter bids asks, Outlook.mirror_leanedVal quoter bids asks threshold,
      Outlook.mirror_imbalanced]
    exact Quoter.desiredAt_mirror quoter _ positive below _ _ _ _ side
  · exact Quoter.suppressed_mirror quoter outlook.inventory side

/-- A book of 30 bid at 45 and 10 offered at 55, a short position, and a flow guard without fills. -/
theorem quotes_mirror_short :
    let outlook : Outlook ℝ :=
      { ticker := "M", visible := ⟨{ ticker := "M", yes := [⟨45, ⟨3000⟩⟩], no := [⟨45, ⟨1000⟩⟩] }⟩
        ema := some 52, vwap := some 51, flowGuard := some {}, inventory := -7 }
    let quoter : Quoter ℝ := Quoter.make {} (.clearingPrice 1) {}
    outlook.mirror.visible.bestBid = some ⟨45, ⟨1000⟩⟩ ∧ outlook.mirror.visible.bestAsk = some ⟨55, ⟨3000⟩⟩ ∧
      ∀ side,
        outlook.mirror.desired quoter 45 55 side = (outlook.desired quoter 45 55 side.opposite).map complementPrice ∧
        quoter.suppressed outlook.mirror.inventory side = quoter.suppressed outlook.inventory side.opposite := by
  intro outlook quoter
  have range := quoter.model.estimate_range
    (PricingModel.marketInput (outlook.smoothedMicro quoter.config) outlook.vwap)
  have leaned : outlook.leanedVal quoter = quoter.model.estimate
    (PricingModel.marketInput (outlook.smoothedMicro quoter.config) outlook.vwap) := rfl
  refine @quotes_mirror quoter outlook ⟨45, ⟨3000⟩⟩ ⟨55, ⟨1000⟩⟩ rfl rfl ?_ ?_ ?_
  · rintro _ ⟨⟩
    norm_num
  · rw [leaned]
    linarith [range.1]
  · rw [leaned]
    linarith [range.2]

end Kalshi
