import KalshiMaker.Exchange.TickerScanner
import KalshiMaker.Lib.Ranking

/-! Probing the ranked candidates until enough are admitted, against admitting them all and ranking those. -/
namespace Kalshi
namespace TickerScanner

variable {F : Type} [Floating F] (config : ScannerConfig F) (probes : Probes F) (now : TimePoint)

/-- The filters on what is listed. -/
def Listed (market : Market F) : Prop :=
  market.status = "active" ∧ market.yesBidCents ≠ 0 ∧ market.yesAskCents ≠ 0 ∧
    (∀ key ∈ tickerEventDateKey market.ticker, utcDateKey now ≤ key) ∧
    config.minPriceCents ≤ (market.yesBidCents + market.yesAskCents).tdiv 2 ∧
    (market.yesBidCents + market.yesAskCents).tdiv 2 ≤ config.maxPriceCents ∧
    config.minSpreadCents ≤ market.yesAskCents - market.yesBidCents ∧
    market.yesAskCents - market.yesBidCents ≤ config.maxSpreadCents ∧
    ¬ market.volume24h < config.minVolume24h ∧
    ¬ daysToClose market now < config.minDaysToClose ∧ ¬ config.maxDaysToClose < daysToClose market now

instance (market : Market F) : Decidable (Listed config now market) := by
  unfold Listed
  infer_instance

/-- Every check that is enabled passes. -/
def Admissible (candidate : MarketScore F) : Prop :=
  (checkTrades config = true → passesFlowAdmission config probes candidate.ticker now = true) ∧
    (checkBook config = true → passesBookAdmission config probes candidate.ticker = true) ∧
    (checkReversion config = true → passesReversionAdmission config probes candidate.ticker now = true)

instance (candidate : MarketScore F) : Decidable (Admissible config probes now candidate) := by
  unfold Admissible
  infer_instance

theorem candidateOf_ticker (market : Market F) :
    (candidateOf config now market).map MarketScore.ticker =
      if Listed config now market then some market.ticker else none := by
  by_cases listed : Listed config now market
  · rw [if_pos listed]
    obtain ⟨active, bid, ask, dated, low, high, wide, narrow, traded, late, soon⟩ := listed
    have current : (tickerEventDateKey market.ticker).any (fun key => decide (key < utcDateKey now)) = false := by
      cases token : tickerEventDateKey market.ticker with
      | none => rfl
      | some key =>
        have := dated key (by simp [token])
        simpa using this
    unfold candidateOf
    dsimp only
    rw [if_neg (not_not_intro active), if_neg (not_or.mpr ⟨bid, ask⟩), current, if_neg (by simp),
      if_neg (by omega), if_neg (by omega), if_neg traded, if_neg (not_or.mpr ⟨late, soon⟩)]
    rfl
  · rw [if_neg listed]
    unfold candidateOf
    dsimp only
    split_ifs with active quoted dated inside wide traded close <;> try rfl
    -- no filter has dropped the market
    refine absurd ⟨not_not.mp active, fun zero => quoted (.inl zero), fun zero =>
      quoted (.inr zero), ?_, by omega, by omega,
      by omega, by omega, traded, fun soon => close (.inl soon), fun late => close (.inr late)⟩ listed
    intro key named
    by_contra earlier
    exact dated (by rw [Option.mem_def.mp named]; simpa using earlier)

theorem joinIncentives_ticker (candidates : List (MarketScore F)) (programs : List IncentiveProgram) :
    (joinIncentives candidates programs).1.map MarketScore.ticker = candidates.map MarketScore.ticker := by
  unfold joinIncentives
  rw [List.map_map]
  apply List.map_congr_left
  intro candidate _
  cases h : (rewardOf programs candidate.ticker : Option F) <;> simp [h]

/-- A score for each market that passes the filters, in the order of the listing. -/
theorem scored_ticker :
    (scored config probes now).map MarketScore.ticker =
      ((fetchMarkets probes config.eventSeries).filter (Listed config now ·)).map Market.ticker := by
  unfold scored
  dsimp only
  rw [List.map_map]
  calc _ = (joinIncentives ((fetchMarkets probes config.eventSeries).filterMap (candidateOf config now))
            probes.incentivePrograms).1.map MarketScore.ticker := rfl
    _ = ((fetchMarkets probes config.eventSeries).filterMap (candidateOf config now)).map MarketScore.ticker :=
        joinIncentives_ticker _ _
    _ = _ := by
        rw [List.map_filterMap, ← List.filterMap_eq_map, List.filterMap_filter]
        simp only [candidateOf_ticker, Function.comp, decide_eq_true_eq]

theorem admitting_eq (topN : Int) (candidates : List (MarketScore F)) (admitted : Nat) :
    admitting config probes topN now candidates admitted =
      (candidates.filter (Admissible config probes now ·)).take (topN - admitted).toNat := by
  induction candidates generalizing admitted with
  | nil => simp [admitting]
  | cons candidate candidates ih =>
    unfold admitting
    by_cases full : topN ≤ admitted
    · rw [if_pos full, Int.toNat_eq_zero.mpr (by omega), List.take_zero]
    · rw [if_neg full]
      by_cases admissible : Admissible config probes now candidate
      · rw [List.filter_cons_of_pos (by simpa using admissible),
          show (topN - admitted).toNat = (topN - ((admitted + 1 : Nat) : Int)).toNat + 1 by omega,
          List.take_succ_cons, ← ih]
        obtain ⟨trades, book, reversion⟩ := admissible
        cases tradesOn : checkTrades config <;> cases bookOn : checkBook config <;>
          cases reversionOn : checkReversion config <;> simp_all
      · rw [List.filter_cons_of_neg (by simpa using admissible)]
        unfold Admissible at admissible
        simp only [ih]
        split_ifs with trades book reversion <;> try rfl
        exact absurd ⟨by simpa using trades, by simpa using book, by simpa using reversion⟩ admissible

theorem admissible_of_unchecked (trades : checkTrades config = false) (book : checkBook config = false)
    (reversion : checkReversion config = false) (candidate : MarketScore F) :
    Admissible config probes now candidate := by
  simp [Admissible, trades, book, reversion]

theorem admitFinalists_take (topN : Int) (candidates : List (MarketScore F)) :
    (admitFinalists config probes candidates topN now).take topN.toNat =
      (candidates.filter (Admissible config probes now ·)).take topN.toNat := by
  unfold admitFinalists
  split
  next off =>
    simp only [Bool.and_eq_true, Bool.not_eq_true'] at off
    rw [List.filter_eq_self.mpr]
    intro candidate _
    simpa using admissible_of_unchecked config probes now off.1.1 off.1.2 off.2 candidate
  next => rw [admitting_eq, Int.natCast_zero, Int.sub_zero, List.take_take, Nat.min_self]

theorem scan_eq (topN : Int) :
    scan config probes topN now =
      (((scored config probes now).insertionSort byScoreDescending).filter (Admissible config probes now ·)).take
        topN.toNat := by
  rw [← admitFinalists_take]
  unfold scan
  dsimp only
  split
  next => rfl
  next short => rw [List.take_of_length_le (by omega)]

/-- Where the scores differ, the scan returns the best of the listed markets that every enabled check admits. -/
theorem lazy_scan_ranks_admitted [IsStrictOrder F (· < ·)] (topN : Nat)
    (distinct : Ranking.Distinct MarketScore.score (scored config probes now)) :
    (scored config probes now).map MarketScore.ticker =
        ((fetchMarkets probes config.eventSeries).filter (Listed config now ·)).map Market.ticker ∧
      ∃ ranked, ranked.Perm ((scored config probes now).filter (Admissible config probes now ·)) ∧
        Ranking.Descending MarketScore.score ranked ∧ scan config probes topN now = ranked.take topN ∧
        ∀ kept ∈ scan config probes topN now, ∀ left ∈ scored config probes now, Admissible config probes now left →
          left ∉ scan config probes topN now → left.score < kept.score := by
  have ranked : Ranking.Descending MarketScore.score ((scored config probes now).insertionSort byScoreDescending) :=
    distinct.insertionSort fun _ _ => Iff.rfl
  have descending := ranked.filter (Admissible config probes now ·)
  refine ⟨scored_ticker config probes now, _, (List.perm_insertionSort _ _).filter _, descending,
    scan_eq config probes now topN,
    ?_⟩
  rw [scan_eq]
  intro kept within left member admissible outside
  have among : left ∈ ((scored config probes now).insertionSort byScoreDescending).filter
    (Admissible config probes now ·) :=
    List.mem_filter.mpr ⟨(List.mem_insertionSort _).mpr member, by simpa using admissible⟩
  exact descending.unbeaten within among outside

/-- Of three markets the first in rank has no prints, and the second takes the one place. -/
theorem lazy_scan_ranks_admitted_three :
    let config : ScannerConfig ℚ := { minVolume24h := 0 }
    let market : String → Int → Market ℚ := fun ticker ask =>
      { ticker := ticker, title := "", category := "", status := "active", yesBidCents := 50, yesAskCents := ask,
        volume24h := 1, closeTime := 10 * kSecondsPerDay * nanosPerSecond }
    let probes : Probes ℚ :=
      { markets := fun _ => [market "A" 57, market "B" 54, market "C" 55]
        incentivePrograms := []
        recentTrades := fun ticker _ => if ticker = "A" then some [] else none
        candlesticks := fun _ _ _ => none
        orderbook := fun _ => none }
    (scan config probes 1 0).map MarketScore.ticker = ["C"] ∧
      ∃ ranked : List (MarketScore ℚ), (ranked.map MarketScore.ticker).Perm ["B", "C"] ∧
        scan config probes 1 0 = ranked.take 1 := by
  intro config market probes
  have distinct : Ranking.Distinct MarketScore.score (scored config probes 0) := by
    unfold Ranking.Distinct
    decide +kernel
  obtain ⟨_, ranked, permuted, _, scanned, _⟩ := lazy_scan_ranks_admitted config probes 0 1 distinct
  constructor
  · decide +kernel
  · refine ⟨ranked, (permuted.map _).trans ?_, scanned⟩
    decide +kernel

end TickerScanner
end Kalshi
