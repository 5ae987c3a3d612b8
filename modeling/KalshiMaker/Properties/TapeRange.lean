import KalshiMaker.Exchange.TickerScanner
import KalshiMaker.Lib.LowerBound

/-! What the tape-range check sees of the lookback window, and what it makes of it. -/
namespace Kalshi
namespace TickerScanner

variable {F : Type} [Floating F] (config : ScannerConfig F)

def NewestFirst (tape : List PublicTrade) : Prop :=
  tape.Pairwise fun newer older => older.timestamp ≤ newer.timestamp

/-- The prints of a tape that are not older than the lookback. -/
def lookbackWindow (tape : List PublicTrade) (now : TimePoint) : List PublicTrade :=
  tape.filter fun trade => decide (now - minutes config.tapeRangeLookbackMinutes ≤ trade.timestamp)

/-- Two prints or more, some two of them at least so many cents apart. -/
def Spans (cents : Int) (prints : List PublicTrade) : Prop :=
  2 ≤ prints.length ∧ ∃ dear ∈ prints, ∃ cheap ∈ prints, cents ≤ dear.yesPriceCents - cheap.yesPriceCents

/-- As above, with 0 among the dear prices and one cent over the highest among the cheap ones. -/
def SpansWithin (cents : Int) (prints : List PublicTrade) : Prop :=
  2 ≤ prints.length ∧ ∃ dear ∈ 0 :: prints.map PublicTrade.yesPriceCents,
    ∃ cheap ∈ (kMaxPriceCents + 1) :: prints.map PublicTrade.yesPriceCents, cents ≤ dear - cheap

/-- What the other checks of the tape say, in the order of the code. -/
def passesOtherTapeChecks (trades : List PublicTrade) (now : TimePoint) : Bool :=
  match trades with
  | [] => false
  | newest :: _ =>
    !isStale config newest now && !tooFewPerHour config trades now &&
      (!decide (0 < config.minMinorityFlowRatio) || tapeIsTwoSided config trades (now - minutes 60))

theorem Spans.within {cents : Int} {prints : List PublicTrade} (spans : Spans cents prints) :
    SpansWithin cents prints := by
  obtain ⟨enough, dear, member, cheap, member', apart⟩ := spans
  exact ⟨enough, _, List.mem_cons_of_mem _ (List.mem_map_of_mem member), _,
    List.mem_cons_of_mem _ (List.mem_map_of_mem member'),
    apart⟩

/-- Between the two bounds, nothing is added. -/
theorem spansWithin_iff {cents : Int} (present : 0 < cents) {prints : List PublicTrade}
    (priced : ∀ print ∈ prints, 0 ≤ print.yesPriceCents ∧ print.yesPriceCents ≤ kMaxPriceCents + 1) :
    SpansWithin cents prints ↔ Spans cents prints := by
  constructor
  · rintro ⟨enough, dear, high, cheap, low, apart⟩
    rcases List.mem_cons.mp high with rfl | high
    · have least : 0 ≤ cheap := by
        rcases List.mem_cons.mp low with rfl | low
        · decide
        · obtain ⟨print, member, rfl⟩ := List.mem_map.mp low
          exact (priced print member).1
      omega
    obtain ⟨print, member, rfl⟩ := List.mem_map.mp high
    rcases List.mem_cons.mp low with rfl | low
    · have := (priced print member).2
      omega
    obtain ⟨other, member', rfl⟩ := List.mem_map.mp low
    exact ⟨enough, print, member, other, member', apart⟩
  · exact Spans.within

theorem foldl_max_reaches (start cents bound : Int) (prices : List Int) :
    cents ≤ prices.foldl max start - bound ↔ ∃ dear ∈ start :: prices, cents ≤ dear - bound := by
  have present : (start :: prices).max? = some (prices.foldl max start) := List.max?_cons'
  have greatest := List.max?_eq_some_iff.mp present
  constructor
  · intro reached
    exact ⟨_, greatest.1, reached⟩
  · rintro ⟨dear, member, apart⟩
    have := greatest.2 dear member
    omega

theorem foldl_min_reaches (start cents bound : Int) (prices : List Int) :
    cents ≤ bound - prices.foldl min start ↔ ∃ cheap ∈ start :: prices, cents ≤ bound - cheap := by
  have present : (start :: prices).min? = some (prices.foldl min start) := List.min?_cons'
  have least := List.min?_eq_some_iff.mp present
  constructor
  · intro reached
    exact ⟨_, least.1, reached⟩
  · rintro ⟨cheap, member, apart⟩
    have := least.2 cheap member
    omega

theorem tapeShowsPriceDiscovery_iff (trades : List PublicTrade) (cutoff : TimePoint) :
    tapeShowsPriceDiscovery config trades cutoff = true ↔
      SpansWithin config.minTradePriceRangeCents (printsSince trades cutoff) := by
  unfold tapeShowsPriceDiscovery SpansWithin
  dsimp only
  simp only [← foldl_min_reaches, ← foldl_max_reaches, List.foldl_map]
  split_ifs with few pinned
  · simp
    omega
  · simp
    omega
  · simp
    omega

theorem passesTapeRange_iff (trades : List PublicTrade) (now : TimePoint) :
    passesTapeRange config trades now = true ↔ config.minTradePriceRangeCents ≤ 0 ∨
      SpansWithin config.minTradePriceRangeCents
        (printsSince trades (now - minutes config.tapeRangeLookbackMinutes)) := by
  unfold passesTapeRange
  rw [Bool.or_eq_true, tapeShowsPriceDiscovery_iff]
  simp

/-- The newest prints of a tape, down to the lookback, are the newest of its window. -/
theorem printsSince_take {tape : List PublicTrade} (newest : NewestFirst tape) (now : TimePoint) (n : Nat) :
    printsSince (tape.take n) (now - minutes config.tapeRangeLookbackMinutes) =
      (lookbackWindow config tape now).take n := by
  have parted : LowerBound.Partitioned
      (fun trade : PublicTrade => !decide (trade.timestamp < now - minutes config.tapeRangeLookbackMinutes)) tape := by
    apply newest.imp
    intro newer older order recent
    simp only [Bool.not_eq_true', decide_eq_false_iff_not, not_lt] at recent ⊢
    exact recent.trans order
  unfold printsSince lookbackWindow
  rw [← List.take_takeWhile, parted.takeWhile_eq_filter]
  congr 2
  funext trade
  simp [← decide_not]

theorem passesFlowAdmission_eq {probes : Probes F} {ticker : Ticker} {trades : List PublicTrade}
    (answered : probes.recentTrades ticker (probeLimit config) = some trades) (now : TimePoint)
    (present : trades ≠ []) :
    passesFlowAdmission config probes ticker now =
      (passesTapeRange config trades now && passesOtherTapeChecks config trades now) := by
  unfold passesFlowAdmission passesOtherTapeChecks
  rw [answered]
  cases trades with
  | nil => exact absurd rfl present
  | cons newest older =>
    dsimp only
    cases isStale config newest now <;> cases tooFewPerHour config (newest :: older) now <;>
      cases passesTapeRange config (newest :: older) now <;> simp

/-- Where the exchange hands out its newest prints, the check passes a market whose window qualifies
exactly when the newest prints of the window alone do. -/
theorem tape_range_sees_lookback_iff {probes : Probes F} {ticker : Ticker} {tape : List PublicTrade} (now : TimePoint)
    (newest : NewestFirst tape)
    (answered : probes.recentTrades ticker (probeLimit config) = some (tape.take (probeLimit config).toNat)) :
    (tape ≠ [] → passesFlowAdmission config probes ticker now =
        (passesTapeRange config (tape.take (probeLimit config).toNat) now &&
          passesOtherTapeChecks config (tape.take (probeLimit config).toNat) now)) ∧
      ((Spans config.minTradePriceRangeCents (lookbackWindow config tape now) →
          passesTapeRange config (tape.take (probeLimit config).toNat) now = true) ↔
        config.minTradePriceRangeCents ≤ 0 ∨ ¬ Spans config.minTradePriceRangeCents (lookbackWindow config tape now) ∨
          SpansWithin config.minTradePriceRangeCents
            ((lookbackWindow config tape now).take (probeLimit config).toNat)) ∧
      (0 < config.minTradePriceRangeCents →
        (∀ print ∈ tape, 0 ≤ print.yesPriceCents ∧ print.yesPriceCents ≤ kMaxPriceCents + 1) →
        (SpansWithin config.minTradePriceRangeCents ((lookbackWindow config tape now).take (probeLimit config).toNat) ↔
          Spans config.minTradePriceRangeCents
            ((lookbackWindow config tape now).take (probeLimit config).toNat))) := by
  refine ⟨fun present => ?_, ?_, fun enabled priced => ?_⟩
  · apply passesFlowAdmission_eq config answered
    have positive : 1 ≤ probeLimit config := le_max_right _ _
    simp only [ne_eq, List.take_eq_nil_iff, not_or]
    exact ⟨by omega, present⟩
  · rw [passesTapeRange_iff, printsSince_take config newest]
    tauto
  · apply spansWithin_iff enabled
    intro print member
    exact priced print (List.mem_of_mem_filter (List.mem_of_mem_take member))

/-- Two prints of the window, five cents apart, are within the probe of eight. -/
theorem tape_range_sees_lookback_two :
    let config : ScannerConfig ℚ := {}
    let print : Int → Int → PublicTrade := fun price age => ⟨"t", "M", price, ⟨100⟩, .yes, -minutes age⟩
    passesTapeRange config (([print 50 1, print 45 170]).take (probeLimit config).toNat) 0 = true := by
  intro config print
  let tape := [print 50 1, print 45 170]
  let probes : Probes ℚ :=
    { markets := fun _ => []
      incentivePrograms := []
      recentTrades := fun _ limit => some (tape.take limit.toNat)
      candlesticks := fun _ _ _ => none
      orderbook := fun _ => none }
  have newest : NewestFirst tape := by
    unfold NewestFirst
    decide
  have window : lookbackWindow config tape 0 = tape := by decide
  have probed : tape.take (probeLimit config).toNat = tape := by decide +kernel
  -- fifty down to forty-five is at least the range asked for
  have spans : Spans config.minTradePriceRangeCents tape :=
    ⟨by decide, print 50 1, by decide, print 45 170, by decide, by decide⟩
  have answered : probes.recentTrades "M" (probeLimit config) = some (tape.take (probeLimit config).toNat) := rfl
  have sees := (tape_range_sees_lookback_iff config 0 newest answered).2.1
  rw [window, probed] at sees
  have passes := sees.mpr (.inr (.inr spans.within)) spans
  rw [← probed] at passes
  exact passes

/-- Nine prints of the last minutes, the oldest five cents below the others: the probe of eight sees one price. -/
theorem tape_range_misses_ninth :
    let config : ScannerConfig ℚ := {}
    let print : Int → Int → PublicTrade := fun price age => ⟨"t", "M", price, ⟨100⟩, .yes, -minutes age⟩
    let tape := [print 50 1, print 50 2, print 50 3, print 50 4, print 50 5, print 50 6, print 50 7,
      print 50 8, print 45 9]
    let probes : Probes ℚ :=
      { markets := fun _ => []
        incentivePrograms := []
        recentTrades := fun _ limit => some (tape.take limit.toNat)
        candlesticks := fun _ _ _ => none
        orderbook := fun _ => none }
    NewestFirst tape ∧ Spans config.minTradePriceRangeCents (lookbackWindow config tape 0) ∧
      passesTapeRange config (tape.take (probeLimit config).toNat) 0 = false ∧
      passesOtherTapeChecks config (tape.take (probeLimit config).toNat) 0 = true ∧
      passesFlowAdmission config probes "M" 0 = false := by
  intro config print tape probes
  refine ⟨?_, ?_, by decide +kernel, by decide +kernel, by decide +kernel⟩
  · unfold NewestFirst
    decide
  · exact ⟨by decide, print 50 1, by decide, print 45 9, by decide, by decide⟩

end TickerScanner
end Kalshi
