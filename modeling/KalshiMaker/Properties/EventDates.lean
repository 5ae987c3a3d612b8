import KalshiMaker.Exchange.ScanOutput
import KalshiMaker.Lib.Calendar
import KalshiMaker.Properties.LazyScan

/-!
# Dates

Days are counted from 1970 and back on the Gregorian calendar. A timestamp that the scanner writes is read back as
the second it was taken at, and a market whose ticker names a day is listed until that day is over.
-/
namespace Kalshi

open Calendar

/-- The first of January 1970, counted from the first of March of the year 0. -/
def epochDay : Int := 719468

theorem daysFromCivil_eq (year month day : Int) :
    daysFromCivil year month day = dayNumber year month day - epochDay := by
  have months : (if month ≤ 2 then month + 9 else month - 3) = marchMonth month := rfl
  have years : (if month ≤ 2 then year - 1 else year) = marchYear year month := rfl
  unfold daysFromCivil dayNumber yearStart daysBefore epochDay
  simp only [months, years, Int.fdiv_eq_ediv_of_nonneg _ (show (0 : Int) ≤ 400 by decide)]
  omega

theorem civilFromDays_eq (days : Int) : civilFromDays days = dateOf (days + epochDay) := by
  unfold civilFromDays dateOf yearOf yearStart daysBefore calendarMonth
  simp only [Int.fdiv_eq_ediv_of_nonneg _ (show (0 : Int) ≤ 146097 by decide)]
  rfl

theorem isDate_civilFromDays (days : Int) :
    IsDate (civilFromDays days).1 (civilFromDays days).2.1 (civilFromDays days).2.2 := by
  rw [civilFromDays_eq]
  exact (dateOf_spec _).1

theorem daysFromCivil_civilFromDays (days : Int) :
    daysFromCivil (civilFromDays days).1 (civilFromDays days).2.1 (civilFromDays days).2.2 = days := by
  rw [daysFromCivil_eq, civilFromDays_eq, (dateOf_spec _).2]
  omega

/-- A date is the one of the day that it numbers. -/
theorem civilFromDays_daysFromCivil {year month day : Int} (date : IsDate year month day) :
    civilFromDays (daysFromCivil year month day) = (year, month, day) := by
  rw [civilFromDays_eq, daysFromCivil_eq, Int.sub_add_cancel, dateOf_dayNumber date]

theorem daysFromCivil_lt_iff {year month day year' month' day' : Int} (date : IsDate year month day)
    (date' : IsDate year' month' day') :
    daysFromCivil year month day < daysFromCivil year' month' day' ↔
      Before (year, month, day) (year', month', day') := by
  rw [daysFromCivil_eq, daysFromCivil_eq, ← dayNumber_lt_iff date date']
  omega

/-! ### Digits -/

theorem isDigit_digitChar {d : Nat} (small : d < 10) : (Nat.digitChar d).isDigit = true := by
  interval_cases d <;> rfl

theorem toNat_digitChar {d : Nat} (small : d < 10) : (Nat.digitChar d).toNat - '0'.toNat = d := by
  interval_cases d <;> rfl

theorem digitOf_digitChar {d : Nat} (small : d < 10) : digitOf (Nat.digitChar d) = d := by
  interval_cases d <;> rfl

theorem toList_twoDigits (n : Nat) : (twoDigits n).toList = [Nat.digitChar (n / 10), Nat.digitChar (n % 10)] := by
  simp [twoDigits]

/-- One digit more, where the number stays in range. -/
theorem readDigits_digit {high count value d : Nat} (small : d < 10) (room : value * 10 ≤ high) (rest : List Char) :
    readDigits high (count + 1) value (Nat.digitChar d :: rest) = readDigits high count (value * 10 + d) rest := by
  rw [readDigits, if_pos ⟨isDigit_digitChar small, room⟩, toNat_digitChar small]

theorem readDigits_done (high value : Nat) (rest : List Char) : readDigits high 0 value rest = (value, rest) := by
  cases rest <;> rfl

theorem readNumber_digit {low high count d : Nat} (small : d < 10) (rest : List Char) :
    readNumber low high count (Nat.digitChar d :: rest) =
      let read := readDigits high (count - 1) d rest
      if low ≤ read.1 ∧ read.1 ≤ high then some read else none := by
  have solid : (Nat.digitChar d == ' ') = false := by
    interval_cases d <;> rfl
  unfold readNumber
  rw [List.dropWhile_cons, solid]
  simp only [Bool.false_eq_true, if_false, isDigit_digitChar small, if_true, toNat_digitChar small]

theorem readNumber_twoDigits {low high n : Nat} (least : low ≤ n) (most : n ≤ high) (short : n < 100)
    (rest : List Char) :
    readNumber low high 2 ((twoDigits n).toList ++ rest) = some (n, rest) := by
  rw [toList_twoDigits, List.cons_append, readNumber_digit (by omega), List.cons_append, List.nil_append,
    readDigits_digit (by omega) (by omega), readDigits_done]
  have number : n / 10 * 10 + n % 10 = n := by omega
  simp only [number]
  rw [if_pos ⟨least, most⟩]

theorem toList_year {year : Int} (first : 1000 ≤ year) (last : year ≤ 9999) :
    (toString year).toList = [Nat.digitChar (year.toNat / 1000), Nat.digitChar (year.toNat / 100 % 10),
      Nat.digitChar (year.toNat / 10 % 10), Nat.digitChar (year.toNat % 10)] := by
  obtain ⟨n, rfl⟩ := Int.eq_ofNat_of_zero_le (show 0 ≤ year by omega)
  have digits : (toString ((n : Int))).toList = Nat.toDigits 10 n := by
    change (Nat.repr n).toList = _
    simp
  rw [digits, Int.toNat_natCast]
  have split (m : Nat) (many : 10 ≤ m) : Nat.toDigits 10 m = Nat.toDigits 10 (m / 10) ++ [Nat.digitChar (m % 10)] :=
    Nat.toDigits_of_base_le (by decide) many
  rw [split n (by omega), split (n / 10) (by omega), split (n / 10 / 10) (by omega),
    Nat.toDigits_of_lt_base (by omega)]
  simp only [Nat.div_div_eq_div_mul]
  rfl

theorem readNumber_year {year : Int} (first : 1000 ≤ year) (last : year ≤ 9999) (rest : List Char) :
    readNumber 0 9999 4 ((toString year).toList ++ rest) = some (year.toNat, rest) := by
  rw [toList_year first last]
  simp only [List.cons_append, List.nil_append]
  rw [readNumber_digit (by omega), readDigits_digit (by omega) (by omega), readDigits_digit (by omega) (by omega),
    readDigits_digit (by omega) (by omega), readDigits_done]
  have number : ((year.toNat / 1000 * 10 + year.toNat / 100 % 10) * 10 + year.toNat / 10 % 10) * 10 + year.toNat % 10 =
      year.toNat := by omega
  simp only [number]
  rw [if_pos ⟨by omega, by omega⟩]

/-! ### Timestamps -/

/-- A written timestamp is read field by field; what follows its seconds is ignored. -/
theorem parseIso8601_fields {text : String} {year : Int} {month day : Nat} (hour minute second : Nat)
    (rest : List Char)
    (date : IsDate year month day) (first : 1000 ≤ year) (last : year ≤ 9999) (hours : hour < 24)
    (minutes : minute < 60)
    (seconds : second < 60)
    (fields : text.toList = (toString year).toList ++
      '-' :: ((twoDigits month).toList ++ '-' :: ((twoDigits day).toList ++
      'T' :: ((twoDigits hour).toList ++ ':' :: ((twoDigits minute).toList ++ ':' ::
        ((twoDigits second).toList ++ rest)))))) :
    parseIso8601 text =
      .ok ((((daysFromCivil year month day * 24 + hour) * 60 + minute) * 60 + second) * nanosPerSecond) := by
  have january : 1 ≤ month := by exact_mod_cast date.januaryOn
  have december : month ≤ 12 := by exact_mod_cast date.toDecember
  have firstOn : 1 ≤ day := by exact_mod_cast date.firstOn
  have toLast : day ≤ 31 := by exact_mod_cast date.toLast.trans (monthLength_le year month)
  have months (rest : List Char) : readNumber 1 12 2 ((twoDigits month).toList ++ rest) = some (month, rest) :=
    readNumber_twoDigits january december (by omega) rest
  have days (rest : List Char) : readNumber 1 31 2 ((twoDigits day).toList ++ rest) = some (day, rest) :=
    readNumber_twoDigits firstOn toLast (by omega) rest
  have clock {high n : Nat} (most : n ≤ high) (short : n < 60) (rest : List Char) :
      readNumber 0 high 2 ((twoDigits n).toList ++ rest) = some (n, rest) :=
    readNumber_twoDigits (Nat.zero_le n) most (by omega) rest
  unfold parseIso8601
  simp only [fields, readNumber_year first last, months, days, clock (show hour ≤ 23 by omega) (by omega),
    clock (show minute ≤ 59 by omega) minutes, clock (show second ≤ 61 by omega) seconds, readMark, if_true,
    Option.bind_eq_bind, Option.bind_some, Option.pure_def, orThrow, Int.toNat_of_nonneg (show 0 ≤ year by omega)]

/-- A time that `system_clock` can hold, in 64 bits of nanoseconds. -/
def Representable (timePoint : Int) : Prop := -2 ^ 63 ≤ timePoint ∧ timePoint < 2 ^ 63

/-- Every day of such a time is in a year of four digits. -/
theorem civil_year {days : Int} (first : -106752 ≤ days) (last : days ≤ 106751) :
    1000 ≤ (civilFromDays days).1 ∧ (civilFromDays days).1 ≤ 9999 := by
  have date := isDate_civilFromDays days
  have number := daysFromCivil_civilFromDays days
  have early : daysFromCivil 1000 1 1 = -354285 := by decide
  have late : daysFromCivil 9999 12 31 = 2932896 := by decide
  constructor
  · by_contra before
    have earlier := (daysFromCivil_lt_iff date (show IsDate 1000 1 1 by decide)).mpr (.inl (not_le.mp before))
    omega
  · by_contra after
    have later := (daysFromCivil_lt_iff (show IsDate 9999 12 31 by decide) date).mpr (.inl (not_le.mp after))
    omega

/-- A timestamp that the scanner writes is read back as the whole second it was taken in, toward 1970. -/
theorem parseIso8601_toIso8601 (timePoint : TimePoint) (held : Representable timePoint) :
    parseIso8601 (toIso8601 timePoint) = .ok (timePoint.tdiv nanosPerSecond * nanosPerSecond) := by
  obtain ⟨least, most⟩ := held
  have whole : timePoint.tdiv nanosPerSecond = _ := Int.tdiv_eq_ediv
  have time_range : -9223372037 ≤ timePoint.tdiv nanosPerSecond ∧ timePoint.tdiv nanosPerSecond ≤ 9223372037 := by
    have sign : Int.sign 1000000000 = 1 := rfl
    rw [whole]
    unfold nanosPerSecond
    split <;> omega
  unfold toIso8601
  generalize timePoint.tdiv nanosPerSecond = time at *
  have days_eq : time.fdiv kSecondsPerDay = time / 86400 := Int.fdiv_eq_ediv_of_nonneg _ (by decide)
  have date := isDate_civilFromDays (time / 86400)
  have number := daysFromCivil_civilFromDays (time / 86400)
  obtain ⟨first, last⟩ := civil_year (show -106752 ≤ time / 86400 by omega) (by omega)
  simp only [days_eq]
  generalize civilFromDays (time / 86400) = civil at *
  obtain ⟨year, month, day⟩ := civil
  have second_lt : (time - time / 86400 * kSecondsPerDay).toNat < 86400 := by
    unfold kSecondsPerDay
    omega
  have second_eq : ((time - time / 86400 * kSecondsPerDay).toNat : Int) = time - time / 86400 * 86400 := by
    unfold kSecondsPerDay
    omega
  generalize (time - time / 86400 * kSecondsPerDay).toNat = second at *
  obtain ⟨month, rfl⟩ := Int.eq_ofNat_of_zero_le (show 0 ≤ month from le_trans (by decide) date.januaryOn)
  obtain ⟨day, rfl⟩ := Int.eq_ofNat_of_zero_le (show 0 ≤ day from le_trans (by decide) date.firstOn)
  rw [parseIso8601_fields (second / 3600) (second / 60 % 60) (second % 60) ['Z'] date first last (by omega)
    (by omega) (by omega) (by simp)]
  simp only at number
  rw [number]
  refine congrArg Except.ok (congrArg (· * nanosPerSecond) ?_)
  push_cast
  omega

/-- The last nanosecond of the leap day of 2024, read back to its second. -/
theorem parseIso8601_toIso8601_leapDay :
    toIso8601 1709251199999999999 = "2024-02-29T23:59:59Z" ∧
      parseIso8601 (toIso8601 1709251199999999999) = .ok 1709251199000000000 :=
  ⟨by decide +kernel, parseIso8601_toIso8601 1709251199999999999 ⟨by decide, by decide⟩⟩

/-! ### Event days -/

/-- A ticker of a series that names the event's day, in the years 2000 to 2099. -/
def eventTicker (series : String) (yearOfCentury month day : Nat) (rest : String) : Ticker :=
  series ++ "-" ++ twoDigits yearOfCentury ++ kTickerMonthTokens.getD (month - 1) "" ++ twoDigits day ++ rest

/-- The months' tokens are three letters each, and no two are alike. -/
theorem monthToken_found {month : Nat} (first : 1 ≤ month) (last : month ≤ 12) :
    ∃ m₀ m₁ m₂, (kTickerMonthTokens.getD (month - 1) "").toList = [m₀, m₁, m₂] ∧
      kTickerMonthTokens.findIdx? (fun token => token == String.ofList [m₀, m₁, m₂]) = some (month - 1) := by
  interval_cases month <;> exact ⟨_, _, _, rfl, by decide +kernel⟩

theorem toList_dropWhile {series : String} (plain : '-' ∉ series.toList) (rest : List Char) :
    (series.toList ++ rest).dropWhile (fun c => c != '-') = rest.dropWhile (fun c => c != '-') := by
  apply List.dropWhile_append_of_pos
  intro c member
  simp only [bne_iff_ne]
  rintro rfl
  exact plain member

theorem tickerEventDateKey_event {series : String} (plain : '-' ∉ series.toList) {yearOfCentury month day : Nat}
    (rest : String) (century : yearOfCentury < 100) (date : IsDate (2000 + yearOfCentury) month day) :
    tickerEventDateKey (eventTicker series yearOfCentury month day rest) =
      some ((2000 + (yearOfCentury : Int)) * 10000 + month * 100 + day) := by
  have january : 1 ≤ month := by exact_mod_cast date.januaryOn
  have december : month ≤ 12 := by exact_mod_cast date.toDecember
  have firstOn : 1 ≤ day := by exact_mod_cast date.firstOn
  have toLast : day ≤ 31 := by exact_mod_cast date.toLast.trans (monthLength_le _ month)
  obtain ⟨m₀, m₁, m₂, letters, found⟩ := monthToken_found january december
  have token : (eventTicker series yearOfCentury month day rest).toList.dropWhile (fun c => c != '-') =
      '-' :: Nat.digitChar (yearOfCentury / 10) :: Nat.digitChar (yearOfCentury % 10) :: m₀ :: m₁ :: m₂ ::
        Nat.digitChar (day / 10) :: Nat.digitChar (day % 10) :: rest.toList := by
    unfold eventTicker
    simp only [String.toList_append, toList_twoDigits, letters, List.append_assoc]
    rw [toList_dropWhile plain]
    rfl
  unfold tickerEventDateKey
  rw [token]
  have tens : day / 10 < 10 := by omega
  have decade : yearOfCentury / 10 < 10 := by omega
  have ones (n : Nat) : n % 10 < 10 := Nat.mod_lt n (by decide)
  simp only [isDigit_digitChar, digitOf_digitChar, tens, decade, ones, Bool.and_self, if_true, found]
  rw [if_neg (by omega)]
  refine congrArg some ?_
  omega

/-- Where the key is that of a date, keys are ordered as the dates are. -/
theorem dateKey_lt_iff {year month day year' month' day' : Int} (date : IsDate year month day)
    (date' : IsDate year' month' day') :
    year * 10000 + month * 100 + day < year' * 10000 + month' * 100 + day' ↔
      Before (year, month, day) (year', month', day') := by
  have short := date.toLast.trans (monthLength_le year month)
  have short' := date'.toLast.trans (monthLength_le year' month')
  obtain ⟨january, december, firstOn, -⟩ := date
  obtain ⟨january', december', firstOn', -⟩ := date'
  unfold Before
  simp only
  omega

/-- When a day is over in UTC. -/
def dayEnd (year month day : Int) : TimePoint :=
  (daysFromCivil year month day + 1) * (kSecondsPerDay * nanosPerSecond)

theorem dateKey_lt_utcDateKey {year month day : Int} (date : IsDate year month day) (now : TimePoint) :
    year * 10000 + month * 100 + day < utcDateKey now ↔ dayEnd year month day ≤ now := by
  have today := isDate_civilFromDays (now.fdiv (kSecondsPerDay * nanosPerSecond))
  have number := daysFromCivil_civilFromDays (now.fdiv (kSecondsPerDay * nanosPerSecond))
  calc year * 10000 + month * 100 + day < utcDateKey now
      ↔ Before (year, month, day) (civilFromDays (now.fdiv (kSecondsPerDay * nanosPerSecond))) :=
        dateKey_lt_iff date today
    _ ↔ daysFromCivil year month day < now.fdiv (kSecondsPerDay * nanosPerSecond) := by
        rw [← number, daysFromCivil_lt_iff date today, number]
    _ ↔ dayEnd year month day ≤ now := by
        rw [Int.fdiv_eq_ediv_of_nonneg _ (by decide), ← Int.add_one_le_iff, Int.le_ediv_iff_mul_le (by decide)]
        rfl

section Scan

open TickerScanner

variable {F : Type} [Floating F] (config : ScannerConfig F) (probes : Probes F) (now : TimePoint)

/-- The market of the series alone, with the same figures: no day is named. -/
def undated (market : Market F) (series : String) : Market F := { market with ticker := series }

theorem tickerEventDateKey_plain {series : String} (plain : '-' ∉ series.toList) :
    tickerEventDateKey series = none := by
  have nothing := toList_dropWhile plain []
  rw [List.append_nil] at nothing
  unfold tickerEventDateKey
  rw [nothing]
  rfl

/-- A market that names its event's day is a candidate until that day is over, and until then the day plays no part. -/
theorem candidateOf_event {series : String} (plain : '-' ∉ series.toList) {yearOfCentury month day : Nat}
    (rest : String)
    (century : yearOfCentury < 100) (date : IsDate (2000 + yearOfCentury) month day) {market : Market F}
    (named : market.ticker = eventTicker series yearOfCentury month day rest) :
    candidateOf config now market =
      if dayEnd (2000 + yearOfCentury) month day ≤ now then none
      else (candidateOf config now (undated market series)).map fun score =>
        { score with ticker := market.ticker } := by
  have key := tickerEventDateKey_event plain rest century date
  have passed := dateKey_lt_utcDateKey date now
  unfold candidateOf undated
  rw [named, key]
  simp only [Option.any_some, decide_eq_true_eq, passed, tickerEventDateKey_plain plain, Option.any_none]
  -- the other filters read the same figures on both sides
  split_ifs <;> first | rfl | contradiction

/-- Whatever is scanned and names its event's day is scanned before that day is over. -/
theorem scan_before_day_ends (topN : Int) {series : String} (plain : '-' ∉ series.toList)
    {yearOfCentury month day : Nat}
    (rest : String) (century : yearOfCentury < 100) (date : IsDate (2000 + yearOfCentury) month day)
    {score : MarketScore F}
    (scanned : score ∈ scan config probes topN now)
    (named : score.ticker = eventTicker series yearOfCentury month day rest) :
    now < dayEnd (2000 + yearOfCentury) month day := by
  rw [scan_eq] at scanned
  have ranked := (List.mem_filter.mp (List.mem_of_mem_take scanned)).1
  have tickers := List.mem_map_of_mem (f := MarketScore.ticker) ((List.mem_insertionSort _).mp ranked)
  rw [scored_ticker] at tickers
  obtain ⟨market, listed, same⟩ := List.mem_map.mp tickers
  have kept := (List.mem_filter.mp listed).2
  by_contra ended
  have dropped := candidateOf_event config now plain rest century date (same.trans named)
  rw [if_pos (not_lt.mp ended)] at dropped
  have ticker := candidateOf_ticker config now market
  rw [dropped] at ticker
  simp [decide_eq_true_eq.mp kept] at ticker

/-- A market whose ticker names a day counts as its undated twin does until that day is over in UTC, and is
dropped from then on: no scan returns it once it is over. -/
theorem event_listed_until_its_day_ends {series : String} (plain : '-' ∉ series.toList) {yearOfCentury month day : Nat}
    (rest : String) (century : yearOfCentury < 100) (date : IsDate (2000 + yearOfCentury) month day) :
    (∀ market : Market F, market.ticker = eventTicker series yearOfCentury month day rest →
      candidateOf config now market =
        if dayEnd (2000 + yearOfCentury) month day ≤ now then none
        else (candidateOf config now (undated market series)).map fun score =>
          { score with ticker := market.ticker }) ∧
    ∀ (topN : Int), ∀ score ∈ scan config probes topN now,
      score.ticker = eventTicker series yearOfCentury month day rest →
        now < dayEnd (2000 + yearOfCentury) month day := by
  constructor
  · intro market named
    exact candidateOf_event config now plain rest century date named
  · intro topN score scanned named
    exact scan_before_day_ends config probes now topN plain rest century date scanned named

end Scan

/-- Once the last day of February of a leap year is over. -/
theorem event_listed_until_its_day_ends_leapDay :
    let market : Market ℚ :=
      { ticker := eventTicker "KXHIGHNY" 24 2 29 "-T50", title := "", category := "", status := "active"
        volume24h := 0, closeTime := 0 }
    let probes : Probes ℚ := ⟨fun _ => [market], [], fun _ _ => none, fun _ _ _ => none, fun _ => none⟩
    let now := dayEnd 2024 2 29
    TickerScanner.candidateOf {} now market = none ∧
      ∀ score ∈ TickerScanner.scan {} probes 1 now, score.ticker ≠ market.ticker := by
  intro market probes now
  obtain ⟨dropped, past⟩ := event_listed_until_its_day_ends ({} : ScannerConfig ℚ) probes now
    (show '-' ∉ "KXHIGHNY".toList by decide) "-T50" (show 24 < 100 by decide)
    (show IsDate (2000 + (24 : Nat)) 2 29 by decide)
  constructor
  · exact (dropped market rfl).trans (if_pos (le_refl now))
  · intro score scanned named
    exact absurd (past 1 score scanned named) (lt_irrefl now)

end Kalshi
