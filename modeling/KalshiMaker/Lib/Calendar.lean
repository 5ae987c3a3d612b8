import Mathlib.Algebra.Order.Ring.Int
import Mathlib.Tactic.IntervalCases

/-!
# The Gregorian calendar

A year is counted from the first of March, so that its leap day comes last. The days then run in eras of 400 years,
each a century short of a leap day but the last, and a day's year and month are found by division.
-/
namespace Calendar

def Leap (year : Int) : Prop := year % 4 = 0 ∧ (year % 100 ≠ 0 ∨ year % 400 = 0)

instance (year : Int) : Decidable (Leap year) := inferInstanceAs (Decidable (_ ∧ _))

def monthLength (year month : Int) : Int :=
  if month = 2 then (if Leap year then 29 else 28)
  else if month = 4 ∨ month = 6 ∨ month = 9 ∨ month = 11 then 30
  else 31

structure IsDate (year month day : Int) : Prop where
  januaryOn : 1 ≤ month
  toDecember : month ≤ 12
  firstOn : 1 ≤ day
  toLast : day ≤ monthLength year month

instance (year month day : Int) : Decidable (IsDate year month day) :=
  decidable_of_iff (1 ≤ month ∧ month ≤ 12 ∧ 1 ≤ day ∧ day ≤ monthLength year month)
    ⟨fun ⟨first, last, one, most⟩ => ⟨first, last, one, most⟩,
      fun date => ⟨date.januaryOn, date.toDecember, date.firstOn, date.toLast⟩⟩

/-- The order of dates: by year, then month, then day. -/
def Before (first second : Int × Int × Int) : Prop :=
  first.1 < second.1 ∨ first.1 = second.1 ∧
    (first.2.1 < second.2.1 ∨ first.2.1 = second.2.1 ∧ first.2.2 < second.2.2)

theorem monthLength_le (year month : Int) : monthLength year month ≤ 31 := by
  unfold monthLength
  split <;> [split; split] <;> decide

/-! ### Days of a year -/

/-- The days of a year before its month, both counted from March. -/
def daysBefore (month : Int) : Int := (153 * month + 2) / 5

/-- A month counted from March, as it is numbered from January. -/
def calendarMonth (month : Int) : Int := if month < 10 then month + 3 else month - 9

/-- A day of a year from March on falls in the month that division gives. -/
theorem month_of_day {year month day : Int} (first : 0 ≤ month) (last : month ≤ 11) (one : 1 ≤ day)
    (most : day ≤ monthLength year (calendarMonth month)) :
    (5 * (daysBefore month + day - 1) + 2) / 153 = month := by
  have short : day ≤ 31 := most.trans (monthLength_le year _)
  unfold daysBefore
  interval_cases month
  case «1» | «3» | «6» | «8» =>
    have thirty : day ≤ 30 := most
    omega
  case «11» =>
    have february : day ≤ 29 := by
      refine most.trans ?_
      change (if Leap year then (29 : Int) else 28) ≤ 29
      split <;> decide
    omega
  all_goals omega

/-- A month ends before the later ones begin. -/
theorem month_ends {year month later day : Int} (first : 0 ≤ month) (earlier : month < later) (last : later ≤ 11)
    (most : day ≤ monthLength year (calendarMonth month)) : daysBefore month + day ≤ daysBefore later := by
  have short : day ≤ 31 := most.trans (monthLength_le year _)
  have high : month ≤ 10 := by omega
  unfold daysBefore
  interval_cases month
  case «1» | «3» | «6» | «8» =>
    have thirty : day ≤ 30 := most
    omega
  all_goals omega

/-- A day of a year has a month, and is a day of it. -/
theorem day_of_year (dayOfYear year : Int) (first : 0 ≤ dayOfYear)
    (last : dayOfYear ≤ 364 ∨ dayOfYear = 365 ∧ Leap year) :
    let month := (5 * dayOfYear + 2) / 153
    0 ≤ month ∧ month ≤ 11 ∧ 1 ≤ dayOfYear - daysBefore month + 1 ∧
      dayOfYear - daysBefore month + 1 ≤ monthLength year (calendarMonth month) := by
  intro month
  have low : 0 ≤ month := by omega
  have high : month ≤ 11 := by omega
  have found : (5 * dayOfYear + 2) / 153 = month := rfl
  refine ⟨low, high, ?_⟩
  clear_value month
  unfold daysBefore
  interval_cases month
  case «11» =>
    have february : dayOfYear - 337 + 1 ≤ if Leap year then (29 : Int) else 28 := by
      rcases last with short | ⟨leapDay, leap⟩
      · split <;> omega
      · rw [if_pos leap, leapDay]
        decide
    exact ⟨by omega, february⟩
  case «1» | «3» | «6» | «8» =>
    change _ ∧ _ ≤ (30 : Int)
    omega
  all_goals
    change _ ∧ _ ≤ (31 : Int)
    omega

/-! ### Years of an era -/

/-- The days before a year, both counted from the era's first March. -/
def yearStart (year : Int) : Int := 365 * year + year / 4 - year / 100

/-- A year of an era by its century, its four years there, and its place in them. -/
theorem year_parts (year : Int) (first : 0 ≤ year) (last : year < 400) :
    ∃ century fours rest, year = 100 * century + 4 * fours + rest ∧ (0 ≤ century ∧ century ≤ 3) ∧
      (0 ≤ fours ∧ fours ≤ 24) ∧ (0 ≤ rest ∧ rest ≤ 3) :=
  ⟨year / 100, year % 100 / 4, year % 4, by omega, by omega, by omega, by omega⟩

theorem yearStart_parts (century : Int) {fours rest : Int} (fours_in : 0 ≤ fours ∧ fours ≤ 24)
    (rest_in : 0 ≤ rest ∧ rest ≤ 3) :
    yearStart (100 * century + 4 * fours + rest) = 36524 * century + 1461 * fours + 365 * rest := by
  have quads : (100 * century + 4 * fours + rest) / 4 = 25 * century + fours := by omega
  have hundreds : (100 * century + 4 * fours + rest) / 100 = century := by omega
  unfold yearStart
  omega

/-- The year after has a leap day where the division by four leaves three, but for three centuries. -/
theorem leap_after {century fours rest : Int} (era : Int) (century_in : 0 ≤ century ∧ century ≤ 3)
    (fours_in : 0 ≤ fours ∧ fours ≤ 24) (rest_in : 0 ≤ rest ∧ rest ≤ 3) :
    Leap (100 * century + 4 * fours + rest + 400 * era + 1) ↔ rest = 3 ∧ (fours < 24 ∨ century = 3) := by
  unfold Leap
  omega

/-- The year of a day, as division finds it. -/
def yearOf (day : Int) : Int := (day - day / 1460 + day / 36524 - day / 146096) / 365

theorem yearOf_parts {century fours rest dayOfYear day : Int} (century_in : 0 ≤ century ∧ century ≤ 3)
    (fours_in : 0 ≤ fours ∧ fours ≤ 24) (rest_in : 0 ≤ rest ∧ rest ≤ 3) (first : 0 ≤ dayOfYear)
    (last : dayOfYear ≤ 364 ∨ dayOfYear = 365 ∧ rest = 3 ∧ (fours < 24 ∨ century = 3))
    (made : day = 36524 * century + 1461 * fours + 365 * rest + dayOfYear) :
    yearOf day = 100 * century + 4 * fours + rest := by
  -- of the four-year blocks, a century has one day too few to be counted as 25 of them
  have quads : day / 1460 = 25 * century + fours + (24 * century + fours + 365 * rest + dayOfYear) / 1460 := by omega
  have cents : day / 36524 - day / 146096 = century := by
    by_cases final : day = 146096
    · subst final
      omega
    · have within : 1461 * fours + 365 * rest + dayOfYear < 36524 := by omega
      have hundreds : day / 36524 = century := by omega
      have none : day / 146096 = 0 := by omega
      omega
  have early : (24 * century + fours + 365 * rest + dayOfYear) / 1460 = 0 ∨
      (24 * century + fours + 365 * rest + dayOfYear) / 1460 = 1 ∧ 269 ≤ dayOfYear := by omega
  have late : dayOfYear = 365 → (24 * century + fours + 365 * rest + dayOfYear) / 1460 = 1 := by omega
  unfold yearOf
  generalize (24 * century + fours + 365 * rest + dayOfYear) / 1460 = carried at *
  clear fours_in
  omega

/-- A day of an era by its year's parts and the day of that year. -/
theorem day_parts (day : Int) (first : 0 ≤ day) (last : day < 146097) :
    ∃ century fours rest dayOfYear, (0 ≤ century ∧ century ≤ 3) ∧ (0 ≤ fours ∧ fours ≤ 24) ∧ (0 ≤ rest ∧ rest ≤ 3) ∧
      0 ≤ dayOfYear ∧ (dayOfYear ≤ 364 ∨ dayOfYear = 365 ∧ rest = 3 ∧ (fours < 24 ∨ century = 3)) ∧
      day = 36524 * century + 1461 * fours + 365 * rest + dayOfYear := by
  have centuries : ∃ century within, (0 ≤ century ∧ century ≤ 3) ∧ 0 ≤ within ∧
      (within < 36524 ∨ within = 36524 ∧ century = 3) ∧ day = 36524 * century + within :=
    ⟨min (day / 36524) 3, day - 36524 * min (day / 36524) 3, by omega, by omega, by omega, by omega⟩
  obtain ⟨century, within, century_in, within_first, within_last, rfl⟩ := centuries
  have years : ∃ rest dayOfYear, (0 ≤ rest ∧ rest ≤ 3) ∧ 0 ≤ dayOfYear ∧
      (dayOfYear ≤ 364 ∨ dayOfYear = 365 ∧ rest = 3) ∧ within % 1461 = 365 * rest + dayOfYear :=
    ⟨min (within % 1461 / 365) 3, within % 1461 - 365 * min (within % 1461 / 365) 3, by omega, by omega, by omega,
      by omega⟩
  obtain ⟨rest, dayOfYear, rest_in, day_first, day_last, made⟩ := years
  exact ⟨century, within / 1461, rest, dayOfYear, century_in, by omega, rest_in, day_first, by omega, by omega⟩

/-! ### The number of a day -/

/-- The year that a month belongs to, from March on. -/
def marchYear (year month : Int) : Int := if month ≤ 2 then year - 1 else year

/-- A month numbered from January, as it is counted from March. -/
def marchMonth (month : Int) : Int := if month ≤ 2 then month + 9 else month - 3

/-- A date's day, counted from the first of March of the year 0. -/
def dayNumber (year month day : Int) : Int :=
  let shifted := marchYear year month
  shifted / 400 * 146097 + yearStart (shifted - shifted / 400 * 400) + (daysBefore (marchMonth month) + day - 1)

def dateOf (number : Int) : Int × Int × Int :=
  let era := number / 146097
  let day := number - era * 146097
  let dayOfYear := day - yearStart (yearOf day)
  let month := (5 * dayOfYear + 2) / 153
  (yearOf day + era * 400 + (if calendarMonth month ≤ 2 then 1 else 0), calendarMonth month,
    dayOfYear - daysBefore month + 1)

theorem calendarMonth_marchMonth {month : Int} (first : 1 ≤ month) (last : month ≤ 12) :
    calendarMonth (marchMonth month) = month := by
  unfold calendarMonth marchMonth
  omega

theorem marchMonth_calendarMonth {month : Int} (first : 0 ≤ month) (last : month ≤ 11) :
    marchMonth (calendarMonth month) = month := by
  unfold calendarMonth marchMonth
  omega

theorem marchMonth_range {month : Int} (first : 1 ≤ month) (last : month ≤ 12) :
    0 ≤ marchMonth month ∧ marchMonth month ≤ 11 := by
  unfold marchMonth
  omega

/-- A date's place in its year, counted from March: the leap day is the last. -/
theorem IsDate.dayOfYear {year month day : Int} (date : IsDate year month day) :
    0 ≤ daysBefore (marchMonth month) + day - 1 ∧
      (daysBefore (marchMonth month) + day - 1 ≤ 364 ∨
        daysBefore (marchMonth month) + day - 1 = 365 ∧ Leap (marchYear year month + 1)) := by
  obtain ⟨first, last, one, most⟩ := date
  by_cases february : month = 2
  · subst february
    change day ≤ if Leap year then 29 else 28 at most
    have next : marchYear year 2 + 1 = year := by
      change year - 1 + 1 = year
      omega
    rw [next]
    change 0 ≤ 337 + day - 1 ∧ (337 + day - 1 ≤ 364 ∨ 337 + day - 1 = 365 ∧ Leap year)
    split at most
    next leap =>
      refine ⟨by omega, ?_⟩
      by_cases leapDay : day = 29
      · exact .inr ⟨by omega, leap⟩
      · exact .inl (by omega)
    next => omega
  · have short := monthLength_le year month
    have room : daysBefore (marchMonth month) ≤ 306 := by
      unfold daysBefore marchMonth
      omega
    have some : 0 ≤ daysBefore (marchMonth month) := by
      unfold daysBefore marchMonth
      omega
    by_cases january : month = 1
    · subst january
      change day ≤ 31 at most
      change 0 ≤ (306 : Int) + day - 1 ∧ ((306 : Int) + day - 1 ≤ 364 ∨ _)
      omega
    · have earlier : daysBefore (marchMonth month) ≤ 275 := by
        unfold daysBefore marchMonth
        omega
      omega

/-- A date's number in parts: its era, its year there and its day there. -/
theorem IsDate.dayNumber_parts {year month day : Int} (date : IsDate year month day) :
    ∃ century fours rest dayOfYear,
      marchYear year month = 100 * century + 4 * fours + rest + 400 * (marchYear year month / 400) ∧
      (0 ≤ century ∧ century ≤ 3) ∧ (0 ≤ fours ∧ fours ≤ 24) ∧ (0 ≤ rest ∧ rest ≤ 3) ∧
      dayOfYear = daysBefore (marchMonth month) + day - 1 ∧ 0 ≤ dayOfYear ∧
      (dayOfYear ≤ 364 ∨ dayOfYear = 365 ∧ rest = 3 ∧ (fours < 24 ∨ century = 3)) ∧
      dayNumber year month day =
        marchYear year month / 400 * 146097 + (36524 * century + 1461 * fours + 365 * rest + dayOfYear) := by
  obtain ⟨first, last⟩ := date.dayOfYear
  obtain ⟨century, fours, rest, within, century_in, fours_in, rest_in⟩ :=
    year_parts (marchYear year month - marchYear year month / 400 * 400) (by omega) (by omega)
  have whole : marchYear year month = 100 * century + 4 * fours + rest + 400 * (marchYear year month / 400) := by omega
  refine ⟨century, fours, rest, _, whole, century_in, fours_in, rest_in, rfl, first, ?_, ?_⟩
  · refine last.imp_right fun leapDay => ⟨leapDay.1, ?_⟩
    have leap := leapDay.2
    rw [whole] at leap
    exact (leap_after _ century_in fours_in rest_in).mp leap
  · unfold dayNumber
    simp only
    rw [within, yearStart_parts century fours_in rest_in]
    omega

theorem dateOf_dayNumber {year month day : Int} (date : IsDate year month day) :
    dateOf (dayNumber year month day) = (year, month, day) := by
  obtain ⟨century, fours, rest, dayOfYear, whole, century_in, fours_in, rest_in, placed, first, last, number⟩ :=
    date.dayNumber_parts
  have era : dayNumber year month day / 146097 = marchYear year month / 400 := by omega
  have within : dayNumber year month day - dayNumber year month day / 146097 * 146097 =
      36524 * century + 1461 * fours + 365 * rest + dayOfYear := by omega
  have found := yearOf_parts century_in fours_in rest_in first last rfl
  have start := yearStart_parts century fours_in rest_in
  obtain ⟨marchFirst, marchLast⟩ := marchMonth_range date.januaryOn date.toDecember
  have named := calendarMonth_marchMonth date.januaryOn date.toDecember
  have month_found : (5 * dayOfYear + 2) / 153 = marchMonth month := by
    rw [placed]
    exact month_of_day marchFirst marchLast date.firstOn (by rw [named]; exact date.toLast)
  have rest_of : 36524 * century + 1461 * fours + 365 * rest + dayOfYear -
      (36524 * century + 1461 * fours + 365 * rest) = dayOfYear := by omega
  unfold dateOf
  simp only
  rw [within, era, found, start, rest_of, month_found, named, placed]
  refine Prod.ext ?_ (Prod.ext rfl ?_)
  · change 100 * century + 4 * fours + rest + marchYear year month / 400 * 400 + _ = year
    have shifted : marchYear year month + (if month ≤ 2 then 1 else 0) = year := by
      unfold marchYear
      split <;> omega
    omega
  · change daysBefore (marchMonth month) + day - 1 - daysBefore (marchMonth month) + 1 = day
    omega

/-- Every day has a date, and the date's number is the day. -/
theorem dateOf_spec (number : Int) :
    IsDate (dateOf number).1 (dateOf number).2.1 (dateOf number).2.2 ∧
      dayNumber (dateOf number).1 (dateOf number).2.1 (dateOf number).2.2 = number := by
  obtain ⟨century, fours, rest, dayOfYear, century_in, fours_in, rest_in, first, last, made⟩ :=
    day_parts (number - number / 146097 * 146097) (by omega) (by omega)
  have found := yearOf_parts century_in fours_in rest_in first last made
  have start := yearStart_parts century fours_in rest_in
  have leap := leap_after (number / 146097) century_in fours_in rest_in
  have day_in : number - number / 146097 * 146097 - yearStart (yearOf (number - number / 146097 * 146097)) =
      dayOfYear := by
    rw [found, start]
    omega
  unfold dateOf
  simp only
  rw [day_in, found]
  obtain ⟨low, high, one, most⟩ := day_of_year dayOfYear
    (100 * century + 4 * fours + rest + 400 * (number / 146097) + 1) first
    (last.imp_right fun leapDay => ⟨leapDay.1, leap.mpr leapDay.2⟩)
  generalize (5 * dayOfYear + 2) / 153 = month at low high one most ⊢
  have march := marchMonth_calendarMonth low high
  have shifted : marchYear (100 * century + 4 * fours + rest + number / 146097 * 400 +
      (if calendarMonth month ≤ 2 then 1 else 0)) (calendarMonth month) =
      100 * century + 4 * fours + rest + number / 146097 * 400 := by
    unfold marchYear
    split <;> omega
  constructor
  · refine ⟨?_, ?_, one, ?_⟩
    · unfold calendarMonth
      omega
    · unfold calendarMonth
      omega
    · by_cases february : calendarMonth month = 2
      · rw [february] at most ⊢
        rw [if_pos (by decide)]
        have same : 100 * century + 4 * fours + rest + number / 146097 * 400 + 1 =
            100 * century + 4 * fours + rest + 400 * (number / 146097) + 1 := by omega
        rw [same]
        exact most
      · unfold monthLength at most ⊢
        rw [if_neg february] at most ⊢
        exact most
  · have era : (100 * century + 4 * fours + rest + number / 146097 * 400) / 400 = number / 146097 := by omega
    have within : 100 * century + 4 * fours + rest + number / 146097 * 400 - number / 146097 * 400 =
        100 * century + 4 * fours + rest := by omega
    unfold dayNumber
    simp only
    rw [shifted, era, within, start, march]
    omega

/-! ### The order of dates -/

theorem dayNumber_eq (year month day : Int) :
    dayNumber year month day = 365 * marchYear year month + marchYear year month / 4 - marchYear year month / 100 +
      marchYear year month / 400 + (daysBefore (marchMonth month) + day - 1) := by
  unfold dayNumber yearStart
  simp only
  omega

theorem dayNumber_before {year month day year' month' day' : Int} (date : IsDate year month day)
    (date' : IsDate year' month' day') (before : Before (year, month, day) (year', month', day')) :
    dayNumber year month day < dayNumber year' month' day' := by
  rw [dayNumber_eq, dayNumber_eq]
  obtain ⟨_, last⟩ := date.dayOfYear
  obtain ⟨first', _⟩ := date'.dayOfYear
  have short := monthLength_le year month
  obtain ⟨january, december, _, most⟩ := date
  obtain ⟨january', december', one', _⟩ := date'
  have later : marchYear year month < marchYear year' month' ∨
      marchYear year month = marchYear year' month' ∧
        (marchMonth month < marchMonth month' ∨ marchMonth month = marchMonth month' ∧ day < day') := by
    unfold Before at before
    simp only at before
    unfold marchYear marchMonth
    omega
  rcases later with earlier | ⟨same, inYear⟩
  · -- a year ends before the next begins, its leap day counted
    generalize daysBefore (marchMonth month) + day - 1 = dayOfYear at *
    generalize daysBefore (marchMonth month') + day' - 1 = dayOfYear' at *
    generalize marchYear year month = from_year at *
    generalize marchYear year' month' = to_year at *
    have length : dayOfYear < 365 * (from_year + 1) + (from_year + 1) / 4 - (from_year + 1) / 100 +
        (from_year + 1) / 400 - (365 * from_year + from_year / 4 - from_year / 100 + from_year / 400) := by
      unfold Leap at last
      omega
    omega
  · rw [same]
    rcases inYear with earlier | ⟨sameMonth, earlier⟩
    · obtain ⟨low, _⟩ := marchMonth_range january december
      obtain ⟨_, high⟩ := marchMonth_range january' december'
      rw [← calendarMonth_marchMonth january december] at most
      have ends := month_ends low earlier high most
      omega
    · rw [sameMonth]
      omega

theorem before_trichotomy (first second : Int × Int × Int) :
    Before first second ∨ first = second ∨ Before second first := by
  obtain ⟨year, month, day⟩ := first
  obtain ⟨year', month', day'⟩ := second
  simp only [Before, Prod.mk.injEq]
  omega

/-- Dates follow each other as their days do. -/
theorem dayNumber_lt_iff {year month day year' month' day' : Int} (date : IsDate year month day)
    (date' : IsDate year' month' day') :
    dayNumber year month day < dayNumber year' month' day' ↔ Before (year, month, day) (year', month', day') := by
  constructor
  · intro earlier
    rcases before_trichotomy (year, month, day) (year', month', day') with before | same | after
    · exact before
    · simp only [Prod.mk.injEq] at same
      obtain ⟨rfl, rfl, rfl⟩ := same
      exact absurd earlier (lt_irrefl _)
    · exact absurd earlier (dayNumber_before date' date after).asymm
  · exact dayNumber_before date date'

end Calendar
