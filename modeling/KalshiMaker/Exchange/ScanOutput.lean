import KalshiMaker.Exchange.TickerScanner

/-! How the scanner writes down when it ran. -/
namespace Kalshi

def twoDigits (n : Nat) : String := String.ofList [Nat.digitChar (n / 10), Nat.digitChar (n % 10)]

/-- A time in whole seconds as `gmtime_r` breaks it down and `strftime` writes it. -/
def toIso8601 (timePoint : TimePoint) : String :=
  -- `to_time_t` drops the fraction, so a time before 1970 is rounded up
  let time := timePoint.tdiv nanosPerSecond
  let days := time.fdiv kSecondsPerDay
  let second := (time - days * kSecondsPerDay).toNat
  let (year, month, day) := civilFromDays days
  toString year ++ "-" ++ twoDigits month.toNat ++ "-" ++ twoDigits day.toNat ++ "T" ++
    twoDigits (second / 3600) ++ ":" ++
    twoDigits (second / 60 % 60) ++ ":" ++ twoDigits (second % 60) ++ "Z"

end Kalshi
