import KalshiMaker.Core.Floating
import KalshiMaker.Lib.LowerBound

/-! The table of fair values over the time to close and the mid, and its lookup. -/
namespace Kalshi

/-- `values[ttc_idx][mid_idx]` -/
structure TheoGridConfig (F : Type) where
  ttcBreakpoints : List F
  midBreakpoints : List F
  values : List (List F)

namespace TheoGridConfig

variable {F : Type} [Floating F]

/-- `default_config` -/
def default : TheoGridConfig F where
  ttcBreakpoints := ((1 : Int) : F) / ((4 : Int) : F) :: [1, 4, 12, 48].map fun hours : Int => (hours : F)
  midBreakpoints := [10, 25, 50, 75, 90].map fun cents : Int => (cents : F)
  values :=
    [[12, 27, 50, 73, 88], [11, 26, 50, 74, 89], [10, 25, 50, 75, 90], [10, 25, 50, 75, 90], [10, 25, 50, 75, 90]].map
      fun row => row.map fun cents : Int => (cents : F)

omit [Floating F] in
/-- The assertions of `TheoGrid`'s constructor. -/
def asserted (config : TheoGridConfig F) : Bool :=
  !config.ttcBreakpoints.isEmpty && !config.midBreakpoints.isEmpty &&
    config.values.length == config.ttcBreakpoints.length

/-- Where a point is on an axis: the breakpoints that bracket it, and the clamped fraction between them. -/
structure Bracket (F : Type) where
  lo : Nat
  hi : Nat
  alpha : F

/-- The index of the first breakpoint not below `x`, clamped above to the last. -/
def upper (breakpoints : List F) (x : F) : Nat :=
  let found := LowerBound.lowerBound (fun breakpoint => decide (breakpoint < x)) breakpoints
  if breakpoints.length ≤ found then breakpoints.length - 1 else found

/-- The search along an axis. `at` throws where there is no breakpoint at all. -/
def bracket (breakpoints : List F) (x : F) : Option (Bracket F) := do
  let hi := upper breakpoints x
  let lo := if hi = 0 then 0 else hi - 1
  let high ← breakpoints[hi]?
  let low ← breakpoints[lo]?
  let range := high - low
  let frac := if 0 < range then (x - low) / range else 0
  return { lo, hi, alpha := Floating.clamp frac 0 ((1 : Int) : F) }

/-- The value along the mid axis in one row of the table. -/
def valueInRow (config : TheoGridConfig F) (ttc : Nat) (mid : Bracket F) : Option F := do
  let row ← config.values[ttc]?
  let low ← row[mid.lo]?
  let high ← row[mid.hi]?
  return low + mid.alpha * (high - low)

/-- `TheoGrid::lookup`; none where an `at` throws. -/
def lookup (config : TheoGridConfig F) (ttcHours midCents : F) : Option F := do
  let ttc ← bracket config.ttcBreakpoints ttcHours
  let mid ← bracket config.midBreakpoints midCents
  let valLo ← config.valueInRow ttc.lo mid
  let valHi ← config.valueInRow ttc.hi mid
  return valLo + ttc.alpha * (valHi - valLo)

end TheoGridConfig

end Kalshi
