import KalshiMaker.Lib.Numeral
import Mathlib.Data.Int.Log
import Mathlib.Data.Rat.Floor
import Mathlib.Algebra.Order.Floor.Ring
import Mathlib.Tactic.NormNum

/-! The operations the program performs on `double`, over any type that has them. -/
namespace Kalshi

/-- The floating-point interface. No law is assumed, so what is proved over it holds
of IEEE doubles; exact arithmetic is the instance at `ℚ`. A cast of a number that the
integer type has no room for is undefined in C++, and what it gives is open here. -/
class Floating (F : Type) extends Zero F, Add F, Sub F, Mul F, Div F, Neg F, IntCast F, LT F, LE F,
    BEq F where
  decLt : DecidableLT F
  decLe : DecidableLE F
  isFinite : F → Bool
  infinity : F
  /-- `numeric_limits<double>::lowest()` -/
  lowest : F
  /-- `static_cast<int>(std::floor(x))`, and likewise below. -/
  floor : F → Int
  ceil : F → Int
  /-- To nearest, halves away from zero: `std::round`, `std::lround`, `std::llround`. -/
  round : F → Int
  /-- `static_cast<int>(x)` -/
  trunc : F → Int
  exp : F → F
  log : F → F
  exp2 : F → F
  /-- `std::stod`; `none` where it throws. -/
  stod : String → Option F

attribute [instance, reducible] Floating.decLt Floating.decLe

namespace Floating

variable {F : Type} [Floating F]

/-- `std::max`, `std::min` and `std::clamp` on `double`. -/
def max (a b : F) : F := if a < b then b else a

def min (a b : F) : F := if b < a then b else a

def clamp (value low high : F) : F :=
  if value < low then low else if high < value then high else value

end Floating

/-- The elementary functions, left open where the rest of the arithmetic is exact. -/
class Elementary (F : Type) where
  exp : F → F
  log : F → F
  exp2 : F → F

/-- The first 24 terms of the exponential series, for an argument of at most 1. -/
def expSeries (x : ℚ) : ℚ := (List.range 24).foldr (fun i (sum : ℚ) => 1 + x * sum / (i + 1)) 1

/-- The first 20 terms of the series of `log (1 + z) - log (1 - z)`, for `|z|` at most a third. -/
def logSeries (z : ℚ) : ℚ := 2 * z * (List.range 20).foldr (fun i (sum : ℚ) => 1 / (2 * i + 1) + z ^ 2 * sum) 0

/-- The functions to some fifteen decimals, for runs on fixed inputs: whole powers are taken
out and the rest summed. The logarithm of a number that has none is as small as can be. -/
instance (priority := low) : Elementary ℚ where
  exp x := expSeries 1 ^ ⌊x⌋ * expSeries (x - ⌊x⌋)
  log x :=
    if x ≤ 0 then -(2 ^ 1024)
    else
      let power := Int.log 2 x
      let rest := x / 2 ^ power
      power * logSeries (1 / 3) + logSeries ((rest - 1) / (rest + 1))
  exp2 x := 2 ^ ⌊x⌋ * expSeries ((x - ⌊x⌋) * logSeries (1 / 3))

/-- `std::stod` without its roundings: no number is out of range, an infinity stands at the end of
the doubles, and a nan, which no number stands for, is refused. -/
def exactStod (s : String) : Option ℚ :=
  match Numeral.scan s with
  | some (negative, .finite size) => some (if negative then -size else size)
  | some (negative, .infinite) => some (if negative then -(2 ^ 1024) else 2 ^ 1024)
  | _ => none

/-- To nearest, halves away from zero. -/
def exactRound (x : ℚ) : Int := if 0 ≤ x then ⌊x + 1 / 2⌋ else -⌊-x + 1 / 2⌋

/-- Exact arithmetic. As for doubles, a number is finite below `2 ^ 1024` and infinity is
not finite. -/
instance Floating.exact [Elementary ℚ] : Floating ℚ where
  decLt := inferInstance
  decLe := inferInstance
  isFinite x := decide (|x| < 2 ^ 1024)
  infinity := 2 ^ 1024
  lowest := -(2 ^ 1024 - 2 ^ 971)
  floor x := ⌊x⌋
  ceil x := ⌈x⌉
  round := exactRound
  trunc x := if 0 ≤ x then ⌊x⌋ else ⌈x⌉
  exp := Elementary.exp
  log := Elementary.log
  exp2 := Elementary.exp2
  stod := exactStod

end Kalshi
