import KalshiMaker.Core.Floating
import KalshiMaker.Lib.Binary64

/-! The program's `double`s themselves, in Lean's own model of them. -/
namespace Kalshi

/-- What a conversion gives on x86-64: the least integer where the number has no place among them. -/
def toInt64 (n : Int) : Int := if -2 ^ 63 ≤ n ∧ n < 2 ^ 63 then n else -2 ^ 63

/-- A finite number goes to an integer near it. -/
def toInteger (near : ℚ → Int) (x : Float) : Int :=
  if x.isFinite then toInt64 (near (Binary64.value x)) else -2 ^ 63

/-- What `errno` tells of a number read: beyond the doubles, or so small that not all of it is kept. -/
def outOfRange (size : ℚ) (x : Float) : Bool :=
  !x.isFinite || decide (|size| < 2 ^ (-1022 : Int) ∧ Binary64.value x ≠ size)

/-- `std::stod`, correctly rounded; `none` is `invalid_argument` or `out_of_range`. -/
def doubleStod (s : String) : Option Float :=
  match Numeral.scan s with
  | some (negative, .finite size) =>
    let x := Binary64.ofRat size
    if outOfRange size x then none else some (if negative then -x else x)
  | some (negative, .infinite) => some (Float.ofBits (if negative then 0xfff0000000000000 else 0x7ff0000000000000))
  | some (_, .nan) => some (Float.ofBits 0x7ff8000000000000)
  | none => none

instance Floating.double : Floating Float where
  zero := Float.ofBits 0
  intCast n := .ofModel (.ofInt n)
  decLt := inferInstance
  decLe := inferInstance
  isFinite := Float.isFinite
  infinity := Float.ofBits 0x7ff0000000000000
  lowest := Float.ofBits 0xffefffffffffffff
  floor := toInteger Int.floor
  ceil := toInteger Int.ceil
  round := toInteger exactRound
  trunc := toInteger fun x => if 0 ≤ x then ⌊x⌋ else ⌈x⌉
  exp := Float.exp
  log := Float.log
  exp2 := Float.exp2
  stod := doubleStod

end Kalshi
