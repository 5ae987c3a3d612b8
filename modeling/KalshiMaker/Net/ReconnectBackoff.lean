import Mathlib.Algebra.Order.Ring.Int
import Mathlib.Algebra.Order.Ring.Pow

/-! How long the websocket client waits before it connects again. -/
namespace Kalshi

/-- A signed result of some width. One that overflows has no meaning in C++, and is none. -/
def checkedInt (bits : Nat) (value : Int) : Option Int :=
  if -2 ^ (bits - 1) ≤ value ∧ value < 2 ^ (bits - 1) then some value else none

/-- In seconds. -/
def kMaxReconnectDelay : Int := 60

/-- `kMaxReconnectDelay` in milliseconds. -/
def reconnectCap : Int := kMaxReconnectDelay * 1000

def kMaxDoublings : Int := 30

/-- The loop of `reconnect_backoff`, with so many doublings left. -/
def doubleDelay : Nat → Int → Option Int
  | 0, delay => some delay
  | left + 1, delay => do
    let delay ← checkedInt 64 (delay * 2)
    if reconnectCap ≤ delay then some reconnectCap else doubleDelay left delay

/-- `base_delay` is a 64-bit count of milliseconds, `consecutive_failures` a 32-bit `int`. -/
def reconnectBackoff (baseDelay consecutiveFailures : Int) : Option Int := do
  let delay := min baseDelay reconnectCap
  let doublings := min (← checkedInt 32 (consecutiveFailures - 1)) kMaxDoublings
  doubleDelay doublings.toNat delay

theorem checkedInt_of_fits {bits : Nat} {value : Int} (low : -2 ^ (bits - 1) ≤ value) (high : value < 2 ^ (bits - 1)) :
    checkedInt bits value = some value := if_pos ⟨low, high⟩

/-- Below the cap nothing overflows, and leaving the loop at the cap loses nothing. -/
theorem doubleDelay_eq {delay : Int} (nonneg : 0 ≤ delay) (capped : delay ≤ reconnectCap) (left : Nat) :
    doubleDelay left delay = some (min reconnectCap (delay * 2 ^ left)) := by
  have cap : reconnectCap = 60000 := rfl
  induction left generalizing delay with
  | zero =>
    rw [pow_zero, mul_one, min_eq_right capped]
    rfl
  | succ left ih =>
    have fits : checkedInt 64 (delay * 2) = some (delay * 2) :=
      checkedInt_of_fits (by norm_num; omega) (by norm_num; omega)
    have more : delay * 2 ^ (left + 1) = delay * 2 * 2 ^ left := by rw [pow_succ', mul_assoc]
    unfold doubleDelay
    rw [fits, more]
    dsimp only [bind, Option.bind]
    split
    next reached =>
      -- further doublings only move away from the cap
      have beyond : delay * 2 ≤ delay * 2 * 2 ^ left := le_mul_of_one_le_right (by omega) (one_le_pow₀ (by norm_num))
      rw [min_eq_left (reached.trans beyond)]
    next short => exact ih (by omega) (by omega)

end Kalshi
