import Mathlib.Tactic.Linarith
import KalshiMaker.Net.ReconnectBackoff

/-! The reconnect delays in closed form. -/
namespace Kalshi

/-- The delay doubles with each failure after the first, up to the cap. -/
def backoffDelay (baseDelay consecutiveFailures : Int) : Int :=
  min reconnectCap (baseDelay * 2 ^ (max 0 (consecutiveFailures - 1)).toNat)

/-- Capping the base first changes nothing. -/
theorem min_capped_base (base : Int) (doublings : Nat) :
    min reconnectCap (min base reconnectCap * 2 ^ doublings) = min reconnectCap (base * 2 ^ doublings) := by
  have grown : (1 : Int) ≤ 2 ^ doublings := one_le_pow₀ (by norm_num)
  rcases le_total base reconnectCap with below | above
  · rw [min_eq_left below]
  · have cap : 0 ≤ reconnectCap := by decide
    have reached : reconnectCap ≤ reconnectCap * 2 ^ doublings := le_mul_of_one_le_right cap grown
    have more : reconnectCap * 2 ^ doublings ≤ base * 2 ^ doublings :=
      mul_le_mul_of_nonneg_right above (by positivity)
    rw [min_eq_right above, min_eq_left reached, min_eq_left (reached.trans more)]

/-- Thirty doublings take any delay but none at all to the cap. -/
theorem min_doublings {base : Int} (nonneg : 0 ≤ base) {doublings : Nat} (many : 30 ≤ doublings) :
    min reconnectCap (base * 2 ^ doublings) = min reconnectCap (base * 2 ^ 30) := by
  rcases nonneg.eq_or_lt with rfl | present
  · simp
  · have thirty : reconnectCap ≤ base * 2 ^ 30 := by
      have : reconnectCap ≤ 1 * 2 ^ 30 := by decide
      linarith
    have more : base * 2 ^ 30 ≤ base * 2 ^ doublings :=
      mul_le_mul_of_nonneg_left (pow_le_pow_right₀ (by norm_num) many) nonneg
    rw [min_eq_left thirty, min_eq_left (thirty.trans more)]

theorem reconnectBackoff_eq {base n : Int} (nonneg : 0 ≤ base) (low : -2 ^ 31 < n) (high : n < 2 ^ 31) :
    reconnectBackoff base n = some (backoffDelay base n) := by
  have cap : (0 : Int) ≤ reconnectCap := by decide
  have counted : checkedInt 32 (n - 1) = some (n - 1) := checkedInt_of_fits (by norm_num; omega) (by norm_num; omega)
  have loop : reconnectBackoff base n = doubleDelay (min (n - 1) kMaxDoublings).toNat (min base reconnectCap) := by
    unfold reconnectBackoff
    rw [counted]
    rfl
  rw [loop, doubleDelay_eq (le_min nonneg cap) (min_le_right _ _), min_capped_base]
  unfold backoffDelay
  -- the limit on the doublings shows only where the cap is reached with fewer
  by_cases few : n - 1 ≤ kMaxDoublings
  · have same : (min (n - 1) kMaxDoublings).toNat = (max 0 (n - 1)).toNat := by
      rw [min_eq_left few]
      omega
    rw [same]
  · have limit : kMaxDoublings = 30 := rfl
    have thirty : (min (n - 1) kMaxDoublings).toNat = 30 := by omega
    rw [thirty, min_doublings nonneg (by omega : 30 ≤ (max 0 (n - 1)).toNat)]

theorem backoffDelay_mono {base base' n n' : Int} (nonneg : 0 ≤ base) (longer : base ≤ base') (more : n ≤ n') :
    backoffDelay base n ≤ backoffDelay base' n' := by
  unfold backoffDelay
  refine min_le_min_left _ (mul_le_mul longer ?_ (by positivity) (nonneg.trans longer))
  exact pow_le_pow_right₀ (by norm_num) (by omega)

/-- Short of the least `int`, the delay is the closed form, without overflow, and grows with the base and
the failures. -/
theorem reconnect_backoff_closed {base n : Int} (nonneg : 0 ≤ base) (low : -2 ^ 31 < n) (high : n < 2 ^ 31) :
    reconnectBackoff base n = some (min reconnectCap (base * 2 ^ (max 0 (n - 1)).toNat)) ∧
      ∀ base' n' : Int, base ≤ base' → n ≤ n' → n' < 2 ^ 31 →
        ∃ delay delay', reconnectBackoff base n = some delay ∧ reconnectBackoff base' n' = some delay' ∧
          delay ≤ delay' := by
  refine ⟨reconnectBackoff_eq nonneg low high, fun base' n' longer more high' => ?_⟩
  refine ⟨_, _, reconnectBackoff_eq nonneg low high, ?_, backoffDelay_mono nonneg longer more⟩
  exact reconnectBackoff_eq (nonneg.trans longer) (by omega) high'

/-- Five seconds: the fourth failure in a row waits for forty, the fifth for the cap. -/
theorem reconnect_backoff_closed_fifth :
    reconnectBackoff 5000 4 = some 40000 ∧ ∃ delay delay', reconnectBackoff 5000 4 = some delay ∧
      reconnectBackoff 5000 5 = some delay' ∧ delay ≤ delay' := by
  have closed := reconnect_backoff_closed (by decide : (0 : Int) ≤ 5000) (by decide : -2 ^ 31 < (4 : Int)) (by decide)
  exact ⟨closed.1, closed.2 5000 5 (by decide) (by decide) (by decide)⟩

/-- At the least `int` the count less one overflows, where the closed form is the base. -/
theorem reconnect_backoff_overflows :
    reconnectBackoff 5000 (-2 ^ 31) = none ∧ min reconnectCap
      (5000 * 2 ^ (max 0 (-2 ^ 31 - 1 : Int)).toNat) = 5000 := by
  decide

end Kalshi
