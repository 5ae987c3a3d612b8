import KalshiMaker.Core.RateLimiter
import KalshiMaker.Lib.TokenBucket
import KalshiMaker.Strategy.Reservation

/-! In exact arithmetic the write requests stay within the exchange's budget, over any span of time. -/
namespace Kalshi

open TokenBucket

noncomputable def seconds (t : TimePoint) : ℝ := (t : ℝ) / ((nanosPerSecond : Int) : ℝ)

theorem seconds_sub (t u : TimePoint) : seconds (t - u) = seconds t - seconds u := by
  unfold seconds
  push_cast
  ring

theorem seconds_le {t u : TimePoint} : seconds t ≤ seconds u ↔ t ≤ u := by
  unfold seconds
  have unit : (0 : ℝ) < ((nanosPerSecond : Int) : ℝ) := Int.cast_pos.mpr (by decide)
  rw [div_le_div_iff_of_pos_right unit]
  exact Int.cast_le

theorem seconds_after (t : TimePoint) (wait : Int) :
    seconds (t + wait * nanosPerMilli) = seconds t + (wait : ℝ) / 1000 := by
  unfold seconds nanosPerSecond nanosPerMilli
  push_cast
  ring

namespace RateLimiter

/-- A call as a request to the bucket. -/
noncomputable def request (limiter : RateLimiter ℝ) (now : TimePoint) (cost : ℝ) : TokenBucket.Request ℝ where
  asked := seconds now
  cost
  held := limiter.refilled now
  sent := seconds (now + (limiter.acquire now cost).1 * nanosPerMilli)

noncomputable def requests : RateLimiter ℝ → List (TimePoint × ℝ) → List (TokenBucket.Request ℝ)
  | _, [] => []
  | limiter, (now, cost) :: calls => limiter.request now cost :: requests (limiter.acquire now cost).2 calls

theorem acquire_after (limiter : RateLimiter ℝ) (now : TimePoint) (cost : ℝ) :
    (limiter.acquire now cost).2 =
      { limiter with tokens := limiter.refilled now - cost, lastRefill := now } := by
  unfold acquire
  dsimp only
  split <;> rfl

/-- Debt is carried over: the next refill starts from what the last call left, below nothing if need be. -/
theorem refilled_after_le (limiter : RateLimiter ℝ) (now next : TimePoint) (cost : ℝ) :
    (limiter.acquire now cost).2.refilled next ≤
      limiter.refilled now - cost + limiter.rate * (seconds next - seconds now) := by
  rw [acquire_after, ← seconds_sub]
  unfold refilled
  dsimp only
  rw [Floating.min_real]
  refine (min_le_right _ _).trans_eq ?_
  unfold seconds
  ring

theorem request_admitted {limiter : RateLimiter ℝ} (positive : 0 < limiter.rate) {cost : ℝ} (least : 0 ≤ cost)
    (most : cost ≤ limiter.capacity) (now : TimePoint) :
    Admitted limiter.rate limiter.capacity (1 / 1000) (limiter.request now cost) := by
  have capped : limiter.refilled now ≤ limiter.capacity := by
    unfold refilled
    dsimp only
    rw [Floating.min_real]
    exact min_le_left _ _
  have sent : (limiter.request now cost).sent = seconds now + ((limiter.acquire now cost).1 : ℝ) / 1000 :=
    seconds_after now _
  have paid : (limiter.request now cost).paid limiter.rate =
      seconds now + max 0 (cost - limiter.refilled now) / limiter.rate := rfl
  -- with enough tokens the request goes out at once; otherwise it waits for the whole milliseconds of the deficit
  by_cases deficit : cost - limiter.refilled now ≤ 0
  · have wait : (limiter.acquire now cost).1 = 0 := by
      unfold acquire
      dsimp only
      rw [if_pos (.inl deficit)]
    rw [wait] at sent
    rw [max_eq_left deficit, zero_div] at paid
    constructor
    · exact least
    · exact most
    · exact capped
    · rw [sent, paid]
      norm_num
    · rw [sent, paid]
      norm_num
  · have owed : 0 < cost - limiter.refilled now := not_le.mp deficit
    have wait : (limiter.acquire now cost).1 = ⌊(cost - limiter.refilled now) / limiter.rate * 1000⌋ := by
      unfold acquire
      dsimp only
      rw [if_neg (not_or.mpr ⟨deficit, not_le.mpr positive⟩)]
      change (if 0 ≤ (cost - limiter.refilled now) / limiter.rate * ((1000 : Int) : ℝ) then _ else _) = _
      push_cast
      rw [if_pos (by positivity)]
    have below := Int.floor_le ((cost - limiter.refilled now) / limiter.rate * 1000)
    have above := Int.lt_floor_add_one ((cost - limiter.refilled now) / limiter.rate * 1000)
    rw [wait] at sent
    rw [max_eq_right owed.le] at paid
    constructor
    · exact least
    · exact most
    · exact capped
    · rw [sent, paid]
      linarith
    · rw [sent, paid]
      linarith

theorem requests_admitted {limiter : RateLimiter ℝ} (positive : 0 < limiter.rate) {calls : List (TimePoint × ℝ)}
    (costs : ∀ call ∈ calls, 0 ≤ call.2 ∧ call.2 ≤ limiter.capacity) :
    ∀ request ∈ limiter.requests calls, Admitted limiter.rate limiter.capacity (1 / 1000) request := by
  induction calls generalizing limiter with
  | nil => exact fun _ member => absurd member List.not_mem_nil
  | cons call calls ih =>
    intro request member
    obtain ⟨least, most⟩ := costs call List.mem_cons_self
    rcases List.mem_cons.mp member with rfl | member
    · exact request_admitted positive least most call.1
    · have after := limiter.acquire_after call.1 call.2
      have rest := @ih (limiter.acquire call.1 call.2).2
      rw [after] at rest
      exact rest positive (fun other within => costs other (List.mem_cons_of_mem _ within)) request
        (by rw [← after]; exact member)

theorem requests_chained (limiter : RateLimiter ℝ) (calls : List (TimePoint × ℝ)) :
    (limiter.requests calls).IsChain (Refills limiter.rate) := by
  induction calls generalizing limiter with
  | nil => exact .nil
  | cons call calls ih =>
    have tail := ih (limiter.acquire call.1 call.2).2
    have rate : (limiter.acquire call.1 call.2).2.rate = limiter.rate := by rw [acquire_after]
    rw [rate] at tail
    cases calls with
    | nil => exact .singleton _
    | cons next calls => exact .cons_cons (limiter.refilled_after_le call.1 next.1 call.2) tail

/-- The requests go out when the calls' waits are over. -/
theorem sends_within (limiter : RateLimiter ℝ) (calls : List (TimePoint × ℝ)) (first last : TimePoint) :
    (((limiter.sends calls).filter fun sent => decide (first ≤ sent.1 ∧ sent.1 ≤ last)).map Prod.snd) =
      (within (seconds first) (seconds last) (limiter.requests calls)).map TokenBucket.Request.cost := by
  induction calls generalizing limiter with
  | nil => rfl
  | cons call calls ih =>
    have rest := ih (limiter.acquire call.1 call.2).2
    change (List.filter _ ((call.1 + (limiter.acquire call.1 call.2).1 * nanosPerMilli, call.2) ::
      (limiter.acquire call.1 call.2).2.sends calls)).map Prod.snd =
        (within _ _ (limiter.request call.1 call.2 :: (limiter.acquire call.1 call.2).2.requests calls)).map
          TokenBucket.Request.cost
    by_cases inside : first ≤ call.1 + (limiter.acquire call.1 call.2).1 * nanosPerMilli ∧
        call.1 + (limiter.acquire call.1 call.2).1 * nanosPerMilli ≤ last
    · rw [List.filter_cons, if_pos (decide_eq_true inside), within_cons_of_mem (by
        exact ⟨seconds_le.mpr inside.1, seconds_le.mpr inside.2⟩), List.map_cons, List.map_cons, rest]
      rfl
    · rw [List.filter_cons, if_neg (by simpa using inside), within_cons_of_not_mem (by
        exact fun still => inside ⟨seconds_le.mp still.1, seconds_le.mp still.2⟩), rest]

end RateLimiter

/-- From the time a request goes out to any later one, all that goes out costs at most the capacity, what the rate
allows meanwhile and in one millisecond more. -/
theorem sent_within_budget {rate capacity : ℝ} (positive : 0 < rate) (start : TimePoint) (calls : List (TimePoint × ℝ))
    (costs : ∀ call ∈ calls, 0 ≤ call.2 ∧ call.2 ≤ capacity) {first last : TimePoint}
    (opens : ∃ cost, (first, cost) ∈ (RateLimiter.make rate capacity start).sends calls) (ordered : first ≤ last) :
    ((((RateLimiter.make rate capacity start).sends calls).filter fun sent =>
        decide (first ≤ sent.1 ∧ sent.1 ≤ last)).map Prod.snd).sum ≤
      capacity + rate * seconds (last - first) + rate * (1 / 1000) := by
  have sum := (RateLimiter.make rate capacity start).sends_within calls first last
  have present : within (seconds first) (seconds last)
    ((RateLimiter.make rate capacity start).requests calls) ≠ [] := by
    intro absent
    rw [absent, List.map_nil, List.map_eq_nil_iff] at sum
    obtain ⟨cost, member⟩ := opens
    have outside := List.filter_eq_nil_iff.mp sum (first, cost) member
    exact outside (decide_eq_true ⟨le_refl first, ordered⟩)
  have chained : ((RateLimiter.make rate capacity start).requests calls).IsChain (Refills rate) :=
    (RateLimiter.make rate capacity start).requests_chained calls
  rw [sum, seconds_sub]
  exact total_within_le positive chained (RateLimiter.requests_admitted positive costs) present

theorem sent_within_budget_indebted :
    let limiter : RateLimiter ℝ := RateLimiter.make 100 100 0
    let calls : List (TimePoint × ℝ) := [(0, 60), (0, 60), (5, 60)]
    (((limiter.sends calls).filter fun sent => decide (0 ≤ sent.1 ∧ sent.1 ≤ nanosPerSecond)).map Prod.snd).sum ≤
      100 + 100 * seconds (nanosPerSecond - 0) + 100 * (1 / 1000) := by
  intro limiter calls
  -- the bucket starts full, so the first request opens the window
  have full : (limiter.acquire 0 60).1 = 0 := by
    have held : limiter.refilled 0 = 100 := by
      unfold RateLimiter.refilled
      dsimp only
      rw [Floating.min_real]
      norm_num [limiter, RateLimiter.make]
    unfold RateLimiter.acquire
    dsimp only
    rw [held, if_pos (.inl (by norm_num))]
  have opens : ∃ cost, (0, cost) ∈ limiter.sends calls := by
    refine ⟨60, ?_⟩
    change (0, 60) ∈ (0 + (limiter.acquire 0 60).1 * nanosPerMilli, 60) :: _
    rw [full]
    exact List.mem_cons_self
  have costs : ∀ call ∈ calls, 0 ≤ call.2 ∧ call.2 ≤ 100 := by
    intro call member
    simp only [calls, List.mem_cons, List.not_mem_nil, or_false] at member
    rcases member with rfl | rfl | rfl <;> norm_num
  exact sent_within_budget (by norm_num) 0 calls costs opens (by decide)

end Kalshi
