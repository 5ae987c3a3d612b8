import Mathlib.Algebra.Order.Field.Basic
import Mathlib.Data.List.Chain
import Mathlib.Tactic.Linarith
import Mathlib.Tactic.Ring

/-! Token buckets that lend: a request may leave the bucket in debt, and then goes out about when the debt is paid. -/
namespace TokenBucket

variable {K : Type*} [Field K] [LinearOrder K]

/-- A request: what the bucket held when it was asked, and when the request goes out. -/
structure Request (K : Type*) where
  asked : K
  cost : K
  held : K
  sent : K

/-- When the bucket has paid for a request. -/
def Request.paid (rate : K) (request : Request K) : K :=
  request.asked + max 0 (request.cost - request.held) / rate

/-- A bucket never holds more than its capacity, and a request goes out when it is paid for, or a little before. -/
structure Admitted (rate capacity slack : K) (request : Request K) : Prop where
  cost_nonneg : 0 ≤ request.cost
  affordable : request.cost ≤ capacity
  capped : request.held ≤ capacity
  atLatest : request.sent ≤ request.paid rate
  atEarliest : request.paid rate ≤ request.sent + slack

/-- From one request to the next the bucket gains no more than the rate allows. -/
def Refills (rate : K) (request next : Request K) : Prop :=
  next.held ≤ request.held - request.cost + rate * (next.asked - request.asked)

/-- What goes out within a span of time. -/
def within (first last : K) (requests : List (Request K)) : List (Request K) :=
  requests.filter fun request => decide (first ≤ request.sent ∧ request.sent ≤ last)

def total (requests : List (Request K)) : K := (requests.map Request.cost).sum

variable {rate capacity slack first last : K}

omit [Field K] in
theorem within_cons_of_mem {request : Request K} {requests : List (Request K)}
    (inside : first ≤ request.sent ∧ request.sent ≤ last) :
    within first last (request :: requests) = request :: within first last requests :=
  List.filter_cons_of_pos (decide_eq_true inside)

omit [Field K] in
theorem within_cons_of_not_mem {request : Request K} {requests : List (Request K)}
    (outside : ¬ (first ≤ request.sent ∧ request.sent ≤ last)) :
    within first last (request :: requests) = within first last requests :=
  List.filter_cons_of_neg (by simpa using outside)

omit [LinearOrder K] in
theorem total_cons (request : Request K) (requests : List (Request K)) :
    total (request :: requests) = request.cost + total requests := by
  simp [total]

variable [IsStrictOrderedRing K]

section

variable (positive : 0 < rate) {request : Request K} (admitted : Admitted rate capacity slack request)

include positive

omit [IsStrictOrderedRing K] in
theorem Request.rate_mul_paid (request : Request K) :
    rate * (request.paid rate - request.asked) = max 0 (request.cost - request.held) := by
  unfold Request.paid
  rw [add_sub_cancel_left, mul_div_cancel₀ _ positive.ne']

include admitted

/-- What a request costs is what the bucket held and what came in until it went out. -/
theorem Admitted.cost_le (sent : request.sent ≤ last) :
    request.cost ≤ request.held + rate * (last - request.asked) + rate * slack := by
  have owed : request.cost - request.held ≤ rate * (request.paid rate - request.asked) := by
    rw [request.rate_mul_paid positive]
    exact le_max_right _ _
  have paid : rate * (request.paid rate - request.asked) ≤ rate * (last + slack - request.asked) := by
    apply mul_le_mul_of_nonneg_left _ positive.le
    linarith [admitted.atEarliest]
  linarith

/-- A wait is no longer than the bucket needs to fill up. -/
theorem Admitted.wait_le (sent : first ≤ request.sent) :
    rate * (first - request.asked) ≤ capacity - request.held := by
  have waited : rate * (first - request.asked) ≤ rate * (request.paid rate - request.asked) := by
    apply mul_le_mul_of_nonneg_left _ positive.le
    linarith [admitted.atLatest]
  rw [request.rate_mul_paid positive] at waited
  refine waited.trans (max_le ?_ ?_)
  · linarith [admitted.capped]
  · linarith [admitted.affordable]

end

/-- Up to a time the bucket pays with what it held at the first request and what came in since. -/
theorem total_le_of_head (positive : 0 < rate) {request : Request K} {requests : List (Request K)}
    (chained : (request :: requests).IsChain (Refills rate))
    (admitted : ∀ other ∈ request :: requests, Admitted rate capacity slack other)
    (present : within first last (request :: requests) ≠ []) :
    total (within first last (request :: requests)) ≤ request.held + rate * (last - request.asked) + rate * slack := by
  have own := admitted request List.mem_cons_self
  -- the bound passes from the next request to this one: what it left in the bucket, and the refill between them
  induction requests generalizing request with
  | nil =>
    by_cases inside : first ≤ request.sent ∧ request.sent ≤ last
    · rw [within_cons_of_mem inside, total_cons]
      have cost := own.cost_le positive inside.2
      simpa [within, total] using cost
    · rw [within_cons_of_not_mem inside] at present
      exact absurd rfl present
  | cons next requests ih =>
    obtain ⟨refilled, rest⟩ := List.isChain_cons_cons.mp chained
    have others : ∀ other ∈ next :: requests, Admitted rate capacity slack other :=
      fun other member => admitted other (List.mem_cons_of_mem _ member)
    unfold Refills at refilled
    -- with nothing inside the window further on, this request alone has to fit
    by_cases later : within first last (next :: requests) = []
    · by_cases inside : first ≤ request.sent ∧ request.sent ≤ last
      · rw [within_cons_of_mem inside, total_cons, later]
        have cost := own.cost_le positive inside.2
        simpa [total] using cost
      · rw [within_cons_of_not_mem inside] at present
        exact absurd later present
    · have tail := ih rest others later (others next List.mem_cons_self)
      have lent : next.held + rate * (last - next.asked) ≤
          request.held - request.cost + rate * (last - request.asked) := by linarith
      by_cases inside : first ≤ request.sent ∧ request.sent ≤ last
      · rw [within_cons_of_mem inside, total_cons]
        linarith
      · rw [within_cons_of_not_mem inside]
        linarith [own.cost_nonneg]

/-- Within a span of time no more goes out than the capacity, what comes in meanwhile, and the slack. -/
theorem total_within_le (positive : 0 < rate) {requests : List (Request K)} (chained : requests.IsChain (Refills rate))
    (admitted : ∀ request ∈ requests, Admitted rate capacity slack request)
    (present : within first last requests ≠ []) :
    total (within first last requests) ≤ capacity + rate * (last - first) + rate * slack := by
  induction requests with
  | nil => exact absurd rfl present
  | cons request requests ih =>
    by_cases inside : first ≤ request.sent ∧ request.sent ≤ last
    · have paid := total_le_of_head positive chained admitted present
      have waited := (admitted request List.mem_cons_self).wait_le positive inside.1
      linarith
    · rw [within_cons_of_not_mem inside] at present ⊢
      exact ih chained.tail (fun other member => admitted other (List.mem_cons_of_mem _ member)) present

end TokenBucket
