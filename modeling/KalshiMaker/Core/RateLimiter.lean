import KalshiMaker.Core.Floating
import KalshiMaker.Core.Types

/-! The token bucket in front of the write requests. -/
namespace Kalshi

variable {F : Type} [Floating F]

structure RateLimiter (F : Type) where
  rate : F
  capacity : F
  tokens : F
  lastRefill : TimePoint

namespace RateLimiter

def make (tokensPerSecond capacity : F) (now : TimePoint) : RateLimiter F where
  rate := tokensPerSecond
  capacity
  tokens := capacity
  lastRefill := now

/-- What the bucket holds once it is refilled. -/
def refilled (limiter : RateLimiter F) (now : TimePoint) : F :=
  let elapsedSeconds : F := ((now - limiter.lastRefill : Int) : F) / ((nanosPerSecond : Int) : F)
  Floating.min limiter.capacity (limiter.tokens + elapsedSeconds * limiter.rate)

/-- The wait in milliseconds, cut off to whole ones. -/
def acquire (limiter : RateLimiter F) (now : TimePoint) (cost : F) : Int × RateLimiter F :=
  let tokens := limiter.refilled now
  let deficit := cost - tokens
  let after := { limiter with tokens := tokens - cost, lastRefill := now }
  if deficit ≤ 0 ∨ limiter.rate ≤ 0 then (0, after)
  else (Floating.trunc (deficit / limiter.rate * ((1000 : Int) : F)), after)

/-- When the requests of some calls go out, each with its cost: the wait is slept, and then the request is sent. -/
def sends : RateLimiter F → List (TimePoint × F) → List (TimePoint × F)
  | _, [] => []
  | limiter, (now, cost) :: calls =>
    let (wait, after) := limiter.acquire now cost
    (now + wait * nanosPerMilli, cost) :: sends after calls

end RateLimiter

end Kalshi
