import Mathlib.Data.Prod.Lex
import SailwindOnline.FiniteMap
import SailwindOnline.MachineInt
import SailwindOnline.OrderedSet

/-!
Minimum-interval throttles. A refused attempt records nothing, so it never
extends a cooldown; a clock that runs backwards counts as no elapsed time. The
bounded throttle retains a fixed number of keys and lets a new key replace only
the oldest one whose cooldown has passed.
-/

namespace SailwindOnline.RateLimiting
open MachineInt OrderedSet

structure GlobalRateLimiter where
  minIntervalMs : Int64
  last : Option Int64 := none
deriving DecidableEq

def GlobalRateLimiter.allow (limiter : GlobalRateLimiter) (nowMs : Int64) : GlobalRateLimiter × Bool :=
  if limiter.minIntervalMs ≤ 0 then (limiter, true)
  else
    match limiter.last with
    | some last =>
      if saturatingSub nowMs last < limiter.minIntervalMs then (limiter, false)
      else ({ limiter with last := some nowMs }, true)
    | none => ({ limiter with last := some nowMs }, true)

structure RateLimiter where
  minIntervalMs : Int64
  last : FiniteMap UInt64 Int64 := FiniteMap.empty
deriving DecidableEq

namespace RateLimiter

def allow (limiter : RateLimiter) (key : UInt64) (nowMs : Int64) : RateLimiter × Bool :=
  if limiter.minIntervalMs ≤ 0 then (limiter, true)
  else
    match limiter.last.get? key with
    | some last =>
      if saturatingSub nowMs last < limiter.minIntervalMs then (limiter, false)
      else ({ limiter with last := limiter.last.insert key nowMs }, true)
    | none => ({ limiter with last := limiter.last.insert key nowMs }, true)

def clear (limiter : RateLimiter) (key : UInt64) : RateLimiter :=
  { limiter with last := limiter.last.erase key }

end RateLimiter

structure BoundedRateLimiter (Key : Type) [LinearOrder Key] where
  minIntervalMs : Int64
  maxKeys : Nat
  last : FiniteMap Key Int64 := FiniteMap.empty
  oldest : Finset (Int64 ×ₗ Key) := ∅

namespace BoundedRateLimiter
variable {Key : Type} [LinearOrder Key]

def record (limiter : BoundedRateLimiter Key) (key : Key) (nowMs : Int64) : BoundedRateLimiter Key :=
  { limiter with
    last := limiter.last.insert key nowMs
    oldest := insert (toLex (nowMs, key)) limiter.oldest }

def forget (limiter : BoundedRateLimiter Key) (lastMs : Int64) (key : Key) : BoundedRateLimiter Key :=
  { limiter with oldest := limiter.oldest.erase (toLex (lastMs, key)) }

def allow (limiter : BoundedRateLimiter Key) (key : Key) (nowMs : Int64) : BoundedRateLimiter Key × Bool :=
  if limiter.minIntervalMs ≤ 0 then (limiter, true)
  else
    match limiter.last.get? key with
    | some lastMs =>
      if saturatingSub nowMs lastMs < limiter.minIntervalMs then (limiter, false)
      else ((limiter.forget lastMs key).record key nowMs, true)
    | none =>
      if limiter.last.size ≥ limiter.maxKeys then
        match (ascending limiter.oldest).head? with
        | none => (limiter, false)
        | some oldest =>
          let oldestMs := (ofLex oldest).1
          let oldestKey := (ofLex oldest).2
          if saturatingSub nowMs oldestMs < limiter.minIntervalMs then (limiter, false)
          else
            let limiter := limiter.forget oldestMs oldestKey
            (({ limiter with last := limiter.last.erase oldestKey }).record key nowMs, true)
      else (limiter.record key nowMs, true)

end BoundedRateLimiter

end SailwindOnline.RateLimiting
