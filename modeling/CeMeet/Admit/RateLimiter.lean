import CeMeet.Foundation.Indexed
import CeMeet.Foundation.Word

/-!
# The rate limiter of admission requests

A bucket for each sender counts its attempts in a window of time that starts
with the first of them.  The number of buckets is bounded: when there are too
many, those whose window is over are evicted, and a sender without a bucket is
refused as long as no bucket is free.
-/

namespace CeMeet

/-- The attempts of a sender in its current window. -/
structure AdmitBucket where
  /-- The sender. -/
  node : String
  /-- Start of the window. -/
  windowStart : UInt64
  /-- Allowed attempts in the window. -/
  count : UInt32
  deriving DecidableEq

/-- The rate limiter. -/
structure AdmitRateLimiter where
  /-- Attempts allowed in a window. -/
  capacity : UInt32
  /-- Length of a window, in seconds. -/
  windowSecs : UInt64
  /-- Bound on the number of buckets. -/
  maxTracked : Nat
  /-- The buckets. -/
  buckets : Indexed AdmitBucket.node

namespace AdmitRateLimiter

/-- A rate limiter without buckets.  Each bound is at least one. -/
def new (capacity : UInt32) (windowSecs : UInt64) (maxTracked : Nat) :
    AdmitRateLimiter :=
  { capacity := max capacity 1
    windowSecs := max windowSecs 1
    maxTracked := max maxTracked 1
    buckets := .empty }

/-- The rate limiter of a host. -/
def default : AdmitRateLimiter :=
  .new 10 10 4096

/-- The number of senders with a bucket. -/
def tracked (limiter : AdmitRateLimiter) : Nat :=
  limiter.buckets.size

/-- Forget the buckets whose window is over. -/
def evict (limiter : AdmitRateLimiter) (now : UInt64) : AdmitRateLimiter :=
  { limiter with
    buckets := limiter.buckets.filter fun bucket =>
      now.saturatingSub bucket.windowStart < limiter.windowSecs }

/-- Count an attempt in the sender's bucket, which is created if it is
missing and starts over if its window is over. -/
def count (limiter : AdmitRateLimiter) (node : String) (now : UInt64) :
    Bool × AdmitRateLimiter :=
  let entry := (limiter.buckets.lookup node).getD
    { node, windowStart := now, count := 0 }
  let entry :=
    if limiter.windowSecs ≤ now.saturatingSub entry.windowStart then
      { node, windowStart := now, count := 0 }
    else
      { entry with node }
  if limiter.capacity ≤ entry.count then
    (false, { limiter with buckets := limiter.buckets.insert entry })
  else
    (true,
      { limiter with
        buckets := limiter.buckets.insert
          { entry with count := entry.count + 1 } })

/-- Record an attempt, and decide whether it is allowed. -/
def check (limiter : AdmitRateLimiter) (node : String) (now : UInt64) :
    Bool × AdmitRateLimiter :=
  if node ∉ limiter.buckets.keys ∧ limiter.maxTracked ≤ limiter.tracked then
    let limiter := limiter.evict now
    if limiter.maxTracked ≤ limiter.tracked then (false, limiter)
    else limiter.count node now
  else
    limiter.count node now

/-! ## The bound on the buckets -/

theorem count_keys
    (limiter : AdmitRateLimiter) (node : String) (now : UInt64) :
    (limiter.count node now).2.buckets.keys =
      insert node limiter.buckets.keys := by
  unfold count
  dsimp only
  split <;> split <;> rw [Indexed.keys_insert]

theorem count_maxTracked
    (limiter : AdmitRateLimiter) (node : String) (now : UInt64) :
    (limiter.count node now).2.maxTracked = limiter.maxTracked := by
  unfold count
  dsimp only
  split <;> split <;> rfl

theorem tracked_evict_le (limiter : AdmitRateLimiter) (now : UInt64) :
    (limiter.evict now).tracked ≤ limiter.tracked := by
  apply Finset.card_le_card
  intro node member
  obtain ⟨bucket, found⟩ := Indexed.mem_keys_iff.mp member
  rw [evict, Indexed.lookup_filter, Option.filter_eq_some_iff] at found
  exact Indexed.mem_keys_of_lookup found.1

theorem tracked_count_le
    {limiter : AdmitRateLimiter} {node : String}
    (room : node ∈ limiter.buckets.keys ∨
      limiter.tracked < limiter.maxTracked)
    (bounded : limiter.tracked ≤ limiter.maxTracked) (now : UInt64) :
    (limiter.count node now).2.tracked ≤ limiter.maxTracked := by
  rw [tracked, Indexed.size, count_keys]
  rcases room with known | free
  · rw [Finset.insert_eq_self.mpr known]
    exact bounded
  · exact (Finset.card_insert_le _ _).trans free

/-- A check never tracks more senders than the bound. -/
theorem tracked_check_le
    {limiter : AdmitRateLimiter}
    (bounded : limiter.tracked ≤ limiter.maxTracked)
    (node : String) (now : UInt64) :
    (limiter.check node now).2.tracked ≤
        (limiter.check node now).2.maxTracked ∧
      (limiter.check node now).2.maxTracked = limiter.maxTracked := by
  unfold check
  dsimp only
  split
  next =>
    have evicted := (tracked_evict_le limiter now).trans bounded
    split
    next => exact ⟨evicted, rfl⟩
    next free =>
      rw [count_maxTracked]
      exact ⟨tracked_count_le (.inr (not_le.mp free)) evicted now, rfl⟩
  next room =>
    rw [count_maxTracked]
    refine ⟨tracked_count_le ?_ bounded now, rfl⟩
    rwa [not_and_or, not_not, not_le] at room

end AdmitRateLimiter
end CeMeet
