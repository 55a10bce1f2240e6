import CeMeet.Admit.Flood

/-!
# Senders are limited independently of each other

As long as no more senders are active within a window than the table holds, the
rate limiter answers every sender as a counter of its own would.  The table
first agrees with one that has no bound and forgets nothing, and such a table
is a counter for each sender.
-/

namespace CeMeet
namespace AdmitRateLimiter

open FixedWindow

/-! ## A table without a bound -/

/-- Record an attempt in a table without a bound. -/
def attemptUnbounded (limiter : AdmitRateLimiter) (call : Attempt) :
    Bool × AdmitRateLimiter :=
  limiter.count call.1 call.2

/-- The answer to an attempt, and the bucket that it leaves. -/
def tally (limiter : AdmitRateLimiter) (held : Option AdmitBucket)
    (node : String) (now : UInt64) : Bool × AdmitBucket :=
  let entry := held.getD { node, windowStart := now, count := 0 }
  let entry :=
    if limiter.windowSecs ≤ now.saturatingSub entry.windowStart then
      { node, windowStart := now, count := 0 }
    else
      { entry with node }
  if limiter.capacity ≤ entry.count then (false, entry)
  else (true, { entry with count := entry.count + 1 })

theorem count_eq
    (limiter : AdmitRateLimiter) (node : String) (now : UInt64) :
    limiter.count node now =
      ((limiter.tally (limiter.buckets.lookup node) node now).1,
        { limiter with
          buckets := limiter.buckets.insert
            (limiter.tally (limiter.buckets.lookup node) node now).2 }) := by
  unfold count tally
  dsimp only
  split <;> split <;> rfl

/-- A window that is over counts for nothing. -/
theorem tally_of_isOver
    {limiter : AdmitRateLimiter} {bucket : AdmitBucket} {node : String}
    {now : UInt64} (elapsed : limiter.IsOver now bucket) :
    limiter.tally (some bucket) node now = limiter.tally none node now := by
  unfold tally
  dsimp only [Option.getD_some, Option.getD_none]
  rw [if_pos (show _ ≤ _ from elapsed), ite_self]

/-- A limiter agrees with one that has forgotten no window, but for windows
that are over. -/
structure Agrees (now : UInt64) (limiter unbounded : AdmitRateLimiter) :
    Prop where
  /-- The windows are counted alike. -/
  capacity : unbounded.capacity = limiter.capacity
  /-- The windows are equally long. -/
  windowSecs : unbounded.windowSecs = limiter.windowSecs
  /-- The buckets agree, but for windows that are over. -/
  buckets : ∀ node,
    limiter.buckets.lookup node = unbounded.buckets.lookup node ∨
      limiter.buckets.lookup node = none ∧
        ∀ bucket, unbounded.buckets.lookup node = some bucket →
          unbounded.IsOver now bucket

namespace Agrees

variable {now later : UInt64} {limiter unbounded : AdmitRateLimiter}

theorem evict (agrees : Agrees now limiter unbounded) :
    Agrees now (limiter.evict now) unbounded where
  capacity := agrees.capacity
  windowSecs := agrees.windowSecs
  buckets := fun node => by
    rw [AdmitRateLimiter.evict, Indexed.lookup_filter]
    rcases agrees.buckets node with same | ⟨missing, elapsed⟩
    · cases found : limiter.buckets.lookup node with
      | none => exact Or.inl (by rw [← same, found]; rfl)
      | some bucket =>
          rw [found] at same
          by_cases isOpen : now.saturatingSub bucket.windowStart <
              limiter.windowSecs
          · exact Or.inl (by
              rw [Option.filter_some_pos (by simpa using isOpen), same])
          · refine Or.inr ⟨Option.filter_some_neg (by simpa using isOpen), ?_⟩
            intro other otherFound
            rw [← same] at otherFound
            cases otherFound
            rw [IsOver, agrees.windowSecs]
            exact UInt64.not_lt.mp isOpen
    · exact Or.inr ⟨by rw [missing]; rfl, elapsed⟩

theorem mono (agrees : Agrees now limiter unbounded)
    (positive : unbounded.Positive) (passes : now ≤ later) :
    Agrees later limiter unbounded where
  capacity := agrees.capacity
  windowSecs := agrees.windowSecs
  buckets := fun node => by
    rcases agrees.buckets node with same | ⟨missing, elapsed⟩
    · exact Or.inl same
    · refine Or.inr ⟨missing, fun bucket found => ?_⟩
      have before := (isOver_iff positive).mp (elapsed bucket found)
      exact (isOver_iff positive).mpr
        (before.trans (UInt64.le_iff_toNat_le.mp passes))

/-- An attempt that both count is answered by both alike. -/
theorem count (agrees : Agrees now limiter unbounded) (node : String) :
    (limiter.count node now).1 = (unbounded.count node now).1 ∧
      Agrees now (limiter.count node now).2 (unbounded.count node now).2 := by
  have same : limiter.tally (limiter.buckets.lookup node) node now =
      unbounded.tally (unbounded.buckets.lookup node) node now := by
    rcases agrees.buckets node with same | ⟨missing, elapsed⟩
    · rw [same, tally, tally, agrees.capacity, agrees.windowSecs]
    · rw [missing]
      cases found : unbounded.buckets.lookup node with
      | none => rw [tally, tally, agrees.capacity, agrees.windowSecs]
      | some bucket =>
          rw [tally_of_isOver (elapsed bucket found), tally, tally,
            agrees.capacity, agrees.windowSecs]
  rw [count_eq, count_eq, ← same]
  refine ⟨rfl, agrees.capacity, agrees.windowSecs, fun other => ?_⟩
  dsimp only
  rw [Indexed.lookup_insert, Indexed.lookup_insert]
  split
  case isTrue => exact Or.inl rfl
  case isFalse => exact agrees.buckets other

/-- A limiter that has room for a sender agrees on its attempt. -/
theorem check (agrees : Agrees now limiter unbounded) {node : String}
    (room : node ∉ limiter.buckets.keys →
      (limiter.evict now).tracked < limiter.maxTracked) :
    (limiter.check node now).1 = (unbounded.count node now).1 ∧
      Agrees now (limiter.check node now).2 (unbounded.count node now).2 := by
  unfold AdmitRateLimiter.check
  dsimp only
  split
  case isTrue unknown =>
    have free : ¬(limiter.evict now).maxTracked ≤ (limiter.evict now).tracked :=
      not_le.mpr (room unknown.1)
    rw [if_neg free]
    exact agrees.evict.count node
  case isFalse => exact agrees.count node

theorem positive (agrees : Agrees now limiter unbounded)
    (positive : limiter.Positive) : unbounded.Positive where
  capacity := by
    rw [agrees.capacity]
    exact positive.capacity
  windowSecs := by
    rw [agrees.windowSecs]
    exact positive.windowSecs

end Agrees

/-! ## Room for the active senders -/

/-- The senders of the attempts within the last window. -/
def active (width : Nat) (calls : List Attempt) (now : UInt64) :
    Finset String :=
  ((calls.filter fun call => now.toNat < call.2.toNat + width).map
    Prod.fst).toFinset

theorem mem_active_iff {width : Nat} {calls : List Attempt} {now : UInt64}
    {node : String} :
    node ∈ active width calls now ↔
      ∃ time, (node, time) ∈ calls ∧ now.toNat < time.toNat + width := by
  simp [active]

/-- No more senders are active within a window than are tracked at most. -/
def Roomy (limiter : AdmitRateLimiter) (calls : List Attempt) : Prop :=
  ∀ done call, done ++ [call] <+: calls →
    (active limiter.windowSecs.toNat (done ++ [call]) call.2).card ≤
      limiter.maxTracked

instance (limiter : AdmitRateLimiter) (calls : List Attempt) :
    Decidable (limiter.Roomy calls) :=
  decidable_of_iff
    (∀ done ∈ calls.inits, ∀ call ∈ done.getLast?,
      (active limiter.windowSecs.toNat done call.2).card ≤ limiter.maxTracked)
    ⟨fun few done call reached =>
      few _ ((List.mem_inits _ _).mpr reached) call (by simp),
    fun few done reached call last => by
      rw [Option.mem_def, List.getLast?_eq_some_iff] at last
      obtain ⟨before, rfl⟩ := last
      exact few before call ((List.mem_inits _ _).mp reached)⟩

theorem Roomy.of_prefix {limiter : AdmitRateLimiter}
    {done calls : List Attempt} (roomy : limiter.Roomy calls)
    (started : done <+: calls) : limiter.Roomy done :=
  fun before call reached => roomy before call (reached.trans started)

/-- Every bucket that is not evicted belongs to an active sender. -/
theorem Accounts.active_of_mem_evict
    {limiter : AdmitRateLimiter} {now : UInt64} {log : List Attempt}
    (accounts : Accounts limiter now.toNat log) {node : String}
    (member : node ∈ (limiter.evict now).buckets.keys) :
    node ∈ active limiter.windowSecs.toNat log now := by
  obtain ⟨bucket, found, stillOpen⟩ := mem_evict_keys_iff.mp member
  have own := accounts.remembers node
  rw [found] at own
  cases own with | current windowed counted => _
  obtain ⟨time, entry, opened⟩ := mem_timesOf_iff.mp windowed.opened
  rw [isOver_iff accounts.positive, not_le, ← opened] at stillOpen
  exact mem_active_iff.mpr ⟨time, entry, stillOpen⟩

/-- A sender that is not tracked finds room if there is room for it and the
other active senders. -/
theorem Accounts.room
    {limiter : AdmitRateLimiter} {now : UInt64} {log calls : List Attempt}
    (accounts : Accounts limiter now.toNat log) (made : log ⊆ calls)
    {node : String} (unknown : node ∉ limiter.buckets.keys)
    (few : (active limiter.windowSecs.toNat (calls ++ [(node, now)]) now).card ≤
      limiter.maxTracked) :
    (limiter.evict now).tracked < limiter.maxTracked := by
  have untracked : node ∉ (limiter.evict now).buckets.keys := by
    intro member
    obtain ⟨bucket, found, _⟩ := mem_evict_keys_iff.mp member
    exact unknown (Indexed.mem_keys_of_lookup found)
  have someWidth := UInt64.lt_iff_toNat_lt.mp accounts.positive.windowSecs
  rw [UInt64.toNat_zero] at someWidth
  have covered : Insert.insert node (limiter.evict now).buckets.keys ⊆
      active limiter.windowSecs.toNat (calls ++ [(node, now)]) now := by
    refine Finset.insert_subset ?_ fun other member => ?_
    · exact mem_active_iff.mpr ⟨now, by simp, by omega⟩
    · obtain ⟨time, entry, recent⟩ :=
        mem_active_iff.mp (accounts.active_of_mem_evict member)
      exact mem_active_iff.mpr
        ⟨time, List.mem_append_left _ (made entry), recent⟩
  have counted := Finset.card_le_card covered
  rw [Finset.card_insert_of_notMem untracked] at counted
  exact counted.trans few

/-- As long as there is room for the active senders, the table answers as one
without a bound. -/
theorem outputs_eq_unbounded
    (capacity : UInt32) (windowSecs : UInt64) (maxTracked : Nat)
    {calls : List Attempt}
    (ordered : calls.Pairwise fun earlier later => earlier.2 ≤ later.2)
    (roomy : (new capacity windowSecs maxTracked).Roomy calls) :
    let limiter := new capacity windowSecs maxTracked
    Transducer.outputs attempt limiter calls =
        Transducer.outputs attemptUnbounded limiter calls ∧
      ∀ now, (∀ call ∈ calls, call.2 ≤ now) →
        Agrees now (Transducer.final attempt limiter calls)
          (Transducer.final attemptUnbounded limiter calls) := by
  intro limiter
  refine Transducer.history_induction
    (motive := fun done outputs current =>
      outputs = Transducer.outputs attemptUnbounded limiter done ∧
        ∀ now, (∀ call ∈ done, call.2 ≤ now) →
          Agrees now current
            (Transducer.final attemptUnbounded limiter done))
    calls ⟨rfl, fun now _ => ⟨rfl, rfl, fun node => Or.inl rfl⟩⟩ ?_
  rintro done call rest split ⟨sameOutputs, agrees⟩
  have inTime := split ▸ ordered
  rw [List.pairwise_append] at inTime
  have past : ∀ other ∈ done, other.2 ≤ call.2 := fun other member =>
    inTime.2.2 other member call List.mem_cons_self
  have accounts := accounts_after capacity windowSecs maxTracked inTime.1
    fun other member => UInt64.le_iff_toNat_le.mp (past other member)
  have same := after_sameBounds limiter done
  have few := roomy done call ⟨rest, by simp [split]⟩
  rw [← same.windowSecs, ← same.maxTracked] at few
  obtain ⟨sameAnswer, agreesNext⟩ := (agrees call.2 past).check
    fun unknown => accounts.room (allowed_sublist _ _).subset unknown few
  have positive : ((limiter.after done).attempt call).2.Positive := by
    have kept := check_sameBounds (limiter.after done) call.1 call.2
    constructor
    · exact kept.capacity ▸ accounts.positive.capacity
    · exact kept.windowSecs ▸ accounts.positive.windowSecs
  refine ⟨?_, fun now passed => ?_⟩
  · rw [Transducer.outputs_concat, sameOutputs]
    exact congrArg (fun answer => _ ++ [answer]) sameAnswer
  · rw [Transducer.final_concat]
    exact agreesNext.mono (agreesNext.positive positive)
      (passed call (by simp))

/-! ## A counter for each sender -/

/-- What the counter of a sender knows. -/
def counted (node : String) (limiter : AdmitRateLimiter) :
    Option (Nat × Nat) :=
  (limiter.buckets.lookup node).map fun bucket =>
    (bucket.windowStart.toNat, bucket.count.toNat)

/-- The time of an attempt of a sender. -/
def timeOf (node : String) (call : Attempt) : Option Nat :=
  if call.1 = node then some call.2.toNat else none

theorem counted_insert
    (limiter : AdmitRateLimiter) (bucket : AdmitBucket) :
    counted bucket.node
        { limiter with buckets := limiter.buckets.insert bucket } =
      some (bucket.windowStart.toNat, bucket.count.toNat) := by
  rw [counted, Indexed.lookup_insert_self]
  rfl

/-- A sender's attempt is an admission for its counter. -/
theorem count_eq_counter
    {limiter : AdmitRateLimiter} (positive : limiter.Positive)
    (node : String) (now : UInt64) :
    (limiter.count node now).1 =
        (counter limiter.capacity.toNat limiter.windowSecs.toNat
          (counted node limiter) now.toNat).1 ∧
      counted node (limiter.count node now).2 =
        (counter limiter.capacity.toNat limiter.windowSecs.toNat
          (counted node limiter) now.toNat).2 := by
  have counts := count_counts positive node now
  generalize limiter.count node now = result at counts
  cases counts with
  | opens noWindow =>
      rw [counted_insert limiter { node, windowStart := now, count := 1 }]
      cases found : limiter.buckets.lookup node with
      | none => simp [counted, found, counter]
      | some bucket =>
          have elapsed := (isOver_iff positive).mp (noWindow bucket found)
          simp [counted, found, counter, elapsed]
  | @joins bucket found stillOpen free =>
      have atNode : bucket.node = node := Indexed.key_of_lookup found
      rw [isOver_iff positive] at stillOpen
      rw [UInt32.lt_iff_toNat_lt] at free
      have counts : (bucket.count + 1).toNat = bucket.count.toNat + 1 := by
        have word := limiter.capacity.toNat_lt
        rw [UInt32.toNat_add, UInt32.toNat_one, Nat.mod_eq_of_lt (by omega)]
      subst atNode
      rw [counted_insert limiter { bucket with count := bucket.count + 1 },
        counts]
      simp [counted, found, counter, stillOpen, free]
  | @refuses bucket found stillOpen full =>
      have atNode : bucket.node = node := Indexed.key_of_lookup found
      rw [isOver_iff positive] at stillOpen
      rw [UInt32.le_iff_toNat_le] at full
      subst atNode
      rw [counted_insert]
      simp [counted, found, counter, stillOpen, not_lt.mpr full]

theorem counted_count_of_ne
    (limiter : AdmitRateLimiter) {node other : String} (now : UInt64)
    (different : other ≠ node) :
    counted node (limiter.count other now).2 = counted node limiter := by
  have atOther : (limiter.tally (limiter.buckets.lookup other) other
      now).2.node = other := by
    unfold tally
    dsimp only
    split <;> split <;> rfl
  rw [count_eq, counted, counted, Indexed.lookup_insert_of_ne]
  rw [atOther]
  exact different.symm

/-- A table without a bound is a counter for each sender. -/
theorem outputs_unbounded_eq_counter
    {limiter : AdmitRateLimiter} (positive : limiter.Positive)
    (calls : List Attempt) (node : String) :
    Transducer.outputsAt (timeOf node) attemptUnbounded limiter calls =
      Transducer.outputs
        (counter limiter.capacity.toNat limiter.windowSecs.toNat)
        (counted node limiter) (timesOf node calls) := by
  refine (Transducer.projection
    (fun current => current.Positive ∧ SameBounds limiter current)
    (counted node) (timeOf node)
    (counter limiter.capacity.toNat limiter.windowSecs.toNat)
    ⟨positive, rfl, rfl, rfl⟩ ?_ ?_ ?_ calls).1
  · rintro current call ⟨valid, bounds⟩
    have kept := count_sameBounds current call.1 call.2
    refine ⟨⟨?_, ?_⟩, ?_, ?_, ?_⟩
    · exact kept.capacity ▸ valid.capacity
    · exact kept.windowSecs ▸ valid.windowSecs
    · exact kept.capacity.trans bounds.capacity
    · exact kept.windowSecs.trans bounds.windowSecs
    · exact kept.maxTracked.trans bounds.maxTracked
  · rintro current ⟨other, now⟩ time ⟨valid, bounds⟩ selects
    have answers := count_eq_counter valid node now
    rw [bounds.capacity, bounds.windowSecs] at answers
    obtain ⟨rfl, rfl⟩ : other = node ∧ now.toNat = time := by
      simpa [timeOf] using selects
    exact answers
  · rintro current ⟨other, now⟩ _ unselected
    have foreign : other ≠ node := by simpa [timeOf] using unselected
    exact counted_count_of_ne current now foreign

theorem outputsAt_eq_counter
    (capacity : UInt32) (windowSecs : UInt64) (maxTracked : Nat)
    {calls : List Attempt}
    (ordered : calls.Pairwise fun earlier later => earlier.2 ≤ later.2)
    (roomy : (new capacity windowSecs maxTracked).Roomy calls)
    (node : String) :
    let limiter := new capacity windowSecs maxTracked
    Transducer.outputsAt (timeOf node) attempt limiter calls =
      Transducer.outputs
        (counter limiter.capacity.toNat limiter.windowSecs.toNat) none
        (timesOf node calls) := by
  intro limiter
  have unbounded := (outputs_eq_unbounded capacity windowSecs maxTracked
    ordered roomy).1
  rw [Transducer.outputsAt, unbounded]
  exact outputs_unbounded_eq_counter
    (positive_new capacity windowSecs maxTracked) calls node

/-- Over every run of attempts in the order of time in which no more senders
are active within a window than the table holds, every sender is answered as by
a counter of its own, whatever the other senders do and whatever is evicted. -/
theorem answers_as_counter
    (capacity : UInt32) (windowSecs : UInt64) (maxTracked : Nat)
    (calls : List Attempt)
    (ordered : calls.Pairwise fun earlier later => earlier.2 ≤ later.2)
    (roomy : (new capacity windowSecs maxTracked).Roomy calls)
    (node : String) :
    let limiter := new capacity windowSecs maxTracked
    Transducer.outputsAt (timeOf node) attempt limiter calls =
      Transducer.outputs
        (counter limiter.capacity.toNat limiter.windowSecs.toNat) none
        (timesOf node calls) :=
  outputsAt_eq_counter capacity windowSecs maxTracked ordered roomy node

/-- A table of two, used by three senders one after another. -/
theorem answers_as_counter_in_turns :
    let limiter := new 1 10 2
    Transducer.outputsAt (timeOf "carol") attempt limiter
        [("alice", 0), ("bob", 5), ("carol", 12), ("carol", 13), ("bob", 15),
          ("carol", 22)] =
      Transducer.outputs (counter 1 10) none [12, 13, 22] :=
  answers_as_counter 1 10 2
    [("alice", 0), ("bob", 5), ("carol", 12), ("carol", 13), ("bob", 15),
      ("carol", 22)] (by decide) (by decide) "carol"

end AdmitRateLimiter
end CeMeet
