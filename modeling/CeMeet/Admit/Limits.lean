import CeMeet.Admit.RateLimiter
import CeMeet.Foundation.FixedWindow
import CeMeet.Foundation.Transducer

/-!
# What the rate limiter allows and refuses

A sender without a bucket has never been allowed an attempt, or its window is
over.  So the attempts it is allowed are cut into windows whatever is evicted,
and a refusal is due to a full window of the sender or to the recent windows of
others.
-/

namespace CeMeet
namespace AdmitRateLimiter

open FixedWindow

/-- An attempt: the sender and the time. -/
abbrev Attempt := String × UInt64

/-- Record an attempt. -/
def attempt (limiter : AdmitRateLimiter) (call : Attempt) :
    Bool × AdmitRateLimiter :=
  limiter.check call.1 call.2

/-- The limiter after a list of attempts. -/
def after (limiter : AdmitRateLimiter) (calls : List Attempt) :
    AdmitRateLimiter :=
  Transducer.final attempt limiter calls

/-- The attempts that are allowed. -/
def allowed (limiter : AdmitRateLimiter) (calls : List Attempt) :
    List Attempt :=
  ((calls.zip (Transducer.outputs attempt limiter calls)).filter
    Prod.snd).map Prod.fst

/-- The times of a sender's attempts. -/
def timesOf (node : String) (calls : List Attempt) : List Nat :=
  calls.filterMap fun call =>
    if call.1 = node then some call.2.toNat else none

theorem after_concat
    (limiter : AdmitRateLimiter) (calls : List Attempt) (call : Attempt) :
    limiter.after (calls ++ [call]) =
      ((limiter.after calls).attempt call).2 :=
  Transducer.final_concat calls call

theorem allowed_concat
    (limiter : AdmitRateLimiter) (calls : List Attempt) (call : Attempt) :
    limiter.allowed (calls ++ [call]) =
      limiter.allowed calls ++
        if ((limiter.after calls).attempt call).1 then [call] else [] := by
  rw [allowed, Transducer.outputs_concat,
    List.zip_append (Transducer.length_outputs calls).symm,
    List.filter_append, List.map_append, ← allowed]
  congr 1
  cases accepts : ((limiter.after calls).attempt call).1 <;>
    simp [after] at accepts <;> simp [accepts]

theorem timesOf_append (node : String) (done rest : List Attempt) :
    timesOf node (done ++ rest) = timesOf node done ++ timesOf node rest :=
  List.filterMap_append

theorem mem_timesOf_iff {node : String} {calls : List Attempt} {time : Nat} :
    time ∈ timesOf node calls ↔
      ∃ now, (node, now) ∈ calls ∧ now.toNat = time := by
  simp [timesOf, List.mem_filterMap]

@[simp] theorem timesOf_self (node : String) (now : UInt64) :
    timesOf node [(node, now)] = [now.toNat] := by
  simp [timesOf]

theorem timesOf_of_ne {node other : String} (different : other ≠ node)
    (now : UInt64) : timesOf node [(other, now)] = [] := by
  simp [timesOf, different]

/-! ## One sender -/

/-- What a limiter knows of a sender, given the times of its allowed attempts:
nothing if there are none, the bucket of the current window, or nothing because
that window is over. -/
inductive Remembers (capacity width now : Nat) (log : List Nat) :
    Option AdmitBucket → Prop
  | unseen (unseen : log = []) : Remembers capacity width now log none
  | current {bucket : AdmitBucket}
      (windowed : Windowed capacity width log bucket.windowStart.toNat)
      (counted :
        bucket.count.toNat = hitsFrom log bucket.windowStart.toNat) :
      Remembers capacity width now log (some bucket)
  | forgotten {start : Nat}
      (windowed : Windowed capacity width log start)
      (elapsed : start + width ≤ now) :
      Remembers capacity width now log none

namespace Remembers

variable {capacity width now later : Nat} {log : List Nat}
  {bucket : Option AdmitBucket}

theorem mono
    (remembers : Remembers capacity width now log bucket)
    (passes : now ≤ later) :
    Remembers capacity width later log bucket := by
  cases remembers with
  | unseen unseen => exact .unseen unseen
  | current windowed counted => exact .current windowed counted
  | forgotten windowed elapsed => exact .forgotten windowed (elapsed.trans passes)

/-- A bucket may be forgotten once its window is over. -/
theorem filter
    (remembers : Remembers capacity width now log bucket)
    {keep : AdmitBucket → Bool}
    (keepsFresh : ∀ bucket, keep bucket = false →
      bucket.windowStart.toNat + width ≤ now) :
    Remembers capacity width now log (bucket.filter keep) := by
  cases remembers with
  | unseen unseen => exact .unseen unseen
  | forgotten windowed elapsed => exact .forgotten windowed elapsed
  | @current bucket windowed counted =>
      cases kept : keep bucket with
      | false =>
          rw [Option.filter_some_neg (by simp [kept])]
          exact .forgotten windowed (keepsFresh bucket kept)
      | true =>
          rw [Option.filter_some_pos kept]
          exact .current windowed counted

/-- Without a current window, an allowed attempt opens one. -/
theorem opens
    (someCapacity : 0 < capacity) (someWidth : 0 < width)
    (remembers : Remembers capacity width now log bucket)
    (noWindow : ∀ held, bucket = some held →
      held.windowStart.toNat + width ≤ now) :
    Windowed capacity width (log ++ [now]) now ∧
      hitsFrom (log ++ [now]) now = 1 := by
  rw [hitsFrom_concat, if_pos le_rfl]
  cases remembers with
  | unseen unseen =>
      rw [unseen]
      exact ⟨.first someCapacity someWidth, rfl⟩
  | forgotten windowed elapsed =>
      rw [windowed.hitsFrom_eq_zero elapsed]
      exact ⟨windowed.reopen someWidth elapsed, rfl⟩
  | current windowed counted =>
      have elapsed := noWindow _ rfl
      rw [windowed.hitsFrom_eq_zero elapsed]
      exact ⟨windowed.reopen someWidth elapsed, rfl⟩

/-- Within a current window that is not full, an allowed attempt is counted. -/
theorem joins
    {held : AdmitBucket}
    (remembers : Remembers capacity width now log (some held))
    (later : held.windowStart.toNat ≤ now)
    (inside : now < held.windowStart.toNat + width)
    (free : held.count.toNat < capacity)
    (word : capacity < 2 ^ 32) :
    Remembers capacity width now (log ++ [now])
      (some { held with count := held.count + 1 }) := by
  cases remembers with | current windowed counted => _
  have counts : (held.count + 1).toNat = held.count.toNat + 1 := by
    rw [UInt32.toNat_add, UInt32.toNat_one, Nat.mod_eq_of_lt (by omega)]
  refine .current (windowed.join later inside (counted ▸ free)) ?_
  dsimp only
  rw [hitsFrom_concat, if_pos later, ← counted, counts]

/-- No interval as long as a window meets two full windows. -/
theorem bounded
    (someCapacity : 0 < capacity)
    (remembers : Remembers capacity width now log bucket) (since : Nat) :
    hits log since (since + width) < 2 * capacity := by
  cases remembers with
  | unseen unseen =>
      rw [unseen]
      exact Nat.mul_pos Nat.two_pos someCapacity
  | current windowed counted => exact windowed.bounded since
  | forgotten windowed elapsed => exact windowed.bounded since

end Remembers

/-! ## One attempt -/

/-- A limiter whose bounds are positive. -/
structure Positive (limiter : AdmitRateLimiter) : Prop where
  capacity : 0 < limiter.capacity
  windowSecs : 0 < limiter.windowSecs

/-- Whether the window of a bucket is over. -/
def IsOver (limiter : AdmitRateLimiter) (now : UInt64) (bucket : AdmitBucket) :
    Prop :=
  limiter.windowSecs ≤ now.saturatingSub bucket.windowStart

theorem isOver_iff
    {limiter : AdmitRateLimiter} (positive : limiter.Positive)
    {now : UInt64} {bucket : AdmitBucket} :
    limiter.IsOver now bucket ↔
      bucket.windowStart.toNat + limiter.windowSecs.toNat ≤ now.toNat := by
  have someWidth := UInt64.lt_iff_toNat_lt.mp positive.windowSecs
  rw [UInt64.toNat_zero] at someWidth
  rw [IsOver, UInt64.le_iff_toNat_le, UInt64.toNat_saturatingSub]
  omega

/-- An attempt opens a window, is counted in the sender's window, or finds that
window full. -/
inductive Counts (limiter : AdmitRateLimiter) (node : String) (now : UInt64) :
    Bool × AdmitRateLimiter → Prop
  | opens
      (noWindow : ∀ bucket, limiter.buckets.lookup node = some bucket →
        limiter.IsOver now bucket) :
      Counts limiter node now (true,
        { limiter with
          buckets := limiter.buckets.insert
            { node, windowStart := now, count := 1 } })
  | joins {bucket : AdmitBucket}
      (found : limiter.buckets.lookup node = some bucket)
      (inside : ¬limiter.IsOver now bucket)
      (free : bucket.count < limiter.capacity) :
      Counts limiter node now (true,
        { limiter with
          buckets := limiter.buckets.insert
            { bucket with count := bucket.count + 1 } })
  | refuses {bucket : AdmitBucket}
      (found : limiter.buckets.lookup node = some bucket)
      (inside : ¬limiter.IsOver now bucket)
      (full : limiter.capacity ≤ bucket.count) :
      Counts limiter node now (false,
        { limiter with buckets := limiter.buckets.insert bucket })

theorem count_counts
    {limiter : AdmitRateLimiter} (positive : limiter.Positive)
    (node : String) (now : UInt64) :
    Counts limiter node now (limiter.count node now) := by
  have opensEmpty : ¬limiter.capacity ≤ 0 :=
    UInt32.not_le.mpr positive.capacity
  cases found : limiter.buckets.lookup node with
  | none =>
      have started : ¬limiter.windowSecs ≤ now.saturatingSub now := by
        rw [UInt64.le_iff_toNat_le, UInt64.toNat_saturatingSub, Nat.sub_self]
        exact not_le.mpr (UInt64.lt_iff_toNat_lt.mp positive.windowSecs)
      have counted : limiter.count node now =
          (true,
            { limiter with
              buckets := limiter.buckets.insert
                { node, windowStart := now, count := 1 } }) := by
        simp [count, found, started, opensEmpty]
      exact counted ▸ .opens (by simp [found])
  | some bucket =>
      have atNode : bucket.node = node := Indexed.key_of_lookup found
      have same : { bucket with node } = bucket := by rw [← atNode]
      by_cases elapsed : limiter.IsOver now bucket
      · have counted : limiter.count node now =
            (true,
              { limiter with
                buckets := limiter.buckets.insert
                  { node, windowStart := now, count := 1 } }) := by
          simp [count, found, if_pos (show _ ≤ _ from elapsed), opensEmpty]
        refine counted ▸ .opens fun other otherFound => ?_
        rw [found] at otherFound
        exact Option.some.inj otherFound ▸ elapsed
      · by_cases full : limiter.capacity ≤ bucket.count
        · have counted : limiter.count node now =
              (false,
                { limiter with buckets := limiter.buckets.insert bucket }) := by
            simp [count, found, if_neg (show ¬_ ≤ _ from elapsed), full, same]
          exact counted ▸ .refuses found elapsed full
        · have counted : limiter.count node now =
              (true,
                { limiter with
                  buckets := limiter.buckets.insert
                    { bucket with count := bucket.count + 1 } }) := by
            simp [count, found, if_neg (show ¬_ ≤ _ from elapsed), full, atNode]
          exact counted ▸ .joins found elapsed (UInt32.not_le.mp full)

/-- Two limiters have the same bounds. -/
structure SameBounds (limiter other : AdmitRateLimiter) : Prop where
  capacity : other.capacity = limiter.capacity
  windowSecs : other.windowSecs = limiter.windowSecs
  maxTracked : other.maxTracked = limiter.maxTracked

theorem count_sameBounds
    (limiter : AdmitRateLimiter) (node : String) (now : UInt64) :
    SameBounds limiter (limiter.count node now).2 := by
  unfold count
  dsimp only
  split <;> split <;> exact ⟨rfl, rfl, rfl⟩

theorem check_sameBounds
    (limiter : AdmitRateLimiter) (node : String) (now : UInt64) :
    SameBounds limiter (limiter.check node now).2 := by
  unfold check
  dsimp only
  split
  case isTrue =>
    split
    case isTrue => exact ⟨rfl, rfl, rfl⟩
    case isFalse =>
      have counted := count_sameBounds (limiter.evict now) node now
      exact ⟨counted.capacity, counted.windowSecs, counted.maxTracked⟩
  case isFalse => exact count_sameBounds limiter node now

theorem after_sameBounds (limiter : AdmitRateLimiter) (calls : List Attempt) :
    SameBounds limiter (limiter.after calls) :=
  Transducer.invariant
    (motive := fun current => SameBounds limiter current)
    ⟨rfl, rfl, rfl⟩
    (fun current call same =>
      let kept := check_sameBounds current call.1 call.2
      ⟨kept.capacity.trans same.capacity,
        kept.windowSecs.trans same.windowSecs,
        kept.maxTracked.trans same.maxTracked⟩)
    calls

/-! ## A run of attempts -/

/-- What a limiter knows after a log of allowed attempts. -/
structure Accounts (limiter : AdmitRateLimiter) (now : Nat)
    (log : List Attempt) : Prop where
  /-- The bounds are positive. -/
  positive : limiter.Positive
  /-- Every sender is remembered. -/
  remembers : ∀ node,
    Remembers limiter.capacity.toNat limiter.windowSecs.toNat now
      (timesOf node log) (limiter.buckets.lookup node)
  /-- The log is in the past. -/
  past : ∀ entry ∈ log, entry.2.toNat ≤ now

theorem Accounts.mono
    {limiter : AdmitRateLimiter} {now later : Nat} {log : List Attempt}
    (accounts : Accounts limiter now log) (passes : now ≤ later) :
    Accounts limiter later log where
  positive := accounts.positive
  remembers := fun node => (accounts.remembers node).mono passes
  past := fun entry member => (accounts.past entry member).trans passes

theorem Accounts.evict
    {limiter : AdmitRateLimiter} {now : UInt64} {log : List Attempt}
    (accounts : Accounts limiter now.toNat log) :
    Accounts (limiter.evict now) now.toNat log where
  positive := ⟨accounts.positive.capacity, accounts.positive.windowSecs⟩
  remembers := by
    intro node
    rw [AdmitRateLimiter.evict, Indexed.lookup_filter]
    refine (accounts.remembers node).filter fun bucket stale => ?_
    refine (isOver_iff accounts.positive).mp ?_
    exact not_lt.mp (of_decide_eq_false stale)
  past := accounts.past

/-- The window of a bucket has begun. -/
theorem Accounts.windowStart_le
    {limiter : AdmitRateLimiter} {now : Nat} {log : List Attempt}
    (accounts : Accounts limiter now log)
    {node : String} {bucket : AdmitBucket}
    (found : limiter.buckets.lookup node = some bucket) :
    bucket.windowStart.toNat ≤ now := by
  have own := accounts.remembers node
  rw [found] at own
  cases own with | current windowed counted => _
  obtain ⟨start, started, equal⟩ := mem_timesOf_iff.mp windowed.opened
  rw [← equal]
  exact accounts.past _ started

/-- A bucket that remembers its sender with an attempt added accounts for the
attempt. -/
theorem Accounts.insert
    {limiter : AdmitRateLimiter} {now : UInt64} {log : List Attempt}
    (accounts : Accounts limiter now.toNat log)
    {bucket : AdmitBucket}
    (remembers :
      Remembers limiter.capacity.toNat limiter.windowSecs.toNat now.toNat
        (timesOf bucket.node log ++ [now.toNat]) (some bucket)) :
    Accounts { limiter with buckets := limiter.buckets.insert bucket }
      now.toNat (log ++ [(bucket.node, now)]) where
  positive := ⟨accounts.positive.capacity, accounts.positive.windowSecs⟩
  remembers := by
    intro other
    dsimp only
    rw [timesOf_append]
    by_cases same : other = bucket.node
    · rw [same, timesOf_self, Indexed.lookup_insert, if_pos rfl]
      exact remembers
    · rw [timesOf_of_ne (Ne.symm same), List.append_nil,
        Indexed.lookup_insert_of_ne _ same]
      exact accounts.remembers other
  past := by
    intro entry member
    rcases List.mem_append.mp member with earlier | new
    · exact accounts.past entry earlier
    · rw [List.mem_singleton.mp new]

/-- Counting an attempt adds it to the log if it is allowed. -/
theorem Accounts.count
    {limiter : AdmitRateLimiter} {now : UInt64} {log : List Attempt}
    (accounts : Accounts limiter now.toNat log) (node : String) :
    Accounts (limiter.count node now).2 now.toNat
      (log ++ if (limiter.count node now).1 then [(node, now)] else []) := by
  have counts := count_counts accounts.positive node now
  have own := accounts.remembers node
  generalize limiter.count node now = result at counts ⊢
  cases counts with
  | opens noWindow =>
      have someWidth := UInt64.lt_iff_toNat_lt.mp accounts.positive.windowSecs
      have someCapacity := UInt32.lt_iff_toNat_lt.mp accounts.positive.capacity
      have opened := own.opens someCapacity someWidth fun held found =>
        (isOver_iff accounts.positive).mp (noWindow held found)
      rw [if_pos rfl]
      exact accounts.insert (.current opened.1 opened.2.symm)
  | @joins bucket found inside free =>
      have atNode : bucket.node = node := Indexed.key_of_lookup found
      have later := accounts.windowStart_le found
      rw [isOver_iff accounts.positive, not_le] at inside
      rw [UInt32.lt_iff_toNat_lt] at free
      subst atNode
      rw [found] at own
      rw [if_pos rfl]
      exact accounts.insert (own.joins later inside free
        limiter.capacity.toNat_lt)
  | @refuses bucket found inside full =>
      have atNode : bucket.node = node := Indexed.key_of_lookup found
      rw [if_neg Bool.false_ne_true, List.append_nil]
      refine ⟨⟨accounts.positive.capacity, accounts.positive.windowSecs⟩,
        fun other => ?_, accounts.past⟩
      have kept : (limiter.buckets.insert bucket).lookup other =
          limiter.buckets.lookup other := by
        rw [Indexed.lookup_insert]
        split
        case isTrue same => rw [same, atNode, found]
        case isFalse => rfl
      rw [kept]
      exact accounts.remembers other

/-- So does recording an attempt. -/
theorem Accounts.attempt
    {limiter : AdmitRateLimiter} {last : Nat} {log : List Attempt}
    (accounts : Accounts limiter last log)
    (call : Attempt) (later : last ≤ call.2.toNat) :
    Accounts (limiter.attempt call).2 call.2.toNat
      (log ++ if (limiter.attempt call).1 then [call] else []) := by
  obtain ⟨node, now⟩ := call
  have atNow := accounts.mono later
  unfold AdmitRateLimiter.attempt check
  dsimp only
  split
  case isTrue =>
    split
    case isTrue =>
      rw [if_neg Bool.false_ne_true, List.append_nil]
      exact atNow.evict
    case isFalse => exact atNow.evict.count node
  case isFalse => exact atNow.count node

theorem positive_new
    (capacity : UInt32) (windowSecs : UInt64) (maxTracked : Nat) :
    (new capacity windowSecs maxTracked).Positive where
  capacity := by
    change 0 < if capacity ≤ 1 then 1 else capacity
    split
    case isTrue => decide
    case isFalse large => exact UInt32.lt_trans (by decide) (UInt32.not_le.mp large)
  windowSecs := lt_max_of_lt_right (by decide)

/-- After attempts in the order of time a limiter accounts for those it has
allowed. -/
theorem accounts_after
    (capacity : UInt32) (windowSecs : UInt64) (maxTracked : Nat)
    {calls : List Attempt} {now : Nat}
    (ordered : calls.Pairwise fun earlier later => earlier.2 ≤ later.2)
    (past : ∀ call ∈ calls, call.2.toNat ≤ now) :
    Accounts ((new capacity windowSecs maxTracked).after calls) now
      ((new capacity windowSecs maxTracked).allowed calls) := by
  induction calls using List.reverseRecOn generalizing now with
  | nil =>
      exact
        { positive := positive_new capacity windowSecs maxTracked
          remembers := fun node => .unseen rfl
          past := by simp [allowed] }
  | append_singleton calls call inductionHypothesis =>
      rw [List.pairwise_append] at ordered
      have earlier := inductionHypothesis ordered.1 fun other member =>
        UInt64.le_iff_toNat_le.mp
          (ordered.2.2 other member call (List.mem_singleton_self call))
      rw [after_concat, allowed_concat]
      exact (earlier.attempt call le_rfl).mono (past call (by simp))

/-! ## What is allowed -/

theorem tracked_after_le
    {limiter : AdmitRateLimiter}
    (bounded : limiter.tracked ≤ limiter.maxTracked) (calls : List Attempt) :
    (limiter.after calls).tracked ≤ limiter.maxTracked := by
  induction calls using List.reverseRecOn with
  | nil => exact bounded
  | append_singleton calls call inductionHypothesis =>
      have same := (after_sameBounds limiter calls).maxTracked
      rw [← same] at inductionHypothesis
      obtain ⟨kept, sameNext⟩ :=
        tracked_check_le inductionHypothesis call.1 call.2
      rw [after_concat]
      exact kept.trans_eq (sameNext.trans same)

/-- Over every run of attempts in the order of time, never more senders than
the bound are tracked, and within any interval as long as a window a sender is
allowed less than twice the capacity, whatever the other senders do. -/
theorem allows_boundedly
    (capacity : UInt32) (windowSecs : UInt64) (maxTracked : Nat)
    (calls : List Attempt)
    (ordered : calls.Pairwise fun earlier later => earlier.2 ≤ later.2) :
    let limiter := new capacity windowSecs maxTracked
    (∀ done, done <+: calls →
        (limiter.after done).tracked ≤ limiter.maxTracked) ∧
      ∀ node since,
        hits (timesOf node (limiter.allowed calls)) since
            (since + limiter.windowSecs.toNat) ≤
          2 * limiter.capacity.toNat - 1 := by
  intro limiter
  refine ⟨fun done _ => tracked_after_le (Nat.zero_le _) done,
    fun node since => ?_⟩
  have accounts := accounts_after capacity windowSecs maxTracked ordered
    fun call _ => Nat.le_of_lt call.2.toNat_lt
  have same := after_sameBounds limiter calls
  have someCapacity := UInt32.lt_iff_toNat_lt.mp accounts.positive.capacity
  have bounded := (accounts.remembers node).bounded someCapacity since
  rw [same.capacity, same.windowSecs] at bounded
  exact Nat.le_sub_one_of_lt bounded

/-- Two full windows, of which the interval misses the first attempt only. -/
theorem allows_boundedly_across_windows :
    let limiter := new 2 10 4
    hits (timesOf "alice" (limiter.allowed
        [("alice", 0), ("alice", 9), ("alice", 10), ("bob", 11),
          ("alice", 12), ("alice", 13)])) 9 (9 + 10) ≤ 2 * 2 - 1 :=
  (allows_boundedly 2 10 4 _ (by decide)).2 "alice" 9

/-! ## What is refused -/

/-- The causes of a refusal: the sender has been allowed the capacity within
the last window, or as many other senders as are tracked at most have been
allowed an attempt within it. -/
def Justified (limiter : AdmitRateLimiter) (log : List Attempt)
    (node : String) (now : UInt64) : Prop :=
  limiter.capacity.toNat ≤
      hits (timesOf node log) (now.toNat + 1 - limiter.windowSecs.toNat)
        (now.toNat + 1) ∨
    ∃ others : Finset String, limiter.maxTracked ≤ others.card ∧
      node ∉ others ∧
      ∀ other ∈ others, ∃ time, (other, time) ∈ log ∧
        now.toNat < time.toNat + limiter.windowSecs.toNat ∧ time ≤ now

/-- An attempt that a full window refuses is one too many. -/
theorem Accounts.justifies_count
    {limiter : AdmitRateLimiter} {now : UInt64} {log : List Attempt}
    (accounts : Accounts limiter now.toNat log) {node : String}
    (refused : (limiter.count node now).1 = false) :
    Justified limiter log node now := by
  have counts := count_counts accounts.positive node now
  have own := accounts.remembers node
  generalize limiter.count node now = result at counts refused
  cases counts with
  | opens => cases refused
  | joins => cases refused
  | @refuses bucket found inside full =>
      rw [found] at own
      cases own with | current windowed counted => _
      rw [isOver_iff accounts.positive, not_le] at inside
      rw [UInt32.le_iff_toNat_le, counted] at full
      refine Or.inl (full.trans (List.countP_mono_left ?_))
      intro time member recent
      obtain ⟨moment, entry, rfl⟩ := mem_timesOf_iff.mp member
      have past : moment.toNat ≤ now.toNat := accounts.past _ entry
      simp only [decide_eq_true_eq] at recent ⊢
      omega

/-- An attempt that a full table refuses is due to others. -/
theorem Accounts.justifies_table
    {limiter : AdmitRateLimiter} {now : UInt64} {log : List Attempt}
    (accounts : Accounts limiter now.toNat log) {node : String}
    (unknown : node ∉ limiter.buckets.keys)
    (full : limiter.maxTracked ≤ (limiter.evict now).tracked) :
    Justified limiter log node now := by
  have recent : ∀ other ∈ (limiter.evict now).buckets.keys,
      ∃ bucket, limiter.buckets.lookup other = some bucket ∧
        ¬limiter.IsOver now bucket := by
    intro other member
    obtain ⟨bucket, found⟩ := Indexed.mem_keys_iff.mp member
    rw [AdmitRateLimiter.evict, Indexed.lookup_filter,
      Option.filter_eq_some_iff] at found
    exact ⟨bucket, found.1, not_le.mpr (of_decide_eq_true found.2)⟩
  refine Or.inr ⟨(limiter.evict now).buckets.keys, full, fun member => ?_,
    fun other member => ?_⟩
  · obtain ⟨bucket, found, _⟩ := recent node member
    exact unknown (Indexed.mem_keys_of_lookup found)
  · obtain ⟨bucket, found, inside⟩ := recent other member
    have own := accounts.remembers other
    rw [found] at own
    cases own with | current windowed counted => _
    obtain ⟨time, entry, opened⟩ := mem_timesOf_iff.mp windowed.opened
    rw [isOver_iff accounts.positive, not_le, ← opened] at inside
    exact ⟨time, entry, inside, UInt64.le_iff_toNat_le.mpr
      (accounts.past _ entry)⟩

/-- In every run of attempts in the order of time a refusal is justified by
what was allowed before it. -/
theorem refuses_for_cause
    (capacity : UInt32) (windowSecs : UInt64) (maxTracked : Nat)
    (done : List Attempt) (node : String) (now : UInt64)
    (ordered : (done ++ [(node, now)]).Pairwise
      fun earlier later => earlier.2 ≤ later.2) :
    let limiter := new capacity windowSecs maxTracked
    ((limiter.after done).check node now).1 = false →
      Justified limiter (limiter.allowed done) node now := by
  intro limiter refused
  rw [List.pairwise_append] at ordered
  have accounts := accounts_after capacity windowSecs maxTracked ordered.1
    fun call member => UInt64.le_iff_toNat_le.mp
      (ordered.2.2 call member _ (List.mem_singleton_self _))
  have same := after_sameBounds limiter done
  suffices justified :
      Justified (limiter.after done) (limiter.allowed done) node now by
    rwa [Justified, same.capacity, same.windowSecs, same.maxTracked]
      at justified
  unfold check at refused
  dsimp only at refused
  split at refused
  case isTrue unknown =>
    split at refused
    case isTrue full => exact accounts.justifies_table unknown.1 full
    case isFalse => exact accounts.evict.justifies_count refused
  case isFalse => exact accounts.justifies_count refused

/-- A limiter of one sender refuses another one. -/
theorem refuses_for_cause_of_other :
    Justified (new 2 10 1) ((new 2 10 1).allowed [("alice", 5)]) "bob" 9 :=
  refuses_for_cause 2 10 1 [("alice", 5)] "bob" 9 (by decide) (by decide)

end AdmitRateLimiter
end CeMeet
