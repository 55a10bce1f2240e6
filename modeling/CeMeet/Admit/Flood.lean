import CeMeet.Admit.Limits
import Mathlib.Algebra.BigOperators.Group.Finset.Basic
import Mathlib.Algebra.Order.BigOperators.Group.Finset

/-!
# What a flood is allowed

The table of the rate limiter bounds what all senders together are allowed.  At
the start of an interval as long as a window, at most a table of windows is
open, each of which has spent an attempt on its opening.  A window that opens
within the interval outlasts it, so its bucket is still in the table at the end.
-/

namespace CeMeet
namespace AdmitRateLimiter

open FixedWindow

/-- The number of a sender's attempts in a log. -/
def attemptsOf (node : String) (log : List Attempt) : Nat :=
  (log.map Prod.fst).count node

theorem attemptsOf_concat_self (node : String) (log : List Attempt)
    (now : UInt64) :
    attemptsOf node (log ++ [(node, now)]) = attemptsOf node log + 1 := by
  simp [attemptsOf]

theorem attemptsOf_concat_of_ne {node other : String} (log : List Attempt)
    (now : UInt64) (different : other ≠ node) :
    attemptsOf node (log ++ [(other, now)]) = attemptsOf node log := by
  simp [attemptsOf, different]

/-- A limiter whose bounds are positive and whose windows have taken something,
and no more than the capacity. -/
structure Filled (limiter : AdmitRateLimiter) : Prop where
  /-- The bounds are positive. -/
  positive : limiter.Positive
  /-- Every window has been opened by an attempt. -/
  opened : ∀ node bucket, limiter.buckets.lookup node = some bucket →
    0 < bucket.count.toNat
  /-- No window has taken too much. -/
  within : ∀ node bucket, limiter.buckets.lookup node = some bucket →
    bucket.count.toNat ≤ limiter.capacity.toNat

/-- What a sender has been allowed since a time, as far as its bucket tells:
nothing beyond a window that was open at that time, the rest of such a window,
or in addition what its current window has taken. -/
inductive Spent (first : AdmitRateLimiter) (since : UInt64) (node : String)
    (spent : Nat) : Option AdmitBucket → Prop
  | settled
      (few : spent ≤ if node ∈ (first.evict since).buckets.keys then
        first.capacity.toNat - 1 else 0) :
      Spent first since node spent none
  | carried {before bucket : AdmitBucket}
      (found : first.buckets.lookup node = some before)
      (early : bucket.windowStart < since)
      (counted : before.count.toNat + spent = bucket.count.toNat)
      (live : spent = 0 ∨ node ∈ (first.evict since).buckets.keys)
      (same : bucket.windowStart = before.windowStart) :
      Spent first since node spent (some bucket)
  | opened {bucket : AdmitBucket}
      (late : since ≤ bucket.windowStart)
      (few : spent ≤ (if node ∈ (first.evict since).buckets.keys then
        first.capacity.toNat - 1 else 0) + bucket.count.toNat) :
      Spent first since node spent (some bucket)

/-- A limiter and the log of what it has allowed since a time at which it was
another one. -/
structure Spends (first : AdmitRateLimiter) (since : UInt64)
    (limiter : AdmitRateLimiter) (log : List Attempt) : Prop where
  /-- The bounds are the same. -/
  bounds : SameBounds first limiter
  /-- The windows were filled to begin with. -/
  before : first.Filled
  /-- The windows are filled. -/
  filled : limiter.Filled
  /-- Every bucket tells what its sender was allowed. -/
  spent : ∀ node, Spent first since node (attemptsOf node log)
    (limiter.buckets.lookup node)

theorem Filled.evict
    {limiter : AdmitRateLimiter} (filled : limiter.Filled) (now : UInt64) :
    (limiter.evict now).Filled where
  positive := ⟨filled.positive.capacity, filled.positive.windowSecs⟩
  opened := fun node bucket found => by
    rw [AdmitRateLimiter.evict, Indexed.lookup_filter,
      Option.filter_eq_some_iff] at found
    exact filled.opened node bucket found.1
  within := fun node bucket found => by
    rw [AdmitRateLimiter.evict, Indexed.lookup_filter,
      Option.filter_eq_some_iff] at found
    exact filled.within node bucket found.1

theorem Filled.insert
    {limiter : AdmitRateLimiter} (filled : limiter.Filled)
    {bucket : AdmitBucket} (opened : 0 < bucket.count.toNat)
    (within : bucket.count.toNat ≤ limiter.capacity.toNat) :
    ({ limiter with buckets := limiter.buckets.insert bucket } :
      AdmitRateLimiter).Filled where
  positive := ⟨filled.positive.capacity, filled.positive.windowSecs⟩
  opened := fun node other found => by
    dsimp only at found
    rw [Indexed.lookup_insert] at found
    split at found
    case isTrue =>
      cases found
      exact opened
    case isFalse => exact filled.opened node other found
  within := fun node other found => by
    dsimp only at found
    rw [Indexed.lookup_insert] at found
    split at found
    case isTrue =>
      cases found
      exact within
    case isFalse => exact filled.within node other found

/-- Whether a window is open at a time. -/
theorem mem_evict_keys_iff
    {limiter : AdmitRateLimiter} {now : UInt64} {node : String} :
    node ∈ (limiter.evict now).buckets.keys ↔
      ∃ bucket, limiter.buckets.lookup node = some bucket ∧
        ¬limiter.IsOver now bucket := by
  rw [Indexed.mem_keys_iff]
  refine exists_congr fun bucket => ?_
  rw [evict, Indexed.lookup_filter, Option.filter_eq_some_iff, IsOver, not_le,
    decide_eq_true_eq]

namespace Spent

variable {first : AdmitRateLimiter} {since now : UInt64} {node : String}
  {spent : Nat}

/-- A sender whose bucket is gone has been allowed the rest of a window at
most. -/
theorem forget
    {bucket : AdmitBucket}
    (filled : first.Filled)
    (tells : Spent first since node spent (some bucket))
    (within : bucket.count.toNat ≤ first.capacity.toNat)
    (early : bucket.windowStart < since) :
    spent ≤ if node ∈ (first.evict since).buckets.keys then
      first.capacity.toNat - 1 else 0 := by
  cases tells with
  | opened late => exact absurd early late.not_gt
  | carried found _ counted live same =>
      have opened := filled.opened node _ found
      rcases live with none | live
      · rw [none]
        exact Nat.zero_le _
      · rw [if_pos live]
        omega

end Spent

namespace Spends

variable {first limiter : AdmitRateLimiter} {since now : UInt64}
  {log : List Attempt}

/-- A window that is over within the interval was open before it. -/
theorem early_of_isOver
    (spends : Spends first since limiter log)
    (inside : now.toNat < since.toNat + first.windowSecs.toNat)
    {bucket : AdmitBucket} (elapsed : limiter.IsOver now bucket) :
    bucket.windowStart < since := by
  rw [isOver_iff spends.filled.positive, spends.bounds.windowSecs] at elapsed
  rw [UInt64.lt_iff_toNat_lt]
  omega

theorem evict
    (spends : Spends first since limiter log)
    (inside : now.toNat < since.toNat + first.windowSecs.toNat) :
    Spends first since (limiter.evict now) log where
  bounds := ⟨spends.bounds.capacity, spends.bounds.windowSecs,
    spends.bounds.maxTracked⟩
  before := spends.before
  filled := spends.filled.evict now
  spent := fun node => by
    have tells := spends.spent node
    rw [AdmitRateLimiter.evict, Indexed.lookup_filter]
    cases found : limiter.buckets.lookup node with
    | none =>
        rw [found] at tells
        exact tells
    | some bucket =>
        rw [found] at tells
        by_cases elapsed : limiter.IsOver now bucket
        · rw [Option.filter_some_neg (by simpa [IsOver] using elapsed)]
          have within := spends.filled.within node bucket found
          rw [spends.bounds.capacity] at within
          exact .settled (tells.forget spends.before within
            (spends.early_of_isOver inside elapsed))
        · rw [Option.filter_some_pos (by simpa [IsOver] using elapsed)]
          exact tells

/-- A bucket that tells what its sender was allowed, with an attempt added. -/
theorem insert
    (spends : Spends first since limiter log)
    (bucket : AdmitBucket)
    (opened : 0 < bucket.count.toNat)
    (within : bucket.count.toNat ≤ limiter.capacity.toNat)
    (tells : Spent first since bucket.node
      (attemptsOf bucket.node log + 1) (some bucket)) :
    Spends first since
      { limiter with buckets := limiter.buckets.insert bucket }
      (log ++ [(bucket.node, now)]) where
  bounds := ⟨spends.bounds.capacity, spends.bounds.windowSecs,
    spends.bounds.maxTracked⟩
  before := spends.before
  filled := spends.filled.insert opened within
  spent := fun node => by
    dsimp only
    by_cases same : node = bucket.node
    · subst same
      rw [attemptsOf_concat_self, Indexed.lookup_insert_self]
      exact tells
    · rw [attemptsOf_concat_of_ne log now (Ne.symm same),
        Indexed.lookup_insert_of_ne _ same]
      exact spends.spent node

theorem count
    (spends : Spends first since limiter log) (node : String)
    (notBefore : since ≤ now)
    (inside : now.toNat < since.toNat + first.windowSecs.toNat) :
    Spends first since (limiter.count node now).2
      (log ++ if (limiter.count node now).1 then [(node, now)] else []) := by
  have counts := count_counts spends.filled.positive node now
  have tells := spends.spent node
  generalize limiter.count node now = result at counts ⊢
  cases counts with
  | opens noWindow =>
      have someCapacity :=
        UInt32.lt_iff_toNat_lt.mp spends.filled.positive.capacity
      have few : attemptsOf node log ≤
          if node ∈ (first.evict since).buckets.keys then
            first.capacity.toNat - 1 else 0 := by
        cases found : limiter.buckets.lookup node with
        | none =>
            rw [found] at tells
            cases tells with | settled few => exact few
        | some bucket =>
            rw [found] at tells
            have within := spends.filled.within node bucket found
            rw [spends.bounds.capacity] at within
            exact tells.forget spends.before within
              (spends.early_of_isOver inside (noWindow bucket found))
      rw [if_pos rfl]
      exact spends.insert { node, windowStart := now, count := 1 }
        Nat.one_pos someCapacity
        (.opened notBefore (Nat.add_le_add_right few 1))
  | @joins bucket found stillOpen free =>
      have atNode : bucket.node = node := Indexed.key_of_lookup found
      have within := spends.filled.within node bucket found
      rw [UInt32.lt_iff_toNat_lt] at free
      have counted : (bucket.count + 1).toNat = bucket.count.toNat + 1 := by
        have word := limiter.capacity.toNat_lt
        rw [UInt32.toNat_add, UInt32.toNat_one, Nat.mod_eq_of_lt (by omega)]
      subst atNode
      rw [found] at tells
      rw [if_pos rfl]
      refine spends.insert { bucket with count := bucket.count + 1 }
        ?_ ?_ ?_
      · dsimp only
        omega
      · dsimp only
        omega
      · cases tells with
        | opened late few =>
            refine .opened late ?_
            dsimp only
            omega
        | carried foundBefore early counts live same =>
            refine .carried foundBefore early ?_ (Or.inr ?_) same
            · dsimp only
              omega
            · rw [mem_evict_keys_iff]
              refine ⟨_, foundBefore, ?_⟩
              rw [isOver_iff spends.filled.positive,
                spends.bounds.windowSecs, same] at stillOpen
              rw [isOver_iff spends.before.positive]
              have passed := UInt64.le_iff_toNat_le.mp notBefore
              omega
  | @refuses bucket found stillOpen full =>
      have atNode : bucket.node = node := Indexed.key_of_lookup found
      have kept : ∀ other, (limiter.buckets.insert bucket).lookup other =
          limiter.buckets.lookup other := by
        intro other
        rw [Indexed.lookup_insert]
        split
        case isTrue same => rw [same, atNode, found]
        case isFalse => rfl
      rw [if_neg Bool.false_ne_true, List.append_nil]
      exact
        { bounds := ⟨spends.bounds.capacity, spends.bounds.windowSecs,
            spends.bounds.maxTracked⟩
          before := spends.before
          filled := spends.filled.insert
            (spends.filled.opened node bucket found)
            (spends.filled.within node bucket found)
          spent := fun other => by
            dsimp only
            rw [kept]
            exact spends.spent other }

theorem attempt
    (spends : Spends first since limiter log) (call : Attempt)
    (notBefore : since ≤ call.2)
    (inside : call.2.toNat < since.toNat + first.windowSecs.toNat) :
    Spends first since (limiter.attempt call).2
      (log ++ if (limiter.attempt call).1 then [call] else []) := by
  obtain ⟨node, now⟩ := call
  unfold AdmitRateLimiter.attempt check
  dsimp only
  split
  case isTrue =>
    split
    case isTrue =>
      rw [if_neg Bool.false_ne_true, List.append_nil]
      exact spends.evict inside
    case isFalse => exact (spends.evict inside).count node notBefore inside
  case isFalse => exact spends.count node notBefore inside

/-- With nothing allowed yet, every bucket tells so. -/
theorem start (filled : first.Filled) : Spends first since first [] where
  bounds := ⟨rfl, rfl, rfl⟩
  before := filled
  filled := filled
  spent := fun node => by
    cases found : first.buckets.lookup node with
    | none => exact .settled (Nat.zero_le _)
    | some bucket =>
        by_cases early : bucket.windowStart < since
        · exact .carried found early (Nat.add_zero _) (Or.inl rfl) rfl
        · exact .opened (UInt64.not_lt.mp early) (Nat.zero_le _)

/-- Every bucket tells what its sender was allowed in an interval as long as a
window. -/
theorem after
    (filled : first.Filled) {calls : List Attempt}
    (inside : ∀ call ∈ calls, since ≤ call.2 ∧
      call.2.toNat < since.toNat + first.windowSecs.toNat) :
    Spends first since (first.after calls) (first.allowed calls) := by
  induction calls using List.reverseRecOn with
  | nil => exact start filled
  | append_singleton calls call inductionHypothesis =>
      have earlier := inductionHypothesis fun other member =>
        inside other (List.mem_append_left _ member)
      obtain ⟨notBefore, withinReach⟩ := inside call (by simp)
      rw [after_concat, allowed_concat]
      exact earlier.attempt call notBefore withinReach

/-- A sender has been allowed the rest of a window that was open in the
beginning, and the window that is in the table. -/
theorem attemptsOf_le
    (spends : Spends first since limiter log) (node : String) :
    attemptsOf node log ≤
      (if node ∈ (first.evict since).buckets.keys then
        first.capacity.toNat - 1 else 0) +
      if node ∈ limiter.buckets.keys then first.capacity.toNat else 0 := by
  have tells := spends.spent node
  cases found : limiter.buckets.lookup node with
  | none =>
      rw [found] at tells
      cases tells with | settled few =>
        exact few.trans (Nat.le_add_right _ _)
  | some bucket =>
      have within := spends.filled.within node bucket found
      rw [spends.bounds.capacity] at within
      rw [found] at tells
      rw [if_pos (Indexed.mem_keys_of_lookup found)]
      cases tells with
      | carried _ _ counted => omega
      | opened _ few => exact few.trans (Nat.add_le_add_left within _)

/-- All senders together have been allowed the rest of the windows that were
open in the beginning, and the windows that are in the table. -/
theorem length_le (spends : Spends first since limiter log) :
    log.length ≤
      (first.evict since).tracked * (first.capacity.toNat - 1) +
        limiter.tracked * first.capacity.toNat := by
  have perSender : ∑ node ∈ (log.map Prod.fst).toFinset, attemptsOf node log =
      log.length := by
    rw [← List.length_map (Prod.fst : Attempt → String)]
    exact List.sum_toFinset_count_eq_length _
  have capped (keys : Finset String) (spent : Nat) :
      ∑ node ∈ (log.map Prod.fst).toFinset, (if node ∈ keys then spent else 0) ≤
        keys.card * spent := by
    rw [← Finset.sum_filter, Finset.sum_const_nat fun _ _ => rfl]
    refine Nat.mul_le_mul_right _ (Finset.card_le_card fun node member => ?_)
    exact (Finset.mem_filter.mp member).2
  rw [← perSender]
  refine (Finset.sum_le_sum fun node _ => spends.attemptsOf_le node).trans ?_
  rw [Finset.sum_add_distrib]
  exact Nat.add_le_add (capped _ _) (capped _ _)

end Spends

/-! ## Runs -/

/-- A limiter that accounts for what it has allowed is filled. -/
theorem Accounts.filled
    {limiter : AdmitRateLimiter} {now : Nat} {log : List Attempt}
    (accounts : Accounts limiter now log) : limiter.Filled where
  positive := accounts.positive
  opened := fun node bucket found => by
    have own := accounts.remembers node
    rw [found] at own
    cases own with | current windowed counted => _
    rw [counted]
    exact List.countP_pos_iff.mpr
      ⟨_, windowed.opened, decide_eq_true le_rfl⟩
  within := fun node bucket found => by
    have own := accounts.remembers node
    rw [found] at own
    cases own with | current windowed counted => _
    rw [counted]
    exact windowed.current

theorem allowed_append
    (limiter : AdmitRateLimiter) (done rest : List Attempt) :
    limiter.allowed (done ++ rest) =
      limiter.allowed done ++ (limiter.after done).allowed rest := by
  rw [allowed, Transducer.outputs_append,
    List.zip_append (Transducer.length_outputs done).symm, List.filter_append,
    List.map_append]
  rfl

theorem after_append
    (limiter : AdmitRateLimiter) (done rest : List Attempt) :
    limiter.after (done ++ rest) = (limiter.after done).after rest :=
  Transducer.final_append done rest

/-- Only attempts that were made are allowed. -/
theorem allowed_sublist (limiter : AdmitRateLimiter) (calls : List Attempt) :
    (limiter.allowed calls).Sublist calls := by
  have made : ((calls.zip (Transducer.outputs attempt limiter calls)).filter
      Prod.snd).Sublist
        (calls.zip (Transducer.outputs attempt limiter calls)) :=
    List.filter_sublist
  have kept := made.map Prod.fst
  rwa [List.map_fst_zip (Transducer.length_outputs calls).ge] at kept

/-- The number of attempts in a log from one time up to another. -/
def attemptsBetween (since upTo : Nat) (log : List Attempt) : Nat :=
  hits (log.map fun call => call.2.toNat) since upTo

theorem attemptsBetween_append (since upTo : Nat) (done rest : List Attempt) :
    attemptsBetween since upTo (done ++ rest) =
      attemptsBetween since upTo done + attemptsBetween since upTo rest := by
  simp [attemptsBetween, hits, List.countP_append]

theorem attemptsBetween_le_length (since upTo : Nat) (log : List Attempt) :
    attemptsBetween since upTo log ≤ log.length := by
  rw [← List.length_map (fun call : Attempt => call.2.toNat)]
  exact List.countP_le_length

theorem attemptsBetween_eq_zero
    {since upTo : Nat} {log : List Attempt}
    (outside : ∀ call ∈ log, call.2.toNat < since ∨ upTo ≤ call.2.toNat) :
    attemptsBetween since upTo log = 0 := by
  rw [attemptsBetween, hits, List.countP_eq_zero]
  intro time member
  obtain ⟨call, made, rfl⟩ := List.mem_map.mp member
  have := outside call made
  simp only [decide_eq_true_eq]
  omega

/-- Attempts in the order of time are cut at a time. -/
theorem cut_at
    {calls : List Attempt}
    (ordered : calls.Pairwise fun earlier later => earlier.2 ≤ later.2)
    (time : Nat) :
    ∃ done rest, calls = done ++ rest ∧
      (∀ call ∈ done, call.2.toNat < time) ∧
      ∀ call ∈ rest, time ≤ call.2.toNat := by
  induction calls with
  | nil => exact ⟨[], [], rfl, by simp, by simp⟩
  | cons call calls inductionHypothesis =>
      rw [List.pairwise_cons] at ordered
      by_cases early : call.2.toNat < time
      · obtain ⟨done, rest, split, before, after⟩ :=
          inductionHypothesis ordered.2
        refine ⟨call :: done, rest, by rw [split, List.cons_append], ?_, after⟩
        exact List.forall_mem_cons.mpr ⟨early, before⟩
      · refine ⟨[], call :: calls, rfl, by simp, ?_⟩
        refine List.forall_mem_cons.mpr ⟨not_lt.mp early, fun other member => ?_⟩
        exact (not_lt.mp early).trans
          (UInt64.le_iff_toNat_le.mp (ordered.1 other member))

/-- What a fresh limiter allows all senders within an interval as long as a
window. -/
theorem attemptsBetween_allowed_le
    (capacity : UInt32) (windowSecs : UInt64) (maxTracked : Nat)
    {calls : List Attempt}
    (ordered : calls.Pairwise fun earlier later => earlier.2 ≤ later.2)
    (since : UInt64) :
    let limiter := new capacity windowSecs maxTracked
    attemptsBetween since.toNat (since.toNat + limiter.windowSecs.toNat)
        (limiter.allowed calls) ≤
      limiter.maxTracked * (2 * limiter.capacity.toNat - 1) := by
  intro limiter
  obtain ⟨done, rest, rfl, before, notBefore⟩ := cut_at ordered since.toNat
  rw [List.pairwise_append] at ordered
  obtain ⟨during, later, rfl, inside, after⟩ :=
    cut_at ordered.2.1 (since.toNat + limiter.windowSecs.toNat)
  have accounts := accounts_after capacity windowSecs maxTracked ordered.1
    fun call _ => Nat.le_of_lt call.2.toNat_lt
  have same := after_sameBounds limiter done
  have spends : Spends (limiter.after done) since
      ((limiter.after done).after during)
      ((limiter.after done).allowed during) :=
    .after accounts.filled fun call member => ⟨
      UInt64.le_iff_toNat_le.mpr
        (notBefore call (List.mem_append_left _ member)),
      same.windowSecs ▸ inside call member⟩
  have total := spends.length_le
  have old := (tracked_evict_le (limiter.after done) since).trans
    (tracked_after_le (Nat.zero_le _) done)
  have new : (limiter.after (done ++ during)).tracked ≤ limiter.maxTracked :=
    tracked_after_le (Nat.zero_le _) (done ++ during)
  rw [after_append] at new
  rw [same.capacity] at total
  have someCapacity := UInt32.lt_iff_toNat_lt.mp accounts.positive.capacity
  rw [same.capacity, UInt32.toNat_zero] at someCapacity
  have outsideBefore : attemptsBetween since.toNat
      (since.toNat + limiter.windowSecs.toNat) (limiter.allowed done) = 0 :=
    attemptsBetween_eq_zero fun call member =>
      Or.inl (before call ((allowed_sublist _ _).subset member))
  have outsideAfter : attemptsBetween since.toNat
      (since.toNat + limiter.windowSecs.toNat)
      (((limiter.after done).after during).allowed later) = 0 :=
    attemptsBetween_eq_zero fun call member =>
      Or.inr (after call ((allowed_sublist _ _).subset member))
  rw [allowed_append, allowed_append, attemptsBetween_append,
    attemptsBetween_append, outsideBefore, outsideAfter, Nat.zero_add,
    Nat.add_zero]
  refine (attemptsBetween_le_length _ _ _).trans (total.trans ?_)
  calc (((limiter.after done).evict since).tracked *
          (limiter.capacity.toNat - 1) +
        ((limiter.after done).after during).tracked * limiter.capacity.toNat)
      ≤ limiter.maxTracked * (limiter.capacity.toNat - 1) +
          limiter.maxTracked * limiter.capacity.toNat :=
        Nat.add_le_add (Nat.mul_le_mul_right _ old) (Nat.mul_le_mul_right _ new)
    _ = limiter.maxTracked *
          (limiter.capacity.toNat - 1 + limiter.capacity.toNat) :=
        (Nat.mul_add _ _ _).symm
    _ = limiter.maxTracked * (2 * limiter.capacity.toNat - 1) := by
        congr 1
        omega

/-- Over every run of attempts in the order of time, all senders together are
allowed no more within an interval as long as a window than the rest of a table
of open windows and a table of full windows, however many senders there are. -/
theorem allows_boundedly_in_total
    (capacity : UInt32) (windowSecs : UInt64) (maxTracked : Nat)
    (calls : List Attempt)
    (ordered : calls.Pairwise fun earlier later => earlier.2 ≤ later.2)
    (since : UInt64) :
    let limiter := new capacity windowSecs maxTracked
    attemptsBetween since.toNat (since.toNat + limiter.windowSecs.toNat)
        (limiter.allowed calls) ≤
      limiter.maxTracked * (2 * limiter.capacity.toNat - 1) :=
  attemptsBetween_allowed_le capacity windowSecs maxTracked ordered since

/-- Two senders exhaust a table of two windows, and a third one is refused. -/
theorem allows_boundedly_in_total_at_most :
    let calls : List Attempt :=
      [("alice", 0), ("bob", 0), ("alice", 9), ("bob", 9), ("carol", 9),
        ("alice", 10), ("bob", 10), ("alice", 10), ("bob", 10)]
    attemptsBetween 1 (1 + 10) ((new 2 10 2).allowed calls) = 6 ∧
      attemptsBetween 1 (1 + 10) ((new 2 10 2).allowed calls) ≤
        2 * (2 * 2 - 1) :=
  ⟨by decide, allows_boundedly_in_total 2 10 2 _ (by decide) 1⟩

end AdmitRateLimiter
end CeMeet
