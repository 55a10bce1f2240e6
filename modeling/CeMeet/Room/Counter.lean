import CeMeet.Room.Operation

/-!
# The outbound counter

The counter is incremented by every allocation and raised by every floor, so
its value is reached from where it started, or from one of the floors, by the
allocations made since.  A floor is any word, and from the greatest one there
is no next number.
-/

namespace CeMeet
namespace Room

/-- What the counter of a room promises along a run. -/
structure CountsUp (room : Room) (operations : List Operation) : Prop where
  /-- No increment overflows. -/
  noOverflow : ∀ done rest, operations = done ++ .nextOutboundSeq :: rest →
    ∃ seq next, (room.after done).nextOutboundSeq = some (seq, next)
  /-- A number is greater than those allocated before. -/
  ascends : ∀ done between rest seq next later last,
    operations =
      done ++ .nextOutboundSeq :: (between ++ .nextOutboundSeq :: rest) →
    (room.after done).nextOutboundSeq = some (seq, next) →
    (room.after (done ++ .nextOutboundSeq :: between)).nextOutboundSeq =
      some (later, last) →
    seq < later
  /-- A number is at least the floors given before. -/
  aboveFloors : ∀ done floor between rest seq next,
    operations =
      done ++ .resumeOutboundFrom floor ::
        (between ++ .nextOutboundSeq :: rest) →
    (room.after
      (done ++ .resumeOutboundFrom floor :: between)).nextOutboundSeq =
        some (seq, next) →
    floor ≤ seq

/-- The number of allocations among operations. -/
def allocations (operations : List Operation) : Nat :=
  operations.countP fun
    | .nextOutboundSeq => true
    | _ => false

/-- The allocations of a run lead to a bound neither from the start of the
counter nor from a floor given on the way. -/
structure StaysBelow (start bound : Nat) (operations : List Operation) :
    Prop where
  /-- All allocations count from the start. -/
  fromStart : start + allocations operations < bound
  /-- Those after a floor count from the floor. -/
  fromFloors : ∀ done floor since,
    operations = done ++ .resumeOutboundFrom floor :: since →
    floor.toNat + allocations since < bound

/-- Whenever a number is allocated, the allocations made so far lead neither
from the start of the counter nor from a floor given before to the greatest
word. -/
def LeavesNumbers (room : Room) (operations : List Operation) : Prop :=
  ∀ done rest, operations = done ++ .nextOutboundSeq :: rest →
    StaysBelow room.nextSeq.toNat UInt64.maxValue.toNat done

/-! ## One operation -/

theorem mergeSnapshot_nextSeq (room : Room) (other : RoomSnapshot) :
    (room.mergeSnapshot other).2.nextSeq = room.nextSeq :=
  mergeSnapshot_keeps (fun _ _ => rfl) room other

/-- What an operation does to the counter. -/
theorem operate_nextSeq (room : Room) (operation : Operation) :
    (room.operate operation).2.nextSeq =
      match operation with
      | .nextOutboundSeq =>
          if room.nextSeq = UInt64.maxValue then room.nextSeq
          else room.nextSeq + 1
      | .resumeOutboundFrom floor => max room.nextSeq floor
      | _ => room.nextSeq := by
  cases operation with
  | apply env => exact (apply_writes room env).nextSeq
  | pruneStale now staleSecs => rfl
  | mergeSnapshot other => exact mergeSnapshot_nextSeq room other
  | nextOutboundSeq =>
      unfold operate nextOutboundSeq
      dsimp only
      by_cases atTop : room.nextSeq = UInt64.maxValue
      · rw [if_pos atTop, if_pos atTop]
      · rw [if_neg atTop, if_neg atTop]
  | resumeOutboundFrom floor => rfl

/-- The counter never goes backwards. -/
theorem nextSeq_le_operate (room : Room) (operation : Operation) :
    room.nextSeq ≤ (room.operate operation).2.nextSeq := by
  rw [operate_nextSeq]
  cases operation with
  | nextOutboundSeq =>
      dsimp only
      split
      · exact le_rfl
      next available =>
        rw [UInt64.le_iff_toNat_le, UInt64.toNat_add_one_of_ne available]
        exact Nat.le_succ _
  | resumeOutboundFrom floor => exact le_max_left _ _
  | apply | pruneStale | mergeSnapshot => exact le_rfl

theorem nextSeq_le_after (room : Room) (operations : List Operation) :
    room.nextSeq ≤ (room.after operations).nextSeq :=
  Transducer.invariant
    (motive := fun current : Room => room.nextSeq ≤ current.nextSeq)
    le_rfl
    (fun current operation reached =>
      reached.trans (nextSeq_le_operate current operation))
    operations

/-! ## A run -/

theorem allocations_cons (operation : Operation)
    (operations : List Operation) :
    allocations (operation :: operations) =
      allocations operations +
        match operation with
        | .nextOutboundSeq => 1
        | _ => 0 := by
  cases operation <;> simp [allocations]

theorem staysBelow_cons_iff
    {start bound : Nat} {operation : Operation}
    {operations : List Operation} :
    StaysBelow start bound (operation :: operations) ↔
      StaysBelow
        (match operation with
          | .nextOutboundSeq => start + 1
          | .resumeOutboundFrom floor => max start floor.toNat
          | _ => start)
        bound operations := by
  have counted := allocations_cons operation operations
  constructor
  · rintro ⟨fromStart, fromFloors⟩
    refine ⟨?_, fun done floor since split =>
      fromFloors (operation :: done) floor since (by rw [split]; rfl)⟩
    rw [counted] at fromStart
    cases operation with
    | nextOutboundSeq =>
        dsimp only at fromStart ⊢
        omega
    | resumeOutboundFrom floor =>
        have fromFloor := fromFloors [] floor operations rfl
        dsimp only at fromStart ⊢
        omega
    | apply | pruneStale | mergeSnapshot => exact fromStart
  · rintro ⟨fromStart, fromFloors⟩
    refine ⟨?_, fun done floor since split => ?_⟩
    · rw [counted]
      cases operation with
      | nextOutboundSeq =>
          dsimp only at fromStart ⊢
          omega
      | resumeOutboundFrom floor =>
          dsimp only at fromStart ⊢
          omega
      | apply | pruneStale | mergeSnapshot => exact fromStart
    · cases done with
      | nil =>
          cases split
          dsimp only at fromStart
          omega
      | cons first done =>
          exact fromFloors done floor since (List.cons.inj split).2

/-- As long as no allocation has failed the counter is below a bound exactly if
neither its start nor a floor leads to the bound. -/
theorem nextSeq_after_lt_iff
    {room : Room} {operations : List Operation}
    (succeeds : ∀ done rest,
      operations = done ++ .nextOutboundSeq :: rest →
      (room.after done).nextSeq ≠ UInt64.maxValue)
    (bound : Nat) :
    (room.after operations).nextSeq.toNat < bound ↔
      StaysBelow room.nextSeq.toNat bound operations := by
  induction operations generalizing room with
  | nil =>
      refine ⟨fun below => ⟨below, fun done _ _ split => ?_⟩,
        fun stays => stays.fromStart⟩
      cases done <;> cases split
  | cons operation operations inductionHypothesis =>
      have rest := @inductionHypothesis (room.operate operation).2
        fun done rest split =>
          succeeds (operation :: done) rest (by rw [split]; rfl)
      rw [after_cons, rest, staysBelow_cons_iff, operate_nextSeq]
      cases operation with
      | nextOutboundSeq =>
          have available := succeeds [] operations rfl
          rw [after_nil] at available
          dsimp only
          rw [if_neg available, UInt64.toNat_add_one_of_ne available]
      | resumeOutboundFrom floor =>
          have raised : (max room.nextSeq floor).toNat =
              max room.nextSeq.toNat floor.toNat :=
            Monotone.map_max fun left right atMost =>
              UInt64.le_iff_toNat_le.mp atMost
          dsimp only
          rw [raised]
      | apply | pruneStale | mergeSnapshot => exact Iff.rfl

/-- No allocation fails exactly if the run leaves numbers. -/
theorem noOverflow_iff_leavesNumbers
    {room : Room} {operations : List Operation} :
    (∀ done rest, operations = done ++ .nextOutboundSeq :: rest →
        (room.after done).nextSeq ≠ UInt64.maxValue) ↔
      room.LeavesNumbers operations := by
  have below : ∀ word : UInt64,
      word ≠ UInt64.maxValue ↔ word.toNat < UInt64.maxValue.toNat := by
    intro word
    rw [← UInt64.lt_iff_toNat_lt, lt_iff_le_and_ne]
    exact (and_iff_right (UInt64.le_maxValue word)).symm
  constructor
  · intro succeeds done rest split
    rw [← nextSeq_after_lt_iff, ← below]
    · exact succeeds done rest split
    · rintro before between rfl
      exact succeeds before (between ++ .nextOutboundSeq :: rest)
        (by simp [split])
  · intro leaves done
    induction size : done.length using Nat.strong_induction_on
      generalizing done with
    | _ size inductionHypothesis =>
        intro rest split
        rw [below, nextSeq_after_lt_iff]
        · exact leaves done rest split
        · rintro before between rfl
          exact inductionHypothesis before.length (by simp [← size]) before rfl
            (between ++ .nextOutboundSeq :: rest) (by simp [split])

/-- Along every run of any room the counter keeps its promises exactly if no
allocation is made when the allocations so far lead from the start of the
counter, or from a floor given before, to the greatest word. -/
theorem countsUp_iff (room : Room) (operations : List Operation) :
    room.CountsUp operations ↔ room.LeavesNumbers operations := by
  rw [← noOverflow_iff_leavesNumbers]
  constructor
  · intro counts done rest split
    obtain ⟨seq, next, allocated⟩ := counts.noOverflow done rest split
    exact (nextOutboundSeq_eq_some_iff.mp allocated).1
  · intro succeeds
    refine ⟨fun done rest split => ?_, ?_, ?_⟩
    · exact ⟨_, _, nextOutboundSeq_eq_some_iff.mpr
        ⟨succeeds done rest split, rfl, rfl⟩⟩
    · intro done between rest seq next later last _ allocated laterAllocated
      obtain ⟨available, rfl, rfl⟩ :=
        nextOutboundSeq_eq_some_iff.mp allocated
      obtain ⟨_, rfl, _⟩ := nextOutboundSeq_eq_some_iff.mp laterAllocated
      rw [after_append, after_cons]
      refine lt_of_lt_of_le ?_ (nextSeq_le_after _ between)
      rw [operate_nextSeq]
      dsimp only
      rw [if_neg available, UInt64.lt_iff_toNat_lt,
        UInt64.toNat_add_one_of_ne available]
      exact Nat.lt_succ_self _
    · intro done floor between rest seq next _ allocated
      obtain ⟨_, rfl, _⟩ := nextOutboundSeq_eq_some_iff.mp allocated
      rw [after_append, after_cons]
      refine le_trans ?_ (nextSeq_le_after _ between)
      rw [operate_nextSeq]
      exact le_max_right _ _

/-- A floor at the greatest word, and an allocation. -/
def floorAtTop : List Operation :=
  [.resumeOutboundFrom UInt64.maxValue, .nextOutboundSeq]

/-- After such a floor the increment overflows. -/
theorem floorAtTop_overflows :
    ((new "r" "me").after [.resumeOutboundFrom
        UInt64.maxValue]).nextOutboundSeq = none ∧
      ¬(new "r" "me").CountsUp floorAtTop := by
  refine ⟨rfl, fun counts => ?_⟩
  obtain ⟨seq, next, allocated⟩ :=
    counts.noOverflow [.resumeOutboundFrom UInt64.maxValue] [] rfl
  cases allocated

end Room
end CeMeet
