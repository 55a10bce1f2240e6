import CeMeet.Room.Ending
import CeMeet.Room.Locality

/-!
# Recovery from a snapshot

A room rebuilt from its snapshot answers every operation as the room itself
would, and shows the same roster after it.  The mark of an ended room is not
part of a snapshot, so a room recovers completely exactly if nothing has ended
it.
-/

namespace CeMeet
namespace Room

/-- What can be asked of a view. -/
structure Observation where
  /-- The present members. -/
  present : List String
  /-- The membership state. -/
  digest : List (String ×ₗ Bool ×ₗ UInt64)
  /-- The records. -/
  member : String → Option Member
  /-- The next outbound sequence number. -/
  outboundSeq : UInt64
  /-- Whether the room has been ended. -/
  isEnded : Bool

/-- Ask everything. -/
def observe (room : Room) : Observation :=
  { present := room.present
    digest := room.digest
    member := room.member
    outboundSeq := room.nextSeq
    isEnded := room.ended }

/-- No continuation tells two views apart: all answers are the same, and so is
what can be asked after every step. -/
def Indistinguishable (left right : Room) : Prop :=
  ∀ continuation : List Operation,
    left.answers continuation = right.answers continuation ∧
      (left.after continuation).observe = (right.after continuation).observe

/-- Two views agree in everything but the end mark. -/
structure SameRoster (left right : Room) : Prop where
  roomId : left.roomId = right.roomId
  members : left.members = right.members
  nextSeq : left.nextSeq = right.nextSeq
  maxMembers : left.maxMembers = right.maxMembers

namespace SameRoster

variable {left right : Room}

theorem view (same : SameRoster left right) (peer : String) :
    SameView left right peer where
  lookup := by rw [same.members]
  slot := by
    unfold HasSlot knownCount
    rw [same.members, same.maxMembers]

theorem apply (same : SameRoster left right) (env : SignalEnvelope) :
    (left.apply env).1 = (right.apply env).1 ∧
      SameRoster (left.apply env).2 (right.apply env).2 := by
  obtain ⟨sameEffect, sameRecord⟩ :=
    apply_congr same.roomId (same.view env.sender)
  have leftWrites := apply_writes left env
  have rightWrites := apply_writes right env
  refine ⟨sameEffect, ?_, ?_, ?_, ?_⟩
  · rw [leftWrites.roomId, rightWrites.roomId, same.roomId]
  · ext1 peer
    by_cases atSender : peer = env.sender
    · subst atSender
      exact sameRecord
    · rw [leftWrites.lookup_of_ne atSender, rightWrites.lookup_of_ne atSender,
        same.members]
  · rw [leftWrites.nextSeq, rightWrites.nextSeq, same.nextSeq]
  · rw [leftWrites.maxMembers, rightWrites.maxMembers, same.maxMembers]

theorem store (same : SameRoster left right) (m : Member) :
    SameRoster (left.store m) (right.store m) where
  roomId := same.roomId
  members := by rw [Room.store, Room.store, same.members]
  nextSeq := same.nextSeq
  maxMembers := same.maxMembers

theorem mergeMember
    (same : SameRoster left right) (changed : List String) (om : Member) :
    (mergeMember (changed, left) om).1 = (mergeMember (changed, right) om).1 ∧
      SameRoster (mergeMember (changed, left) om).2
        (mergeMember (changed, right) om).2 := by
  unfold Room.mergeMember
  dsimp only
  rw [same.members]
  split
  · split
    · exact ⟨rfl, same.store _⟩
    · split
      · split <;> exact ⟨rfl, same.store _⟩
      · exact ⟨rfl, same⟩
  · exact ⟨rfl, same.store om⟩

theorem foldl_mergeMember
    (same : SameRoster left right) (oms : List Member)
    (changed : List String) :
    (oms.foldl Room.mergeMember (changed, left)).1 =
        (oms.foldl Room.mergeMember (changed, right)).1 ∧
      SameRoster (oms.foldl Room.mergeMember (changed, left)).2
        (oms.foldl Room.mergeMember (changed, right)).2 := by
  induction oms generalizing changed left right with
  | nil => exact ⟨rfl, same⟩
  | cons om oms inductionHypothesis =>
      obtain ⟨sameChanged, sameNext⟩ := same.mergeMember changed om
      have rest := inductionHypothesis sameNext
        (Room.mergeMember (changed, left) om).1
      rw [List.foldl_cons, List.foldl_cons]
      rwa [Prod.mk.eta, sameChanged, Prod.mk.eta] at rest

theorem mergeSnapshot (same : SameRoster left right) (other : RoomSnapshot) :
    (left.mergeSnapshot other).1 = (right.mergeSnapshot other).1 ∧
      SameRoster (left.mergeSnapshot other).2
        (right.mergeSnapshot other).2 := by
  unfold Room.mergeSnapshot
  rw [same.roomId]
  split
  · exact ⟨rfl, same⟩
  · obtain ⟨sameChanged, sameNext⟩ := same.foldl_mergeMember other.members []
    exact ⟨congrArg (fun changed => changed.mergeSort (· ≤ ·)) sameChanged,
      sameNext⟩

/-- Views that differ in the end mark alone answer alike, and still differ in
nothing else. -/
theorem operate (same : SameRoster left right) (operation : Operation) :
    (left.operate operation).1 = (right.operate operation).1 ∧
      SameRoster (left.operate operation).2 (right.operate operation).2 := by
  cases operation with
  | apply env =>
      obtain ⟨sameEffect, sameNext⟩ := same.apply env
      exact ⟨congrArg Answer.effect sameEffect, sameNext⟩
  | pruneStale now staleSecs =>
      unfold Room.operate pruneStale
      rw [same.members]
      exact ⟨rfl, same.roomId, rfl, same.nextSeq, same.maxMembers⟩
  | mergeSnapshot other =>
      obtain ⟨sameChanged, sameNext⟩ := same.mergeSnapshot other
      exact ⟨congrArg Answer.changed sameChanged, sameNext⟩
  | nextOutboundSeq =>
      unfold Room.operate nextOutboundSeq
      rw [same.nextSeq]
      by_cases atTop : right.nextSeq = UInt64.maxValue
      · rw [if_pos atTop, if_pos atTop]
        exact ⟨rfl, same⟩
      · rw [if_neg atTop, if_neg atTop]
        exact ⟨rfl, same.roomId, same.members, rfl, same.maxMembers⟩
  | resumeOutboundFrom floor =>
      unfold Room.operate resumeOutboundFrom
      rw [same.nextSeq]
      exact ⟨rfl, same.roomId, same.members, rfl, same.maxMembers⟩

/-- The rosters of such views look the same. -/
theorem observe (same : SameRoster left right) :
    { left.observe with isEnded := right.ended } = right.observe := by
  have sameMember : left.member = right.member := by
    funext peer
    rw [member, member, same.members]
  unfold Room.observe present digest
  rw [same.members, same.nextSeq, sameMember]

end SameRoster

/-! ## Main results -/

theorem sameRoster_restore
    {room : Room}
    (defaultCap : room.maxMembers = defaultMaxMembers) :
    SameRoster (restore room.snapshot) room := by
  rw [restore_snapshot]
  exact ⟨rfl, rfl, rfl, defaultCap.symm⟩

/-- A room rebuilt from its snapshot answers every continuation as the room
does, and shows the same roster after it. -/
theorem restore_answers
    {room : Room}
    (defaultCap : room.maxMembers = defaultMaxMembers)
    (continuation : List Operation) :
    (restore room.snapshot).answers continuation = room.answers continuation ∧
      { ((restore room.snapshot).after continuation).observe with
          isEnded := (room.after continuation).ended } =
        (room.after continuation).observe := by
  obtain ⟨sameAnswers, sameLast⟩ :=
    Transducer.bisimulation (sameRoster_restore defaultCap)
      (fun _ _ operation same => same.operate operation) continuation
  exact ⟨sameAnswers, sameLast.observe⟩

/-- Recovery from a snapshot is transparent exactly if nothing has ended the
room. -/
theorem restore_indistinguishable_iff
    (roomId me : String) (operations : List Operation) :
    Indistinguishable (restore ((new roomId me).after operations).snapshot)
        ((new roomId me).after operations) ↔
      ∀ operation ∈ operations, ¬operation.Ends roomId := by
  have defaultCap : ((new roomId me).after operations).maxMembers =
      defaultMaxMembers := after_maxMembers _ operations
  have ended : ((new roomId me).after operations).ended = true ↔
      false = true ∨ ∃ operation ∈ operations, operation.Ends roomId :=
    after_ended_iff
  generalize (new roomId me).after operations = room at defaultCap ended ⊢
  constructor
  · intro indistinguishable operation member ends
    have sameMark : false = room.ended :=
      congrArg Observation.isEnded (indistinguishable []).2
    rw [ended.mpr (Or.inr ⟨operation, member, ends⟩)] at sameMark
    cases sameMark
  · intro unended
    have stillOpen : room.ended = false := by
      rw [← Bool.not_eq_true, ended]
      rintro (impossible | ⟨operation, member, ends⟩)
      · cases impossible
      · exact unended operation member ends
    rw [restore_snapshot, ← defaultCap, ← stillOpen]
    exact fun continuation => ⟨rfl, rfl⟩

/-- A room that its host has ended. -/
def endedRoom : List Operation :=
  [.apply ((SignalEnvelope.broadcast "r" 0 10 (.endRoom none)).withSender
    "host")]

/-- After recovery the room is open again. -/
theorem endedRoom_reopens :
    ¬Indistinguishable (restore ((new "r" "me").after endedRoom).snapshot)
      ((new "r" "me").after endedRoom) := by
  intro indistinguishable
  have same := congrArg Observation.isEnded (indistinguishable []).2
  cases same

end Room
end CeMeet
