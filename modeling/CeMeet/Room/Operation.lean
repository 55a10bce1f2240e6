import CeMeet.Foundation.Transducer
import CeMeet.Room.Merge

/-!
# Operations of a room

What a participant can do with its view of a room, and the answers it gets.  A
history of a view is a run of these operations.
-/

namespace CeMeet
namespace Room

/-- What a participant does with its view of a room. -/
inductive Operation
  | apply (env : SignalEnvelope)
  | pruneStale (now staleSecs : UInt64)
  | mergeSnapshot (other : RoomSnapshot)
  | nextOutboundSeq
  | resumeOutboundFrom (floor : UInt64)

/-- What an operation returns. -/
inductive Answer
  | effect (effect : Effect)
  | pruned (nodeIds : List String)
  | changed (nodeIds : List String)
  | allocated (seq : Option UInt64)
  | resumed (next : UInt64)

/-- Perform an operation.  A counter that cannot be incremented stays as it
is. -/
def operate (room : Room) : Operation → Answer × Room
  | .apply env =>
      let (effect, room) := room.apply env
      (.effect effect, room)
  | .pruneStale now staleSecs =>
      let (pruned, room) := room.pruneStale now staleSecs
      (.pruned pruned, room)
  | .mergeSnapshot other =>
      let (changed, room) := room.mergeSnapshot other
      (.changed changed, room)
  | .nextOutboundSeq =>
      match room.nextOutboundSeq with
      | some (seq, room) => (.allocated (some seq), room)
      | none => (.allocated none, room)
  | .resumeOutboundFrom floor =>
      let (next, room) := room.resumeOutboundFrom floor
      (.resumed next, room)

/-- The view after a list of operations. -/
abbrev after (room : Room) (operations : List Operation) : Room :=
  Transducer.final operate room operations

/-- The answers to a list of operations. -/
abbrev answers (room : Room) (operations : List Operation) : List Answer :=
  Transducer.outputs operate room operations

@[simp] theorem after_nil (room : Room) : room.after [] = room := rfl

@[simp] theorem after_cons
    (room : Room) (operation : Operation) (operations : List Operation) :
    room.after (operation :: operations) =
      (room.operate operation).2.after operations := rfl

theorem after_append (room : Room) (done rest : List Operation) :
    room.after (done ++ rest) = (room.after done).after rest :=
  Transducer.final_append done rest

/-- Allocating a number leaves everything but the counter alone. -/
theorem operate_nextOutboundSeq (room : Room) :
    ∃ seq nextSeq, room.operate .nextOutboundSeq =
      (.allocated seq, { room with nextSeq }) := by
  unfold operate nextOutboundSeq
  by_cases atTop : room.nextSeq = UInt64.maxValue
  · exact ⟨none, room.nextSeq, by rw [if_pos atTop]⟩
  · exact ⟨some room.nextSeq, room.nextSeq + 1, by rw [if_neg atTop]⟩

@[simp] theorem operate_roomId (room : Room) (operation : Operation) :
    (room.operate operation).2.roomId = room.roomId := by
  cases operation with
  | apply env => exact (apply_writes room env).roomId
  | pruneStale now staleSecs => rfl
  | mergeSnapshot other => exact mergeSnapshot_roomId room other
  | nextOutboundSeq =>
      obtain ⟨seq, nextSeq, allocated⟩ := operate_nextOutboundSeq room
      rw [allocated]
  | resumeOutboundFrom floor => rfl

@[simp] theorem operate_maxMembers (room : Room) (operation : Operation) :
    (room.operate operation).2.maxMembers = room.maxMembers := by
  cases operation with
  | apply env => exact (apply_writes room env).maxMembers
  | pruneStale now staleSecs => rfl
  | mergeSnapshot other => exact mergeSnapshot_maxMembers room other
  | nextOutboundSeq =>
      obtain ⟨seq, nextSeq, allocated⟩ := operate_nextOutboundSeq room
      rw [allocated]
  | resumeOutboundFrom floor => rfl

theorem after_roomId (room : Room) (operations : List Operation) :
    (room.after operations).roomId = room.roomId :=
  Transducer.invariant (motive := fun current => current.roomId = room.roomId)
    rfl
    (fun current operation same => (operate_roomId current operation).trans same)
    operations

theorem after_maxMembers (room : Room) (operations : List Operation) :
    (room.after operations).maxMembers = room.maxMembers :=
  Transducer.invariant
    (motive := fun current => current.maxMembers = room.maxMembers)
    rfl
    (fun current operation same =>
      (operate_maxMembers current operation).trans same)
    operations

end Room
end CeMeet
