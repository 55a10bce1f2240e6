import CeMeet.Room.Merge

/-!
# The member cap

Applying envelopes and pruning keep the number of known members within the cap.
Merging a snapshot adds every member of the snapshot, so a roster stays within
its cap exactly as long as no snapshot is merged that does not fit.
-/

namespace CeMeet
namespace Room

/-- What a participant does with its roster. -/
inductive RosterStep
  | apply (env : SignalEnvelope)
  | pruneStale (now staleSecs : UInt64)
  | mergeSnapshot (other : Room)

/-- Take one step. -/
def perform (room : Room) : RosterStep → Room
  | .apply env => (room.apply env).2
  | .pruneStale now staleSecs => (room.pruneStale now staleSecs).2
  | .mergeSnapshot other => (room.mergeSnapshot other.snapshot).2

/-- The room after a list of steps. -/
def reached (room : Room) (steps : List RosterStep) : Room :=
  steps.foldl perform room

theorem reached_concat
    (room : Room) (done : List RosterStep) (step : RosterStep) :
    room.reached (done ++ [step]) = (room.reached done).perform step := by
  simp [reached]

/-- Whether a step brings only members there is room for. -/
def Fits (room : Room) : RosterStep → Prop
  | .apply _ | .pruneStale .. => True
  | .mergeSnapshot other => other.roomId = room.roomId →
      (room.members.keys ∪ other.members.keys).card ≤ room.maxMembers

theorem perform_roomId (room : Room) (step : RosterStep) :
    (room.perform step).roomId = room.roomId := by
  cases step with
  | apply env => exact (apply_writes room env).roomId
  | pruneStale now staleSecs => rfl
  | mergeSnapshot other => exact mergeSnapshot_roomId room other.snapshot

theorem perform_maxMembers (room : Room) (step : RosterStep) :
    (room.perform step).maxMembers = room.maxMembers := by
  cases step with
  | apply env => exact (apply_writes room env).maxMembers
  | pruneStale now staleSecs => rfl
  | mergeSnapshot other => exact mergeSnapshot_maxMembers room other.snapshot

theorem reached_roomId (room : Room) (steps : List RosterStep) :
    (room.reached steps).roomId = room.roomId := by
  induction steps generalizing room with
  | nil => rfl
  | cons step steps inductionHypothesis =>
      exact (inductionHypothesis _).trans (perform_roomId room step)

/-- A step keeps a roster within its cap exactly when it fits. -/
theorem knownCount_perform_le_iff
    {room : Room}
    (bounded : room.knownCount ≤ room.maxMembers)
    (step : RosterStep) :
    (room.perform step).knownCount ≤ (room.perform step).maxMembers ↔
      room.Fits step := by
  cases step with
  | apply env =>
      exact iff_of_true ((apply_writes room env).knownCount_le bounded) trivial
  | pruneStale now staleSecs =>
      refine iff_of_true ?_ trivial
      unfold perform pruneStale knownCount Indexed.size
      rwa [Indexed.keys_map]
  | mergeSnapshot other =>
      rw [perform_maxMembers, Fits]
      by_cases sameRoom : other.roomId = room.roomId
      · unfold perform knownCount Indexed.size
        rw [mergeSnapshot_keys sameRoom]
        exact ⟨fun fits _ => fits, fun fits => fits sameRoom⟩
      · refine iff_of_true ?_ fun same => absurd same sameRoom
        rw [perform, mergeSnapshot_ignored (by simpa [snapshot] using sameRoom)]
        exact bounded

/-- A roster stays within its cap in every state of a run exactly when every
snapshot merged along the run fits together with the members known before. -/
theorem knownCount_reached_le_iff
    (roomId me : String)
    (cap : Nat)
    (steps : List RosterStep) :
    (∀ done rest, steps = done ++ rest →
        (((new roomId me).withMaxMembers cap).reached done).knownCount ≤
          (((new roomId me).withMaxMembers cap).reached done).maxMembers) ↔
      ∀ done other rest, steps = done ++ .mergeSnapshot other :: rest →
        other.roomId = roomId →
        ((((new roomId me).withMaxMembers cap).reached done).members.keys ∪
            other.members.keys).card ≤
          (((new roomId me).withMaxMembers cap).reached done).maxMembers := by
  have sameRoom : ∀ done,
      (((new roomId me).withMaxMembers cap).reached done).roomId = roomId :=
    fun done => reached_roomId _ done
  constructor
  · intro bounded done other rest split atRoom
    have before := bounded done (.mergeSnapshot other :: rest) split
    have after := bounded (done ++ [.mergeSnapshot other]) rest (by simp [split])
    rw [reached_concat, knownCount_perform_le_iff before] at after
    exact after (atRoom.trans (sameRoom done).symm)
  · intro fits done
    induction done using List.reverseRecOn with
    | nil => exact fun _ _ => Nat.zero_le _
    | append_singleton done step inductionHypothesis =>
        intro rest split
        rw [List.append_assoc, List.singleton_append] at split
        have before := inductionHypothesis (step :: rest) split
        rw [reached_concat, knownCount_perform_le_iff before]
        cases step with
        | apply env => trivial
        | pruneStale now staleSecs => trivial
        | mergeSnapshot other =>
            exact fun atRoom =>
              fits done other rest split (atRoom.trans (sameRoom done))

/-- A room that has heard of two members. -/
def twoMembers : Room :=
  ((new "r" "host").apply
    ((SignalEnvelope.broadcast "r" 0 10 (.join none)).withSender "ann")).2.apply
    ((SignalEnvelope.broadcast "r" 0 10 (.join none)).withSender "bob") |>.2

/-- One merge takes a roster with a cap of one to two members. -/
theorem knownCount_twoMembers_exceeds :
    ¬∀ done rest, [RosterStep.mergeSnapshot twoMembers] = done ++ rest →
      (((new "r" "me").withMaxMembers 1).reached done).knownCount ≤
        (((new "r" "me").withMaxMembers 1).reached done).maxMembers := by
  intro bounded
  have exceeds := bounded [.mergeSnapshot twoMembers] [] rfl
  unfold reached knownCount Indexed.size at exceeds
  rw [List.foldl_cons, List.foldl_nil, perform_maxMembers, perform,
    mergeSnapshot_keys (by rfl)] at exceeds
  revert exceeds
  decide

end Room
end CeMeet
