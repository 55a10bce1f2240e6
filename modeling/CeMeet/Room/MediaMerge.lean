import CeMeet.Room.Convergence
import CeMeet.Room.MediaRegister
import CeMeet.Room.Merge

/-!
# Media state under a merge

A merge copies the record of a member it did not know, media state included,
and leaves the media state of a member it knew as it was.  Two replicas that
exchange their snapshots therefore agree in their media state afterwards
exactly if they agreed before about every member that both knew.
-/

namespace CeMeet

/-- The register with the higher floor, the left one of two with one floor. -/
def MediaRegister.newer : Option MediaRegister → Option MediaRegister →
    Option MediaRegister
  | some left, some right => if left.1 < right.1 then some right else some left
  | some left, none => some left
  | none, right => right

namespace Room

/-- Two replicas that merge each other's snapshot hold, of every member and
dimension, the register with the higher floor. -/
def ReconcilesMedia (left right : Room) : Prop :=
  ∀ peer dimension,
    (left.mergeSnapshot right.snapshot).2.mediaRegister peer dimension =
        MediaRegister.newer (left.mediaRegister peer dimension)
          (right.mediaRegister peer dimension) ∧
      (right.mergeSnapshot left.snapshot).2.mediaRegister peer dimension =
        MediaRegister.newer (left.mediaRegister peer dimension)
          (right.mediaRegister peer dimension)

/-! ## Merging one record -/

/-- Merging the record of a member that is known leaves its media state alone,
and merging that of an unknown one copies it. -/
theorem mediaRegister_mergeMember
    (changed : List String) (room : Room) (om : Member)
    (peer : String) (dimension : MediaDimension) :
    (mergeMember (changed, room) om).2.mediaRegister peer dimension =
      (room.mediaRegister peer dimension).or
        (if peer = om.nodeId then some (om.mediaRegister dimension)
          else none) := by
  by_cases here : peer = om.nodeId
  · subst here
    rw [if_pos rfl]
    have merges := mergeMember_cases changed room om
    generalize mergeMember (changed, room) om = merged at merges ⊢
    cases merges with
    | unknown unknown =>
        rw [mediaRegister_of_unknown unknown]
        exact mediaRegister_store rfl rfl
    | newer found atNode | removes found atNode | keeps found atNode =>
        rw [mediaRegister_of_lookup found, Option.some_or]
        refine mediaRegister_store atNode ?_
        cases dimension <;> rfl
    | older found =>
        rw [mediaRegister_of_lookup found, Option.some_or]
  · rw [if_neg here, Option.or_none, mediaRegister, member,
      mergeMember_lookup_of_ne changed room here]
    rfl

/-- Merging records of a table. -/
theorem mediaRegister_foldl_mergeMember
    {other : Room} {oms : List Member}
    (recorded : ∀ om ∈ oms, other.members.lookup om.nodeId = some om)
    (changed : List String) (room : Room)
    (peer : String) (dimension : MediaDimension) :
    (oms.foldl mergeMember (changed, room)).2.mediaRegister peer dimension =
      (room.mediaRegister peer dimension).or
        (if peer ∈ oms.map Member.nodeId then other.mediaRegister peer dimension
          else none) := by
  induction oms generalizing changed room with
  | nil => simp
  | cons om oms inductionHypothesis =>
      rw [List.forall_mem_cons] at recorded
      have merged := mediaRegister_mergeMember changed room om peer dimension
      rw [List.foldl_cons]
      generalize mergeMember (changed, room) om = step at merged ⊢
      obtain ⟨nextChanged, next⟩ := step
      rw [inductionHypothesis recorded.2, merged, Option.or_assoc, List.map_cons]
      by_cases here : peer = om.nodeId
      · subst here
        rw [if_pos rfl, if_pos List.mem_cons_self, Option.some_or,
          mediaRegister_of_lookup recorded.1]
      · simp [here]

/-- A merge adds the media state of the members it did not know. -/
theorem mediaRegister_mergeSnapshot
    {room other : Room}
    (sameRoom : other.roomId = room.roomId)
    (peer : String) (dimension : MediaDimension) :
    (room.mergeSnapshot other.snapshot).2.mediaRegister peer dimension =
      (room.mediaRegister peer dimension).or
        (other.mediaRegister peer dimension) := by
  unfold mergeSnapshot
  rw [if_neg (by simpa [snapshot] using sameRoom)]
  refine (mediaRegister_foldl_mergeMember
    (fun om member => Indexed.mem_sorted_iff.mp member) [] room peer
    dimension).trans ?_
  split
  case isTrue => rfl
  case isFalse unlisted =>
    have unknown : peer ∉ other.members.keys := by
      rwa [← map_nodeId_sorted, List.mem_toFinset]
    rw [mediaRegister_of_unknown (Indexed.notMem_keys_iff.mp unknown)]

/-! ## Main result -/

/-- Replicas that exchange their snapshots reconcile their media state exactly
if they agreed before about every member that both knew. -/
theorem reconcilesMedia_iff
    {left right : Room}
    (sameRoom : left.roomId = right.roomId) :
    ReconcilesMedia left right ↔
      ∀ peer m other, left.member peer = some m → right.member peer = some other →
        ∀ dimension, m.mediaRegister dimension = other.mediaRegister dimension := by
  constructor
  · intro reconciles peer m other leftKnows rightKnows dimension
    obtain ⟨leftNewer, rightNewer⟩ := reconciles peer dimension
    rw [mediaRegister_mergeSnapshot sameRoom.symm,
      mediaRegister_of_lookup leftKnows, Option.some_or,
      mediaRegister_of_lookup rightKnows] at leftNewer
    rw [mediaRegister_mergeSnapshot sameRoom,
      mediaRegister_of_lookup rightKnows, Option.some_or,
      mediaRegister_of_lookup leftKnows] at rightNewer
    exact Option.some.inj (leftNewer.trans rightNewer.symm)
  · intro agree peer dimension
    rw [mediaRegister_mergeSnapshot sameRoom.symm,
      mediaRegister_mergeSnapshot sameRoom]
    cases leftKnows : left.members.lookup peer with
    | none =>
        rw [mediaRegister_of_unknown leftKnows, Option.none_or, Option.or_none]
        exact ⟨rfl, rfl⟩
    | some m =>
        rw [mediaRegister_of_lookup leftKnows, Option.some_or]
        cases rightKnows : right.members.lookup peer with
        | none =>
            rw [mediaRegister_of_unknown rightKnows, Option.none_or]
            exact ⟨rfl, rfl⟩
        | some other =>
            rw [mediaRegister_of_lookup rightKnows, Option.some_or,
              ← agree peer m other leftKnows rightKnows]
            simp [MediaRegister.newer]

/-- A member joins. -/
def annJoin : SignalEnvelope :=
  (SignalEnvelope.broadcast "r" 0 10 (.join none)).withSender "ann"

/-- The member mutes. -/
def annMute : SignalEnvelope :=
  (SignalEnvelope.broadcast "r" 1 11 (.media true false)).withSender "ann"

/-- Replicas that both saw the mute reconcile. -/
theorem annMute_reconciled :
    ReconcilesMedia (applyAll (new "r" "left") [annJoin, annMute])
      (applyAll (new "r" "right") [annJoin, annMute]) := by
  refine (reconcilesMedia_iff (by decide)).mpr ?_
  intro peer m other leftKnows rightKnows dimension
  cases leftKnows.symm.trans rightKnows
  rfl

/-- A replica that missed the mute does not learn of it from one that saw it. -/
theorem annMute_unreconciled :
    WellBehaved ([annJoin] ++ [annJoin, annMute]) ∧
      ¬ReconcilesMedia (applyAll (new "r" "left") [annJoin])
        (applyAll (new "r" "right") [annJoin, annMute]) := by
  constructor
  · have onlyMute : ∀ env ∈ [annJoin] ++ [annJoin, annMute], ∀ update,
        env.signal.mediaUpdate = some update → update = .av true false := by
      simp [annJoin, annMute, SignalEnvelope.broadcast, Signal.mediaUpdate,
        eq_comm]
    intro env member other otherMember _ _ update otherUpdate sent otherSent _
    rw [onlyMute env member update sent,
      onlyMute other otherMember otherUpdate otherSent]
  · intro reconciles
    have missed := (reconciles "ann" .av).1
    rw [mediaRegister_mergeSnapshot (by decide)] at missed
    revert missed
    decide

end Room
end CeMeet
