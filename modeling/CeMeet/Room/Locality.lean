import CeMeet.Room.Operation

/-!
# Locality of envelopes

An envelope reads of a room nothing but the record of its sender and whether
there is a slot for that record.  Two rooms that agree in these answer the
envelope in the same way and hold the same record of the sender after it.
-/

namespace CeMeet
namespace Room

/-- Two rooms agree in the record of a peer and in whether there is a slot for
it. -/
structure SameView (left right : Room) (peer : String) : Prop where
  /-- The records agree. -/
  lookup : left.members.lookup peer = right.members.lookup peer
  /-- A slot in one is a slot in the other. -/
  slot : left.HasSlot peer ↔ right.HasSlot peer

/-- Two results with the same effect and the same record of a peer. -/
def SameResult (left right : Effect × Room) (peer : String) : Prop :=
  left.1 = right.1 ∧ left.2.members.lookup peer = right.2.members.lookup peer

theorem lookup_store_eq
    {m : Member} {peer : String}
    (atPeer : m.nodeId = peer)
    (left right : Room) :
    (left.store m).members.lookup peer =
      (right.store m).members.lookup peer := by
  subst atPeer
  rw [store, store, Indexed.lookup_insert_self, Indexed.lookup_insert_self]

theorem SameResult.store
    {left right : Room} {effect : Effect} {m : Member} {peer : String}
    (atPeer : m.nodeId = peer) :
    SameResult (effect, left.store m) (effect, right.store m) peer :=
  ⟨rfl, lookup_store_eq atPeer left right⟩

variable {left right : Room} {nodeId : String}

theorem SameView.full_iff
    (view : SameView left right nodeId)
    (unknown : left.members.lookup nodeId = none) :
    left.knownCount ≥ left.maxMembers ↔ right.knownCount ≥ right.maxMembers := by
  have slot := view.slot
  rw [hasSlot_iff_of_unknown unknown,
    hasSlot_iff_of_unknown (view.lookup ▸ unknown)] at slot
  exact not_iff_not.mp slot

theorem touch_congr
    (same : left.members.lookup nodeId = right.members.lookup nodeId)
    (sentAt : UInt64) (eligible : Member → Bool) :
    (left.touch nodeId sentAt eligible).members.lookup nodeId =
      (right.touch nodeId sentAt eligible).members.lookup nodeId := by
  unfold touch
  rw [← same]
  cases found : left.members.lookup nodeId with
  | none =>
      dsimp only
      exact same
  | some m =>
      have atNode : m.nodeId = nodeId := Indexed.key_of_lookup found
      dsimp only
      split
      · apply lookup_store_eq
        exact atNode
      · exact same

theorem lww_congr
    (view : SameView left right nodeId)
    (seq sentAt : UInt64) (present : Bool) (displayName : Option String) :
    SameResult (left.lww nodeId seq sentAt present displayName)
      (right.lww nodeId seq sentAt present displayName) nodeId := by
  unfold lww
  rw [← view.lookup]
  cases found : left.members.lookup nodeId with
  | none =>
      dsimp only
      by_cases full : left.knownCount ≥ left.maxMembers
      · rw [if_pos full, if_pos ((view.full_iff found).mp full)]
        exact ⟨rfl, view.lookup⟩
      · rw [if_neg full, if_neg ((view.full_iff found).not.mp full)]
        split <;> exact .store rfl
  | some m =>
      have atNode : m.nodeId = nodeId := Indexed.key_of_lookup found
      dsimp only
      split
      · exact ⟨rfl, view.lookup⟩
      · split
        · split <;> exact .store atNode
        · split <;> exact .store atNode

theorem mediaLww_congr
    (view : SameView left right nodeId)
    (seq sentAt : UInt64) (update : MediaUpdate) :
    SameResult (left.mediaLww nodeId seq sentAt update)
      (right.mediaLww nodeId seq sentAt update) nodeId := by
  unfold mediaLww
  rw [← view.lookup]
  cases found : left.members.lookup nodeId with
  | none =>
      dsimp only
      by_cases full : left.knownCount ≥ left.maxMembers
      · rw [if_pos full, if_pos ((view.full_iff found).mp full)]
        exact ⟨rfl, view.lookup⟩
      · rw [if_neg full, if_neg ((view.full_iff found).not.mp full)]
        exact .store (by simp)
  | some m =>
      have atNode : m.nodeId = nodeId := Indexed.key_of_lookup found
      dsimp only
      split
      · exact .store atNode
      · exact .store (by simp [atNode])

/-- An envelope is answered alike by rooms that agree in its sender. -/
theorem apply_congr
    {env : SignalEnvelope}
    (sameRoom : left.roomId = right.roomId)
    (view : SameView left right env.sender) :
    SameResult (left.apply env) (right.apply env) env.sender := by
  unfold apply
  rw [sameRoom]
  split
  · exact ⟨rfl, view.lookup⟩
  · cases env.signal with
    | offer | answer | iceCandidate | iceEnd | kick | forceMute | recording
    | endRoom => exact ⟨rfl, view.lookup⟩
    | reaction | chat => exact ⟨rfl, touch_congr view.lookup _ _⟩
    | media | screenShare | raiseHand => exact mediaLww_congr view _ _ _
    | join | leave => exact lww_congr view _ _ _ _
    | keepalive =>
        have same := lww_congr view env.seq env.sentAt true none
        dsimp only
        generalize left.lww env.sender env.seq env.sentAt true none = leftResult
          at same
        generalize right.lww env.sender env.seq env.sentAt true none =
          rightResult at same
        obtain ⟨effect, leftNext⟩ := leftResult
        obtain ⟨_, rightNext⟩ := rightResult
        obtain ⟨rfl, sameRecord⟩ := same
        cases effect with
        | noChange => exact ⟨rfl, touch_congr sameRecord _ _⟩
        | joined | left | directed | refreshed | mediaChanged | reaction | chat
        | recording | roomEnded => exact ⟨rfl, sameRecord⟩

end Room
end CeMeet
