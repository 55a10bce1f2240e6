import CeMeet.Room.Presence

/-!
# Snapshots

Merging a snapshot joins its registers into the room's, key by key, and knows
every member either side knew.  The member cap is not consulted.  Restoring a
snapshot gives back the room it was taken of, up to the cap and the end mark,
which are not part of a snapshot.
-/

namespace CeMeet

/-- The register of a member in a snapshot. -/
def RoomSnapshot.register (snap : RoomSnapshot) (peer : String) :
    Register UInt64 :=
  ((snap.members.filter fun m => m.nodeId = peer).map Member.stamp).maximum

namespace Room

/-- A merged record is stored if its member is unknown, is written over an older
record of its member, marks the member absent or only completes the record at
the same number, and is ignored if it is older. -/
inductive MergesMember (changed : List String) (room : Room) (om : Member) :
    List String × Room → Prop
  | unknown
      (unknown : room.members.lookup om.nodeId = none) :
      MergesMember changed room om
        (if om.present then changed ++ [om.nodeId] else changed, room.store om)
  | newer {m : Member}
      (found : room.members.lookup om.nodeId = some m)
      (atNode : m.nodeId = om.nodeId)
      (newer : m.lastSeq < om.lastSeq) :
      MergesMember changed room om
        (if m.present ≠ om.present then changed ++ [m.nodeId] else changed,
          room.store { m with
            lastSeq := om.lastSeq
            present := om.present
            lastSeen := max om.lastSeen m.lastSeen
            displayName := om.displayName.or m.displayName })
  | removes {m : Member}
      (found : room.members.lookup om.nodeId = some m)
      (atNode : m.nodeId = om.nodeId)
      (same : om.lastSeq = m.lastSeq)
      (absent : om.present = false)
      (present : m.present = true) :
      MergesMember changed room om
        (changed ++ [m.nodeId], room.store { m with
          lastSeen := max om.lastSeen m.lastSeen
          displayName := m.displayName.or om.displayName
          present := false })
  | keeps {m : Member}
      (found : room.members.lookup om.nodeId = some m)
      (atNode : m.nodeId = om.nodeId)
      (same : om.lastSeq = m.lastSeq)
      (agrees : (m.present && om.present) = m.present) :
      MergesMember changed room om
        (changed, room.store { m with
          lastSeen := max om.lastSeen m.lastSeen
          displayName := m.displayName.or om.displayName })
  | older {m : Member}
      (found : room.members.lookup om.nodeId = some m)
      (atNode : m.nodeId = om.nodeId)
      (older : om.lastSeq < m.lastSeq) :
      MergesMember changed room om (changed, room)

theorem mergeMember_cases
    (changed : List String) (room : Room) (om : Member) :
    MergesMember changed room om (mergeMember (changed, room) om) := by
  unfold mergeMember
  dsimp only
  cases found : room.members.lookup om.nodeId with
  | none => exact .unknown found
  | some m =>
      have atNode : m.nodeId = om.nodeId := Indexed.key_of_lookup found
      dsimp only
      split
      case isTrue newer => exact .newer found atNode newer
      case isFalse notNewer =>
        split
        case isTrue same =>
          split
          case isTrue removal =>
            exact .removes found atNode same
              (Bool.eq_false_of_not_eq_true removal.1) removal.2
          case isFalse keeps =>
            refine .keeps found atNode same ?_
            revert keeps
            cases m.present <;> cases om.present <;> simp
        case isFalse different =>
          exact .older found atNode
            (lt_of_le_of_ne (not_lt.mp notNewer) different)

/-- What merging one record does to a room. -/
structure Merges (room next : Room) (om : Member) : Prop where
  /-- The room is the same. -/
  roomId : next.roomId = room.roomId
  /-- The cap is untouched. -/
  maxMembers : next.maxMembers = room.maxMembers
  /-- The member of the record is known. -/
  keys : next.members.keys = insert om.nodeId room.members.keys
  /-- The register of the member joins the record's stamp. -/
  register_self :
    next.register om.nodeId = max (room.register om.nodeId) om.stamp
  /-- The registers of the other members are untouched. -/
  register_of_ne : ∀ peer ≠ om.nodeId,
    next.register peer = room.register peer

theorem merges_store
    {room : Room} {m om : Member}
    (atNode : m.nodeId = om.nodeId)
    (joined : (m.stamp : Register UInt64) =
      max (room.register om.nodeId) om.stamp) :
    Merges room (room.store m) om where
  roomId := rfl
  maxMembers := rfl
  keys := atNode ▸ Indexed.keys_insert m room.members
  register_self := (register_store room atNode).trans joined
  register_of_ne := by
    intro peer different
    exact register_congr
      (Indexed.lookup_insert_of_ne room.members (atNode ▸ different))

theorem mergeMember_merges
    (changed : List String) (room : Room) (om : Member) :
    Merges room (mergeMember (changed, room) om).2 om := by
  have merges := mergeMember_cases changed room om
  generalize mergeMember (changed, room) om = merged at merges ⊢
  cases merges with
  | unknown unknown =>
      refine merges_store rfl ?_
      rw [register_of_unknown unknown, max_bot_left]
  | newer found atNode newer =>
      refine merges_store atNode ?_
      rw [Member.stamp, Member.stamp, max_register_of_lookup found,
        if_neg newer.not_gt, if_neg newer.ne']
  | removes found atNode same absent present =>
      refine merges_store atNode ?_
      rw [Member.stamp, Member.stamp, max_register_of_lookup found,
        if_neg (not_lt.mpr same.ge), if_pos same, absent, Bool.and_false]
  | keeps found atNode same agrees =>
      refine merges_store atNode ?_
      rw [Member.stamp, Member.stamp, max_register_of_lookup found,
        if_neg (not_lt.mpr same.ge), if_pos same, agrees]
  | older found atNode older =>
      exact
        { roomId := rfl
          maxMembers := rfl
          keys := by
            rw [Finset.insert_eq_self.mpr (Indexed.mem_keys_of_lookup found)]
          register_self := by
            rw [Member.stamp, max_register_of_lookup found, if_pos older]
            exact register_of_lookup found
          register_of_ne := fun _ _ => rfl }

/-- Merging a record stores at most one record, of the same member. -/
theorem mergeMember_stored
    (changed : List String) (room : Room) (om : Member) :
    (mergeMember (changed, room) om).2 = room ∨
      ∃ m, m.nodeId = om.nodeId ∧
        (mergeMember (changed, room) om).2 = room.store m := by
  have merges := mergeMember_cases changed room om
  generalize mergeMember (changed, room) om = merged at merges ⊢
  cases merges with
  | unknown unknown => exact .inr ⟨om, rfl, rfl⟩
  | newer found atNode | removes found atNode | keeps found atNode =>
      refine .inr ⟨_, ?_, rfl⟩
      exact atNode
  | older => exact .inl rfl

/-- Merging a record writes no other member's record. -/
theorem mergeMember_lookup_of_ne
    (changed : List String) (room : Room) {om : Member} {peer : String}
    (different : peer ≠ om.nodeId) :
    (mergeMember (changed, room) om).2.members.lookup peer =
      room.members.lookup peer := by
  rcases mergeMember_stored changed room om with same | ⟨m, atNode, stored⟩
  · rw [same]
  · rw [stored]
    exact Indexed.lookup_insert_of_ne _ (atNode.symm ▸ different)

/-- Merging a list of records knows their members. -/
theorem foldl_mergeMember_keys
    (oms : List Member) (changed : List String) (room : Room) :
    (oms.foldl mergeMember (changed, room)).2.members.keys =
      room.members.keys ∪ (oms.map Member.nodeId).toFinset := by
  induction oms generalizing changed room with
  | nil => simp
  | cons om oms inductionHypothesis =>
      have merges := mergeMember_merges changed room om
      have rest := inductionHypothesis (mergeMember (changed, room) om).1
        (mergeMember (changed, room) om).2
      refine rest.trans ?_
      rw [merges.keys, List.map_cons, List.toFinset_cons, Finset.insert_union,
        Finset.union_insert]

/-- Merging a list of records joins every stamp into its register. -/
theorem foldl_mergeMember_register
    (oms : List Member) (changed : List String) (room : Room)
    (peer : String) :
    (oms.foldl mergeMember (changed, room)).2.register peer =
      max (room.register peer)
        ((oms.filter fun om => om.nodeId = peer).map Member.stamp).maximum := by
  induction oms generalizing changed room with
  | nil => simp
  | cons om oms inductionHypothesis =>
      have merges := mergeMember_merges changed room om
      have rest := inductionHypothesis (mergeMember (changed, room) om).1
        (mergeMember (changed, room) om).2
      refine rest.trans ?_
      by_cases here : om.nodeId = peer
      · subst here
        rw [merges.register_self, List.filter_cons_of_pos (by simp),
          List.map_cons, List.maximum_cons, max_assoc]
      · rw [merges.register_of_ne peer (Ne.symm here),
          List.filter_cons_of_neg (by simpa using here)]

/-- What merging each record of a snapshot keeps is kept by merging the
snapshot. -/
theorem mergeSnapshot_invariant
    {motive : Room → Prop} {room : Room} {snap : RoomSnapshot}
    (start : motive room)
    (kept : ∀ changed current, ∀ om ∈ snap.members,
      motive current → motive (mergeMember (changed, current) om).2) :
    motive (room.mergeSnapshot snap).2 := by
  unfold mergeSnapshot
  split
  · exact start
  · change motive (snap.members.foldl mergeMember ([], room)).2
    apply List.foldlRecOn
      (motive := fun merged : List String × Room => motive merged.2)
    · exact start
    · intro merged holds om member
      exact kept merged.1 merged.2 om member holds

/-- What storing a record leaves alone, a merge leaves alone. -/
theorem mergeSnapshot_keeps
    {α : Type} {observe : Room → α}
    (stores : ∀ (room : Room) m, observe (room.store m) = observe room)
    (room : Room) (snap : RoomSnapshot) :
    observe (room.mergeSnapshot snap).2 = observe room := by
  refine mergeSnapshot_invariant
    (motive := fun current => observe current = observe room) rfl ?_
  intro changed current om _ same
  rcases mergeMember_stored changed current om with unchanged | ⟨m, _, stored⟩
  · rw [unchanged, same]
  · rw [stored, stores, same]

theorem mergeSnapshot_roomId (room : Room) (snap : RoomSnapshot) :
    (room.mergeSnapshot snap).2.roomId = room.roomId :=
  mergeSnapshot_keeps (fun _ _ => rfl) room snap

theorem mergeSnapshot_maxMembers (room : Room) (snap : RoomSnapshot) :
    (room.mergeSnapshot snap).2.maxMembers = room.maxMembers :=
  mergeSnapshot_keeps (fun _ _ => rfl) room snap

theorem map_nodeId_sorted (room : Room) :
    (room.members.sorted.map Member.nodeId).toFinset = room.members.keys := by
  ext peer
  rw [List.mem_toFinset, List.mem_map, Indexed.mem_keys_iff]
  constructor
  · rintro ⟨m, member, rfl⟩
    exact ⟨m, Indexed.mem_sorted_iff.mp member⟩
  · rintro ⟨m, found⟩
    have atPeer : m.nodeId = peer := Indexed.key_of_lookup found
    refine ⟨m, Indexed.mem_sorted_iff.mpr ?_, atPeer⟩
    rwa [atPeer]

/-- A snapshot has the registers of the room it was taken of. -/
theorem register_snapshot (room : Room) (peer : String) :
    room.snapshot.register peer = room.register peer := by
  rw [RoomSnapshot.register, snapshot]
  cases found : room.members.lookup peer with
  | none =>
      rw [register_of_unknown found, List.maximum_eq_bot,
        List.map_eq_nil_iff, List.filter_eq_nil_iff]
      intro m member
      have known := Indexed.mem_sorted_iff.mp member
      simp only [decide_eq_true_eq]
      rintro rfl
      rw [found] at known
      cases known
  | some m =>
      have atPeer : m.nodeId = peer := Indexed.key_of_lookup found
      rw [register_of_lookup found, ← List.maximum_singleton]
      refine Register.maximum_eq_of_mem_iff fun stamp => ?_
      simp only [List.mem_map, List.mem_filter, Indexed.mem_sorted_iff,
        decide_eq_true_eq, List.mem_singleton]
      constructor
      · rintro ⟨other, ⟨otherFound, rfl⟩, rfl⟩
        rw [found] at otherFound
        cases otherFound
        rfl
      · rintro rfl
        exact ⟨m, ⟨atPeer.symm ▸ found, atPeer⟩, rfl⟩

/-- A merge knows every member that either side knew. -/
theorem mergeSnapshot_keys
    {room other : Room}
    (sameRoom : other.roomId = room.roomId) :
    (room.mergeSnapshot other.snapshot).2.members.keys =
      room.members.keys ∪ other.members.keys := by
  unfold mergeSnapshot
  rw [if_neg (by simpa [snapshot] using sameRoom)]
  refine (foldl_mergeMember_keys _ _ _).trans ?_
  rw [snapshot, map_nodeId_sorted]

/-- A merge joins the registers of the two sides. -/
theorem register_mergeSnapshot
    {room : Room} {snap : RoomSnapshot}
    (sameRoom : snap.roomId = room.roomId)
    (peer : String) :
    (room.mergeSnapshot snap).2.register peer =
      max (room.register peer) (snap.register peer) := by
  unfold mergeSnapshot
  rw [if_neg (not_not.mpr sameRoom)]
  exact foldl_mergeMember_register _ _ _ peer

/-- Snapshots of other rooms are ignored. -/
theorem mergeSnapshot_ignored
    {room : Room} {snap : RoomSnapshot}
    (otherRoom : snap.roomId ≠ room.roomId) :
    room.mergeSnapshot snap = ([], room) :=
  if_pos otherRoom

/-- Restoring a snapshot gives back the room, except for its cap and end
mark. -/
@[simp] theorem restore_snapshot (room : Room) :
    restore room.snapshot =
      { room with maxMembers := defaultMaxMembers, ended := false } := by
  simp [restore, snapshot]

theorem register_restore_snapshot (room : Room) (peer : String) :
    (restore room.snapshot).register peer = room.register peer := by
  rw [restore_snapshot]
  rfl

end Room
end CeMeet
