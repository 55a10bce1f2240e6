import CeMeet.Foundation.LastWrite
import CeMeet.Room.Convergence
import CeMeet.Room.MediaRegister
import CeMeet.Room.Operation

/-!
# Media state is the last write of every dimension

Seen from one member and one dimension, a room is a register with a floor that
takes the media signals of that member and dimension and nothing else.
-/

namespace CeMeet

/-- The value of a dimension before anything is heard of it. -/
def MediaDimension.initial : MediaDimension → MediaUpdate
  | .av => .av false false
  | .sharing => .sharing false
  | .hand => .hand false

theorem MediaUpdate.seqFloor_eq (update : MediaUpdate) (m : Member) :
    update.seqFloor m = (m.mediaRegister update.dimension).1 := by
  cases update <;> rfl

theorem MediaUpdate.mediaRegister_applyTo
    (update : MediaUpdate) (seq : UInt64) (m : Member)
    (dimension : MediaDimension) :
    (update.applyTo seq m).mediaRegister dimension =
      if update.dimension = dimension then (Order.succ seq, update)
      else m.mediaRegister dimension := by
  cases update <;> cases dimension <;> rfl

theorem Member.mediaRegister_seen
    (m : Member) (lastSeen : UInt64) (dimension : MediaDimension) :
    ({ m with lastSeen } : Member).mediaRegister dimension =
      m.mediaRegister dimension := by
  cases dimension <;> rfl

/-- What an envelope writes into the register of a member's dimension. -/
def SignalEnvelope.mediaEntry
    (peer : String) (dimension : MediaDimension) (env : SignalEnvelope) :
    Option MediaRegister :=
  if env.sender = peer then
    (env.signal.mediaUpdate.filter fun update =>
      update.dimension = dimension).map fun update => (env.seq, update)
  else
    none

theorem SignalEnvelope.mediaEntry_eq_some_iff
    {peer : String} {dimension : MediaDimension} {env : SignalEnvelope}
    {entry : MediaRegister} :
    env.mediaEntry peer dimension = some entry ↔
      env.sender = peer ∧ env.signal.mediaUpdate = some entry.2 ∧
        entry.2.dimension = dimension ∧ entry.1 = env.seq := by
  obtain ⟨seq, update⟩ := entry
  unfold mediaEntry
  cases env.signal.mediaUpdate with
  | none => simp
  | some sent =>
      by_cases fromPeer : env.sender = peer <;>
        by_cases sameDimension : sent.dimension = dimension <;>
        simp [fromPeer, sameDimension, Option.filter]
      · grind
      · grind

namespace Room

/-- The register of a dimension of a peer, as it is or would be created. -/
def mediaAt (room : Room) (peer : String) (dimension : MediaDimension) :
    MediaRegister :=
  (room.mediaRegister peer dimension).getD (0, dimension.initial)

theorem mediaAt_congr
    {left right : Room} {peer : String}
    (same : left.members.lookup peer = right.members.lookup peer)
    (dimension : MediaDimension) :
    left.mediaAt peer dimension = right.mediaAt peer dimension := by
  rw [mediaAt, mediaAt, mediaRegister, mediaRegister, member, member, same]

theorem mediaAt_of_lookup
    {room : Room} {peer : String} {m : Member}
    (found : room.members.lookup peer = some m)
    (dimension : MediaDimension) :
    room.mediaAt peer dimension = m.mediaRegister dimension := by
  rw [mediaAt, mediaRegister_of_lookup found, Option.getD_some]

theorem mediaAt_of_unknown
    {room : Room} {peer : String}
    (unknown : room.members.lookup peer = none)
    (dimension : MediaDimension) :
    room.mediaAt peer dimension = (0, dimension.initial) := by
  rw [mediaAt, mediaRegister_of_unknown unknown, Option.getD_none]

theorem mediaAt_store
    {room : Room} {m : Member} {peer : String}
    {dimension : MediaDimension} {held : MediaRegister}
    (atPeer : m.nodeId = peer)
    (holds : m.mediaRegister dimension = held) :
    (room.store m).mediaAt peer dimension = held := by
  rw [mediaAt, mediaRegister_store atPeer holds, Option.getD_some]

/-- Refreshing liveness keeps the media state. -/
theorem mediaAt_touch
    (room : Room) (nodeId : String) (sentAt : UInt64)
    (eligible : Member → Bool) (dimension : MediaDimension) :
    (room.touch nodeId sentAt eligible).mediaAt nodeId dimension =
      room.mediaAt nodeId dimension := by
  have result := touch_cases room nodeId sentAt eligible
  generalize room.touch nodeId sentAt eligible = next at result ⊢
  cases result with
  | unknown | kept => rfl
  | seen found atNode =>
      rw [mediaAt_of_lookup found]
      exact mediaAt_store atNode (Member.mediaRegister_seen _ _ _)

/-- Presence keeps the media state. -/
theorem mediaAt_lww
    (room : Room) (nodeId : String) (seq sentAt : UInt64) (present : Bool)
    (displayName : Option String) (dimension : MediaDimension) :
    (room.lww nodeId seq sentAt present displayName).2.mediaAt nodeId
        dimension =
      room.mediaAt nodeId dimension := by
  have result := lww_cases room nodeId seq sentAt present displayName
  generalize room.lww nodeId seq sentAt present displayName = next at result ⊢
  cases result with
  | full | older => rfl
  | creates unknown =>
      rw [mediaAt_of_unknown unknown]
      exact mediaAt_store rfl (by cases dimension <;> rfl)
  | removes found atNode | keeps found atNode | newer found atNode =>
      rw [mediaAt_of_lookup found]
      exact mediaAt_store atNode (by cases dimension <;> rfl)

/-- A media update is a write into the register of its dimension. -/
theorem mediaAt_mediaLww
    {room : Room} {nodeId : String}
    (slot : room.HasSlot nodeId)
    (seq sentAt : UInt64) (update : MediaUpdate)
    (dimension : MediaDimension) :
    (room.mediaLww nodeId seq sentAt update).2.mediaAt nodeId dimension =
      if update.dimension = dimension then
        LastWrite.write (room.mediaAt nodeId dimension) (seq, update)
      else room.mediaAt nodeId dimension := by
  have result := mediaLww_cases room nodeId seq sentAt update
  generalize room.mediaLww nodeId seq sentAt update = next at result ⊢
  cases result with
  | full unknown full =>
      exact absurd full ((hasSlot_iff_of_unknown unknown).mp slot)
  | creates unknown free blank atNode =>
      rw [mediaAt_of_unknown unknown]
      refine mediaAt_store atNode ?_
      rw [MediaUpdate.mediaRegister_applyTo, LastWrite.write,
        if_neg UInt64.not_lt_zero, blank]
      cases dimension <;> rfl
  | @older m seen found older refreshed atNode =>
      have sameMedia : seen.mediaRegister dimension =
          m.mediaRegister dimension :=
        refreshed ▸ m.mediaRegister_seen _ dimension
      rw [mediaAt_of_lookup found, LastWrite.write]
      rw [MediaUpdate.seqFloor_eq] at older
      refine (mediaAt_store atNode sameMedia).trans ?_
      split
      case isTrue here =>
        subst here
        rw [if_pos older]
      case isFalse => rfl
  | @newer m seen found newer refreshed atNode =>
      have sameMedia : seen.mediaRegister dimension =
          m.mediaRegister dimension :=
        refreshed ▸ m.mediaRegister_seen _ dimension
      rw [mediaAt_of_lookup found, LastWrite.write]
      rw [MediaUpdate.seqFloor_eq] at newer
      refine (mediaAt_store atNode
        (MediaUpdate.mediaRegister_applyTo _ _ _ _)).trans ?_
      rw [sameMedia]
      split
      case isTrue here =>
        subst here
        rw [if_neg newer]
      case isFalse => rfl

/-- An envelope of this room writes its entry into every register. -/
theorem mediaAt_apply
    {room : Room} {env : SignalEnvelope}
    (sameRoom : env.roomId = room.roomId)
    (authenticated : env.sender ≠ "")
    (slot : room.HasSlot env.sender)
    (peer : String) (dimension : MediaDimension) :
    (room.apply env).2.mediaAt peer dimension =
      LastWrite.writeAll (room.mediaAt peer dimension)
        (env.mediaEntry peer dimension).toList := by
  by_cases fromPeer : env.sender = peer
  · subst fromPeer
    unfold apply SignalEnvelope.mediaEntry
    rw [if_neg (by simp [sameRoom, authenticated]), if_pos rfl]
    cases env.signal with
    | offer | answer | iceCandidate | iceEnd | kick | forceMute | recording
    | endRoom => rfl
    | reaction | chat => exact mediaAt_touch _ _ _ _ _
    | media | screenShare | raiseHand =>
        refine (mediaAt_mediaLww slot _ _ _ _).trans ?_
        cases dimension <;> rfl
    | join | leave => exact mediaAt_lww _ _ _ _ _ _ _
    | keepalive =>
        have kept := mediaAt_lww room env.sender env.seq env.sentAt true none
          dimension
        dsimp only
        split
        next result => exact result ▸ kept
        next result =>
          rw [result] at kept
          rw [mediaAt_touch]
          exact kept
        next result => exact result ▸ kept
  · rw [SignalEnvelope.mediaEntry, if_neg fromPeer]
    exact mediaAt_congr
      ((apply_writes room env).lookup_of_ne (Ne.symm fromPeer)) dimension

/-- Envelopes of one sender write their entries one after the other. -/
theorem mediaAt_applyAll
    {room : Room} {envs : List SignalEnvelope} {peer : String}
    (named : peer ≠ "")
    (ours : ∀ env ∈ envs, env.roomId = room.roomId ∧ env.sender = peer)
    (slot : room.HasSlot peer)
    (dimension : MediaDimension) :
    (room.applyAll envs).mediaAt peer dimension =
      LastWrite.writeAll (room.mediaAt peer dimension)
        (envs.filterMap (SignalEnvelope.mediaEntry peer dimension)) := by
  induction envs generalizing room with
  | nil => rfl
  | cons env envs inductionHypothesis =>
      rw [List.forall_mem_cons] at ours
      obtain ⟨⟨sameRoom, rfl⟩, ours⟩ := ours
      have writes := apply_writes room env
      rw [← writes.roomId] at ours
      refine (inductionHypothesis ours (writes.hasSlot_iff.mpr slot)).trans ?_
      rw [mediaAt_apply sameRoom named slot, ← LastWrite.writeAll_append]
      cases entry : env.mediaEntry env.sender dimension <;> simp [entry]

/-! ## Runs -/

/-- The envelope that an operation makes a room take notice of. -/
def Operation.accepted (roomId : String) : Operation → Option SignalEnvelope
  | .apply env =>
      if env.roomId = roomId ∧ env.sender ≠ "" then some env else none
  | _ => none

/-- The envelopes of a run that the room takes notice of. -/
def accepted (roomId : String) (operations : List Operation) :
    List SignalEnvelope :=
  operations.filterMap (Operation.accepted roomId)

/-- Whenever a room takes notice of an envelope, the sender is known or the cap
leaves room for one more member. -/
def StaysBelowCap (start : Room) (operations : List Operation) : Prop :=
  ∀ done env rest, operations = done ++ .apply env :: rest →
    env.roomId = start.roomId → env.sender ≠ "" →
    (start.after done).HasSlot env.sender

theorem mem_accepted_iff
    {roomId : String} {operations : List Operation} {env : SignalEnvelope} :
    env ∈ accepted roomId operations ↔
      .apply env ∈ operations ∧ env.roomId = roomId ∧ env.sender ≠ "" := by
  rw [accepted, List.mem_filterMap]
  constructor
  · rintro ⟨operation, member, taken⟩
    cases operation with
    | apply sent =>
        rw [Operation.accepted, Option.ite_none_right_eq_some] at taken
        obtain ⟨ours, same⟩ := taken
        cases same
        exact ⟨member, ours⟩
    | pruneStale | mergeSnapshot | nextOutboundSeq | resumeOutboundFrom =>
        cases taken
  · rintro ⟨member, ours⟩
    exact ⟨_, member, if_pos ours⟩

/-- An operation other than a merge makes nobody known but the sender of an
accepted envelope. -/
theorem operate_keys_subset
    {room : Room} {operation : Operation}
    (noMerge : ∀ snap, operation ≠ .mergeSnapshot snap)
    {peer : String}
    (known : peer ∈ (room.operate operation).2.members.keys) :
    peer ∈ room.members.keys ∨
      ∃ env, operation = .apply env ∧ env.roomId = room.roomId ∧
        env.sender ≠ "" ∧ env.sender = peer := by
  cases operation with
  | apply env =>
      change peer ∈ (room.apply env).2.members.keys at known
      by_cases ours : env.roomId = room.roomId ∧ env.sender ≠ ""
      · rcases Finset.mem_insert.mp
            ((apply_writes room env).keys_subset known) with rfl | before
        · exact Or.inr ⟨env, rfl, ours.1, ours.2, rfl⟩
        · exact Or.inl before
      · rw [apply_ignored (by tauto)] at known
        exact Or.inl known
  | pruneStale now staleSecs =>
      refine Or.inl ?_
      rwa [← Indexed.keys_map _ (expire_nodeId now staleSecs)]
  | mergeSnapshot snap => exact absurd rfl (noMerge snap)
  | nextOutboundSeq =>
      obtain ⟨seq, nextSeq, allocated⟩ := operate_nextOutboundSeq room
      rw [allocated] at known
      exact Or.inl known
  | resumeOutboundFrom floor => exact Or.inl known

/-- Everybody a room takes notice of in a run. -/
def noticed (roomId : String) (operations : List Operation) : Finset String :=
  ((accepted roomId operations).map SignalEnvelope.sender).toFinset

theorem sender_mem_noticed
    {roomId : String} {operations : List Operation} {env : SignalEnvelope}
    (member : .apply env ∈ operations)
    (sameRoom : env.roomId = roomId)
    (authenticated : env.sender ≠ "") :
    env.sender ∈ noticed roomId operations :=
  List.mem_toFinset.mpr (List.mem_map_of_mem
    (mem_accepted_iff.mpr ⟨member, sameRoom, authenticated⟩))

/-- A run in which the cap covers all senders stays below the cap. -/
theorem staysBelowCap_of_noticed
    {start : Room} {operations : List Operation}
    (noMerge : ∀ snap, .mergeSnapshot snap ∉ operations)
    (capacity : (start.members.keys ∪ noticed start.roomId operations).card ≤
      start.maxMembers) :
    StaysBelowCap start operations := by
  intro done env rest split sameRoom authenticated
  have knownDone : (start.after done).members.keys ⊆
      start.members.keys ∪ noticed start.roomId operations := by
    refine Transducer.history_induction
      (motive := fun _ _ (room : Room) => room.members.keys ⊆ _)
      done Finset.subset_union_left ?_
    intro before operation after splitDone knownBefore peer known
    have noMergeHere : ∀ snap, operation ≠ .mergeSnapshot snap := by
      rintro snap rfl
      exact noMerge snap (by simp [split, splitDone])
    rcases operate_keys_subset noMergeHere known with
      earlier | ⟨sent, rfl, sentRoom, sentAuthenticated, rfl⟩
    · exact knownBefore earlier
    · refine Finset.mem_union_right _ (sender_mem_noticed ?_ ?_ ?_)
      · simp [split, splitDone]
      · exact sentRoom.trans (after_roomId start before)
      · exact sentAuthenticated
  have sends : env.sender ∈ noticed start.roomId operations :=
    sender_mem_noticed (by simp [split]) sameRoom authenticated
  have covered : (start.after done).members.keys ∪
      noticed start.roomId operations ⊆
        start.members.keys ∪ noticed start.roomId operations :=
    Finset.union_subset knownDone Finset.subset_union_right
  exact hasSlot_of_capacity
    ((Finset.card_le_card covered).trans
      (capacity.trans_eq (after_maxMembers start done).symm))
    sends

/-- What is observed of a room is written by the envelopes it takes notice of,
and nothing else short of a merge changes it. -/
structure WrittenBy {α β : Type} (observe : Room → α) (write : α → β → α)
    (entry : SignalEnvelope → Option β) : Prop where
  /-- An envelope of this room writes its entry. -/
  apply : ∀ {room : Room} {env : SignalEnvelope},
    env.roomId = room.roomId → env.sender ≠ "" → room.HasSlot env.sender →
    observe (room.apply env).2 =
      (entry env).toList.foldl write (observe room)
  /-- The sweep writes nothing. -/
  pruneStale : ∀ (room : Room) (now staleSecs : UInt64),
    observe (room.pruneStale now staleSecs).2 = observe room
  /-- The outbound counter is not part of what is observed. -/
  nextSeq : ∀ (room : Room) (nextSeq : UInt64),
    observe { room with nextSeq } = observe room

namespace WrittenBy

variable {α β : Type} {observe : Room → α} {write : α → β → α}
  {entry : SignalEnvelope → Option β}

/-- An operation other than a merge writes what its envelope says. -/
theorem operate
    (written : WrittenBy observe write entry)
    {room : Room} {operation : Operation}
    (noMerge : ∀ snap, operation ≠ .mergeSnapshot snap)
    (slot : ∀ env, operation = .apply env →
      env.roomId = room.roomId → env.sender ≠ "" → room.HasSlot env.sender) :
    observe (room.operate operation).2 =
      ((accepted room.roomId [operation]).filterMap entry).foldl write
        (observe room) := by
  cases operation with
  | apply env =>
      change observe (room.apply env).2 = _
      by_cases ours : env.roomId = room.roomId ∧ env.sender ≠ ""
      · rw [written.apply ours.1 ours.2 (slot env rfl ours.1 ours.2)]
        cases carried : entry env <;>
          simp [accepted, Operation.accepted, ours, carried]
      · rw [apply_ignored (by tauto)]
        simp [accepted, Operation.accepted, ours]
  | pruneStale now staleSecs => exact written.pruneStale room now staleSecs
  | mergeSnapshot snap => exact absurd rfl (noMerge snap)
  | nextOutboundSeq =>
      obtain ⟨seq, nextSeq, allocated⟩ := operate_nextOutboundSeq room
      rw [allocated]
      exact written.nextSeq room nextSeq
  | resumeOutboundFrom floor => exact written.nextSeq room _

/-- Along a run without merges the accepted envelopes write their entries. -/
theorem after
    (written : WrittenBy observe write entry)
    {start : Room} {operations : List Operation}
    (noMerge : ∀ snap, .mergeSnapshot snap ∉ operations)
    (belowCap : StaysBelowCap start operations) :
    observe (start.after operations) =
      ((accepted start.roomId operations).filterMap entry).foldl write
        (observe start) := by
  refine Transducer.history_induction
    (motive := fun done _ (room : Room) =>
      observe room =
        ((accepted start.roomId done).filterMap entry).foldl write
          (observe start))
    operations rfl ?_
  intro done operation rest split sameSoFar
  have roomId : (start.after done).roomId = start.roomId :=
    after_roomId start done
  have noMergeHere : ∀ snap, operation ≠ .mergeSnapshot snap := by
    rintro snap rfl
    exact noMerge snap (by simp [split])
  have slot : ∀ env, operation = .apply env →
      env.roomId = (start.after done).roomId → env.sender ≠ "" →
      (start.after done).HasSlot env.sender := by
    rintro env rfl sameRoom
    exact belowCap done env rest split (sameRoom.trans roomId)
  rw [written.operate noMergeHere slot, sameSoFar, roomId, ← List.foldl_append,
    ← List.filterMap_append, accepted, accepted, accepted,
    ← List.filterMap_append]

end WrittenBy

/-- The stale members of a room keep their media state. -/
theorem mediaAt_pruneStale
    (room : Room) (now staleSecs : UInt64)
    (peer : String) (dimension : MediaDimension) :
    (room.pruneStale now staleSecs).2.mediaAt peer dimension =
      room.mediaAt peer dimension := by
  have pruned : (room.pruneStale now staleSecs).2.members.lookup peer =
      (room.members.lookup peer).map (expire now staleSecs) :=
    Indexed.lookup_map _ (expire_nodeId now staleSecs) _ _
  cases found : room.members.lookup peer with
  | none =>
      rw [found, Option.map_none] at pruned
      rw [mediaAt_of_unknown found, mediaAt_of_unknown pruned]
  | some m =>
      rw [found, Option.map_some] at pruned
      rw [mediaAt_of_lookup found, mediaAt_of_lookup pruned, expire]
      split
      · cases dimension <;> rfl
      · rfl

theorem mediaAt_writtenBy (peer : String) (dimension : MediaDimension) :
    WrittenBy (fun room => room.mediaAt peer dimension) LastWrite.write
      (SignalEnvelope.mediaEntry peer dimension) where
  apply := fun sameRoom authenticated slot =>
    mediaAt_apply sameRoom authenticated slot peer dimension
  pruneStale := fun room now staleSecs =>
    mediaAt_pruneStale room now staleSecs peer dimension
  nextSeq := fun _ _ => rfl

/-- Along a run without merges every register takes the writes of the accepted
envelopes. -/
theorem mediaAt_after
    {start : Room} {operations : List Operation}
    (noMerge : ∀ snap, .mergeSnapshot snap ∉ operations)
    (belowCap : StaysBelowCap start operations)
    (peer : String) (dimension : MediaDimension) :
    (start.after operations).mediaAt peer dimension =
      LastWrite.writeAll (start.mediaAt peer dimension)
        ((accepted start.roomId operations).filterMap
          (SignalEnvelope.mediaEntry peer dimension)) :=
  (mediaAt_writtenBy peer dimension).after noMerge belowCap

/-- A well-behaved run writes one value for a number. -/
theorem consistent_mediaEntries
    {envs : List SignalEnvelope}
    (wellBehaved : WellBehaved envs)
    (peer : String) (dimension : MediaDimension) :
    LastWrite.Consistent
      (envs.filterMap (SignalEnvelope.mediaEntry peer dimension)) := by
  intro entry entryMember other otherMember sameSeq
  obtain ⟨env, envMember, written⟩ := List.mem_filterMap.mp entryMember
  obtain ⟨otherEnv, otherEnvMember, otherWritten⟩ :=
    List.mem_filterMap.mp otherMember
  obtain ⟨fromPeer, carries, sameDimension, seq⟩ :=
    SignalEnvelope.mediaEntry_eq_some_iff.mp written
  obtain ⟨otherFromPeer, otherCarries, otherDimension, otherSeq⟩ :=
    SignalEnvelope.mediaEntry_eq_some_iff.mp otherWritten
  have sameUpdate := wellBehaved env envMember otherEnv otherEnvMember
    (fromPeer.trans otherFromPeer.symm)
    (seq.symm.trans (sameSeq.trans otherSeq)) _ _ carries otherCarries
    (sameDimension.trans otherDimension.symm)
  exact Prod.ext sameSeq sameUpdate

/-- A register whose floor was raised belongs to a known member. -/
theorem member_of_mediaAt
    {room : Room} {peer : String} {dimension : MediaDimension}
    {held : MediaRegister}
    (holds : room.mediaAt peer dimension = held)
    (raised : held.1 ≠ 0) :
    ∃ m, room.member peer = some m ∧ m.mediaRegister dimension = held := by
  cases found : room.members.lookup peer with
  | none =>
      rw [mediaAt_of_unknown found] at holds
      exact absurd (congrArg Prod.fst holds.symm) raised
  | some m =>
      rw [mediaAt_of_lookup found] at holds
      exact ⟨m, found, holds⟩

/-- The three media kinds go through the media register. -/
theorem apply_of_mediaUpdate
    {room : Room} {env : SignalEnvelope} {update : MediaUpdate}
    (carries : env.signal.mediaUpdate = some update)
    (sameRoom : env.roomId = room.roomId)
    (authenticated : env.sender ≠ "") :
    room.apply env =
      room.mediaLww env.sender env.seq env.sentAt update := by
  unfold apply
  rw [if_neg (by simp [sameRoom, authenticated])]
  cases signal : env.signal with
  | media | screenShare | raiseHand =>
      rw [signal] at carries
      cases carries
      rfl
  | offer | answer | iceCandidate | iceEnd | kick | forceMute | join | leave
  | keepalive | reaction | chat | recording | endRoom =>
      rw [signal] at carries
      cases carries

theorem member_store
    {room : Room} {m : Member} {peer : String}
    (atPeer : m.nodeId = peer) :
    (room.store m).member peer = some m := by
  subst atPeer
  exact Indexed.lookup_insert_self m room.members

/-- A media signal keeps the presence of everybody who is known. -/
theorem apply_media_keeps_presence
    {room : Room} {env : SignalEnvelope} {update : MediaUpdate}
    (carries : env.signal.mediaUpdate = some update)
    {peer : String} {m : Member}
    (known : room.member peer = some m) :
    ∃ kept, (room.apply env).2.member peer = some kept ∧
      kept.present = m.present ∧ kept.lastSeq = m.lastSeq := by
  by_cases ours : env.roomId = room.roomId ∧ env.sender ≠ ""
  · by_cases fromPeer : peer = env.sender
    · subst fromPeer
      rw [apply_of_mediaUpdate carries ours.1 ours.2]
      have result := mediaLww_cases room env.sender env.seq env.sentAt update
      generalize room.mediaLww env.sender env.seq env.sentAt update = next
        at result ⊢
      cases result with
      | full unknown | creates unknown => cases known.symm.trans unknown
      | older found older refreshed atNode =>
          cases known.symm.trans found
          exact ⟨_, member_store atNode, refreshed ▸ rfl, refreshed ▸ rfl⟩
      | newer found newer refreshed atNode =>
          cases known.symm.trans found
          refine ⟨_, member_store atNode, ?_, ?_⟩
          · exact (update.applyTo_present _ _).trans (refreshed ▸ rfl)
          · exact (update.applyTo_lastSeq _ _).trans (refreshed ▸ rfl)
    · refine ⟨m, ?_, rfl, rfl⟩
      exact ((apply_writes room env).lookup_of_ne fromPeer).trans known
  · rw [apply_ignored (by tauto)]
    exact ⟨m, known, rfl, rfl⟩

/-- In a run that stays below the cap and sends one value for a dimension and a
number, every dimension ends with the value and the floor of its envelope with
the greatest number, a dimension nobody addressed keeps its initial value, and
no media signal touches the presence of a known member. -/
theorem media_last_write
    (roomId me : String) (cap : Nat)
    (operations : List Operation)
    (noMerge : ∀ snap, .mergeSnapshot snap ∉ operations)
    (belowCap :
      StaysBelowCap ((new roomId me).withMaxMembers cap) operations)
    (wellBehaved : WellBehaved (accepted roomId operations)) :
    (∀ env ∈ accepted roomId operations, ∀ update,
        env.signal.mediaUpdate = some update →
        (∀ other ∈ accepted roomId operations, ∀ otherUpdate,
          other.sender = env.sender →
          other.signal.mediaUpdate = some otherUpdate →
          otherUpdate.dimension = update.dimension →
          other.seq ≤ env.seq) →
        ∃ m, (((new roomId me).withMaxMembers cap).after
            operations).member env.sender = some m ∧
          m.mediaRegister update.dimension =
            (env.seq.saturatingAdd 1, update)) ∧
      (∀ peer m dimension,
        (((new roomId me).withMaxMembers cap).after
          operations).member peer = some m →
        (∀ env ∈ accepted roomId operations, ∀ update,
          env.sender = peer → env.signal.mediaUpdate = some update →
          update.dimension ≠ dimension) →
        m.mediaRegister dimension = (0, dimension.initial)) ∧
      ∀ done env rest update,
        operations = done ++ .apply env :: rest →
        env.signal.mediaUpdate = some update →
        ∀ peer m,
          (((new roomId me).withMaxMembers cap).after done).member peer =
            some m →
          ∃ kept, (((new roomId me).withMaxMembers cap).after
              (done ++ [.apply env])).member peer = some kept ∧
            kept.present = m.present ∧ kept.lastSeq = m.lastSeq := by
  have settled := mediaAt_after noMerge belowCap
  refine ⟨?_, ?_, ?_⟩
  · intro env member update carries greatest
    have written : (env.seq, update) ∈ (accepted roomId operations).filterMap
        (SignalEnvelope.mediaEntry env.sender update.dimension) :=
      List.mem_filterMap.mpr ⟨env, member,
        SignalEnvelope.mediaEntry_eq_some_iff.mpr ⟨rfl, carries, rfl, rfl⟩⟩
    have last := (settled env.sender update.dimension).trans
      (LastWrite.writeAll_eq_of_greatest (fun _ => UInt64.zero_le)
        (consistent_mediaEntries wellBehaved _ _) written ?_)
    · exact member_of_mediaAt last (Order.succ_ne_bot env.seq)
    · intro entry entryMember
      obtain ⟨other, otherMember, otherWritten⟩ :=
        List.mem_filterMap.mp entryMember
      obtain ⟨sameSender, otherCarries, sameDimension, seq⟩ :=
        SignalEnvelope.mediaEntry_eq_some_iff.mp otherWritten
      rw [seq]
      exact greatest other otherMember _ sameSender otherCarries
        sameDimension
  · intro peer m dimension known unaddressed
    have nothing : (accepted roomId operations).filterMap
        (SignalEnvelope.mediaEntry peer dimension) = [] := by
      rw [List.filterMap_eq_nil_iff]
      intro env member
      rw [Option.eq_none_iff_forall_ne_some]
      intro entry written
      obtain ⟨fromPeer, carries, sameDimension, _⟩ :=
        SignalEnvelope.mediaEntry_eq_some_iff.mp written
      exact unaddressed env member _ fromPeer carries sameDimension
    have last := settled peer dimension
    rw [mediaAt_of_lookup known] at last
    exact last.trans (congrArg _ nothing)
  · intro done env rest update _ carries peer m known
    rw [after_append]
    exact apply_media_keeps_presence carries known

/-- A member starts or stops sharing. -/
def bobShares (seq : UInt64) (active : Bool) : SignalEnvelope :=
  (SignalEnvelope.broadcast "r" seq 10 (.screenShare active)).withSender "bob"

/-- An update that arrives late, after the member has been pruned. -/
def lateShare : List Operation :=
  [.apply (bobShares 5 false), .pruneStale 100 30, .apply (bobShares 3 true)]

/-- The late update does not undo the later one. -/
theorem lateShare_last_write :
    ∃ m, (((new "r" "me").withMaxMembers 1).after lateShare).member "bob" =
        some m ∧
      m.mediaRegister .sharing = (6, .sharing false) := by
  have envs : accepted "r" lateShare =
      [bobShares 5 false, bobShares 3 true] := by decide
  have noMerge : ∀ snap, .mergeSnapshot snap ∉ lateShare := by
    simp [lateShare]
  refine (media_last_write "r" "me" 1 lateShare noMerge
    (staysBelowCap_of_noticed noMerge (by decide)) ?_).1
    (bobShares 5 false) (by simp [envs]) (.sharing false) rfl ?_
  · rw [envs]
    simp [WellBehaved, bobShares, SignalEnvelope.broadcast,
      SignalEnvelope.withSender, Signal.mediaUpdate]
  · rw [envs]
    simp [bobShares, SignalEnvelope.broadcast, SignalEnvelope.withSender]

end Room
end CeMeet
