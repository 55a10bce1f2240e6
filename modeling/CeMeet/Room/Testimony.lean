import CeMeet.Room.MediaState

/-!
# Every field of a record was sent

A roster that is neither swept nor merged holds nothing about a member but what
the member's own envelopes say: its presence and number, its name, its last sign
of life, and its three media dimensions.
-/

namespace CeMeet

/-- Every field of a record comes from an envelope of a log. -/
structure Member.Attested (log : List SignalEnvelope) (m : Member) : Prop where
  /-- Presence was asserted under its number. -/
  present : m.present = true → ∃ env ∈ log, env.signal.isPresence = true ∧
    env.signal.isLeave = false ∧ env.seq = m.lastSeq
  /-- Absence was asserted under its number, or nothing was but a media
  state. -/
  absent : m.present = false →
    (∃ env ∈ log, env.signal.isLeave = true ∧ env.seq = m.lastSeq) ∨
      m.lastSeq = 0 ∧ ∃ env ∈ log, env.signal.isMedia = true
  /-- The name was carried by a join. -/
  name : ∀ name, m.displayName = some name →
    ∃ env ∈ log, env.signal = .join (some name)
  /-- The last sign of life is the time of an envelope. -/
  seen : ∃ env ∈ log, env.sentAt = m.lastSeen
  /-- Every media dimension is untouched, or holds the value of an envelope over
  a floor past its number. -/
  media : ∀ dimension,
    m.mediaRegister dimension = (0, dimension.initial) ∨
      ∃ env ∈ log,
        env.signal.mediaUpdate = some (m.mediaRegister dimension).2 ∧
          (m.mediaRegister dimension).1 = env.seq.saturatingAdd 1

namespace Member.Attested

theorem mono {log later : List SignalEnvelope} {m : Member}
    (attested : m.Attested log) (grows : log ⊆ later) :
    m.Attested later where
  present := fun here =>
    (attested.present here).imp fun _ found => ⟨grows found.1, found.2⟩
  absent := fun away =>
    (attested.absent away).imp
      (Exists.imp fun _ found => ⟨grows found.1, found.2⟩)
      (And.imp_right (Exists.imp fun _ found => ⟨grows found.1, found.2⟩))
  name := fun name named =>
    (attested.name name named).imp fun _ found => ⟨grows found.1, found.2⟩
  seen := attested.seen.imp fun _ found => ⟨grows found.1, found.2⟩
  media := fun dimension =>
    (attested.media dimension).imp_right
      (Exists.imp fun _ found => ⟨grows found.1, found.2⟩)

/-- A later sign of life. -/
theorem refresh {log : List SignalEnvelope} {m : Member}
    (attested : m.Attested log) {env : SignalEnvelope} (member : env ∈ log) :
    ({ m with lastSeen := max env.sentAt m.lastSeen } : Member).Attested
      log where
  present := attested.present
  absent := attested.absent
  name := attested.name
  seen := by
    rcases max_choice env.sentAt m.lastSeen with later | earlier
    · exact ⟨env, member, later.symm⟩
    · exact attested.seen.imp fun _ found =>
        ⟨found.1, found.2.trans earlier.symm⟩
  media := fun dimension => by
    rw [Member.mediaRegister_seen]
    exact attested.media dimension

/-- Presence as a presence signal asserts it, and the name it carries. -/
theorem assert {log : List SignalEnvelope} {m : Member}
    (attested : m.Attested log) {env : SignalEnvelope} (member : env ∈ log)
    (asserts : env.signal.isPresence = true)
    {displayName : Option String}
    (carries : ∀ name, displayName = some name →
      env.signal = .join (some name)) :
    ({ m with
      lastSeq := env.seq
      lastSeen := max env.sentAt m.lastSeen
      present := !env.signal.isLeave
      displayName := displayName.or m.displayName } : Member).Attested
      log where
  present := fun here =>
    ⟨env, member, asserts, by simpa using here, rfl⟩
  absent := fun away => Or.inl ⟨env, member, by simpa using away, rfl⟩
  name := fun name named => by
    rw [Option.or_eq_some_iff] at named
    rcases named with carried | ⟨_, held⟩
    · exact ⟨env, member, carries name carried⟩
    · exact attested.name name held
  seen := (attested.refresh member).seen
  media := fun dimension => by
    have same := attested.media dimension
    cases dimension <;> exact same

/-- A media dimension as a media signal sets it. -/
theorem set {log : List SignalEnvelope} {m : Member}
    (attested : m.Attested log) {env : SignalEnvelope} (member : env ∈ log)
    {update : MediaUpdate} (carries : env.signal.mediaUpdate = some update) :
    (update.applyTo env.seq m).Attested log where
  present := by
    rw [MediaUpdate.applyTo_present, MediaUpdate.applyTo_lastSeq]
    exact attested.present
  absent := by
    rw [MediaUpdate.applyTo_present, MediaUpdate.applyTo_lastSeq]
    exact attested.absent
  name := by
    have sameName : (update.applyTo env.seq m).displayName = m.displayName := by
      cases update <;> rfl
    rw [sameName]
    exact attested.name
  seen := by
    have sameSeen : (update.applyTo env.seq m).lastSeen = m.lastSeen := by
      cases update <;> rfl
    rw [sameSeen]
    exact attested.seen
  media := fun dimension => by
    rw [MediaUpdate.mediaRegister_applyTo]
    split
    case isTrue => exact Or.inr ⟨env, member, carries, rfl⟩
    case isFalse => exact attested.media dimension

/-- A record created by a presence signal. -/
theorem created {log : List SignalEnvelope} {env : SignalEnvelope}
    (member : env ∈ log) (asserts : env.signal.isPresence = true)
    {displayName : Option String}
    (carries : ∀ name, displayName = some name →
      env.signal = .join (some name))
    (nodeId : String) :
    ({ nodeId
       displayName
       present := !env.signal.isLeave
       lastSeq := env.seq
       lastSeen := env.sentAt } : Member).Attested log where
  present := fun here => ⟨env, member, asserts, by simpa using here, rfl⟩
  absent := fun away => Or.inl ⟨env, member, by simpa using away, rfl⟩
  name := fun name named => ⟨env, member, carries name named⟩
  seen := ⟨env, member, rfl⟩
  media := fun dimension => Or.inl (by cases dimension <;> rfl)

/-- A placeholder created by a media signal. -/
theorem placeholder {log : List SignalEnvelope} {env : SignalEnvelope}
    (member : env ∈ log) (isMedia : env.signal.isMedia = true)
    (nodeId : String) :
    ({ nodeId
       displayName := none
       present := false
       lastSeq := 0
       lastSeen := env.sentAt } : Member).Attested log where
  present := by simp
  absent := fun _ => Or.inr ⟨rfl, env, member, isMedia⟩
  name := by simp
  seen := ⟨env, member, rfl⟩
  media := fun dimension => Or.inl (by cases dimension <;> rfl)

end Member.Attested

namespace Room

/-- The record of a peer, if there is one, comes from a log. -/
def AttestedAt (room : Room) (peer : String) (log : List SignalEnvelope) :
    Prop :=
  ∀ m, room.members.lookup peer = some m → m.Attested log

theorem attestedAt_store
    {room : Room} {m : Member} {peer : String} {log : List SignalEnvelope}
    (atPeer : m.nodeId = peer) (attested : m.Attested log) :
    (room.store m).AttestedAt peer log := by
  intro other found
  cases (member_store atPeer).symm.trans found
  exact attested

theorem AttestedAt.touch
    {room : Room} {env : SignalEnvelope} {log : List SignalEnvelope}
    (attested : room.AttestedAt env.sender log) (member : env ∈ log)
    (eligible : Member → Bool) :
    (room.touch env.sender env.sentAt eligible).AttestedAt env.sender log := by
  have result := touch_cases room env.sender env.sentAt eligible
  generalize room.touch env.sender env.sentAt eligible = next at result ⊢
  cases result with
  | unknown | kept => exact attested
  | seen found atNode accepted later =>
      have refreshed := (attested _ found).refresh member
      rw [max_eq_left later.le] at refreshed
      exact attestedAt_store atNode refreshed

theorem AttestedAt.lww
    {room : Room} {env : SignalEnvelope} {log : List SignalEnvelope}
    (attested : room.AttestedAt env.sender log) (member : env ∈ log)
    (asserts : env.signal.isPresence = true)
    {displayName : Option String}
    (carries : ∀ name, displayName = some name →
      env.signal = .join (some name)) :
    (room.lww env.sender env.seq env.sentAt (!env.signal.isLeave)
      displayName).2.AttestedAt env.sender log := by
  have result := lww_cases room env.sender env.seq env.sentAt
    (!env.signal.isLeave) displayName
  generalize room.lww env.sender env.seq env.sentAt (!env.signal.isLeave)
    displayName = next at result ⊢
  cases result with
  | full | older => exact attested
  | creates => exact attestedAt_store rfl (.created member asserts carries _)
  | @removes m found atNode same asserted wasPresent =>
      have asserted' := (attested m found).assert member asserts carries
      rw [asserted, same] at asserted'
      exact attestedAt_store atNode asserted'
  | @keeps m found atNode same agrees =>
      have before := attested m found
      have after := before.assert member asserts carries
      refine attestedAt_store atNode
        { present := before.present
          absent := before.absent
          name := after.name
          seen := after.seen
          media := fun dimension => ?_ }
      have kept := before.media dimension
      cases dimension <;> exact kept
  | newer found atNode later =>
      exact attestedAt_store atNode
        ((attested _ found).assert member asserts carries)

theorem AttestedAt.lww_unnamed
    {room : Room} {env : SignalEnvelope} {log : List SignalEnvelope}
    (attested : room.AttestedAt env.sender log) (member : env ∈ log)
    (asserts : env.signal.isPresence = true) :
    (room.lww env.sender env.seq env.sentAt (!env.signal.isLeave)
      none).2.AttestedAt env.sender log :=
  attested.lww member asserts (by simp)

theorem AttestedAt.mediaLww
    {room : Room} {env : SignalEnvelope} {log : List SignalEnvelope}
    (attested : room.AttestedAt env.sender log) (member : env ∈ log)
    {update : MediaUpdate} (carries : env.signal.mediaUpdate = some update) :
    (room.mediaLww env.sender env.seq env.sentAt update).2.AttestedAt
      env.sender log := by
  have isMedia : env.signal.isMedia = true := by
    cases signal : env.signal <;> rw [signal] at carries <;>
      first | rfl | cases carries
  have result := mediaLww_cases room env.sender env.seq env.sentAt update
  generalize room.mediaLww env.sender env.seq env.sentAt update = next
    at result ⊢
  cases result with
  | full => exact attested
  | creates unknown free blank atNode =>
      subst blank
      exact attestedAt_store atNode
        ((Member.Attested.placeholder member isMedia _).set member carries)
  | older found older refreshed atNode =>
      subst refreshed
      exact attestedAt_store atNode ((attested _ found).refresh member)
  | newer found newer refreshed atNode =>
      subst refreshed
      exact attestedAt_store atNode
        (((attested _ found).refresh member).set member carries)

/-- An envelope of the room attests to what it changes in its sender's
record. -/
theorem AttestedAt.apply_own
    {room : Room} {env : SignalEnvelope} {log : List SignalEnvelope}
    (attested : room.AttestedAt env.sender log) (member : env ∈ log)
    (sameRoom : env.roomId = room.roomId) (authenticated : env.sender ≠ "") :
    (room.apply env).2.AttestedAt env.sender log := by
  unfold apply
  rw [if_neg (by simp [sameRoom, authenticated])]
  cases signal : env.signal with
  | offer | answer | iceCandidate | iceEnd | kick | forceMute | recording
  | endRoom => exact attested
  | reaction | chat => exact attested.touch member _
  | media | screenShare | raiseHand =>
      exact attested.mediaLww member (by rw [signal]; rfl)
  | join displayName =>
      have written := attested.lww member (by rw [signal]; rfl)
        fun name same => signal.trans (congrArg _ same)
      rwa [signal] at written
  | leave =>
      have written := attested.lww_unnamed member (by rw [signal]; rfl)
      rwa [signal] at written
  | keepalive =>
      have written := attested.lww_unnamed member (by rw [signal]; rfl)
      rw [signal] at written
      dsimp only
      split
      next result => exact result ▸ written
      next result =>
        have kept : AttestedAt _ env.sender log := result ▸ written
        exact kept.touch member _
      next result => exact result ▸ written

/-- An operation that neither sweeps nor merges. -/
def Operation.isLocal : Operation → Bool
  | .apply _ | .nextOutboundSeq | .resumeOutboundFrom _ => true
  | .pruneStale .. | .mergeSnapshot _ => false

/-- Every record comes from the envelopes of its member in a log. -/
def Attests (room : Room) (log : List SignalEnvelope) : Prop :=
  ∀ peer, room.AttestedAt peer (log.filter fun env => env.sender = peer)

/-- A local operation keeps every record attested. -/
theorem Attests.operate
    {room : Room} {log : List SignalEnvelope}
    (attests : room.Attests log)
    {operation : Operation} (isLocal : operation.isLocal = true) :
    (room.operate operation).2.Attests
      (log ++ (operation.accepted room.roomId).toList) := by
  have grows : ∀ peer, room.AttestedAt peer
      ((log ++ (operation.accepted room.roomId).toList).filter
        fun env => env.sender = peer) := fun peer m found =>
    (attests peer m found).mono
      (List.Sublist.filter _ (List.sublist_append_left log _)).subset
  cases operation with
  | apply env =>
      change (room.apply env).2.Attests _
      by_cases ours : env.roomId = room.roomId ∧ env.sender ≠ ""
      · rw [Operation.accepted, if_pos ours, Option.toList_some] at grows ⊢
        intro peer
        by_cases fromPeer : env.sender = peer
        · subst fromPeer
          exact (grows env.sender).apply_own (by simp) ours.1 ours.2
        · intro m found
          rw [(apply_writes room env).lookup_of_ne (Ne.symm fromPeer)] at found
          exact grows peer m found
      · rw [apply_ignored (by tauto)]
        exact grows
  | nextOutboundSeq =>
      obtain ⟨seq, nextSeq, allocated⟩ := operate_nextOutboundSeq room
      rw [allocated]
      exact grows
  | resumeOutboundFrom floor => exact grows
  | pruneStale now staleSecs => cases isLocal
  | mergeSnapshot snap => cases isLocal

/-- Along a run without sweeps and merges every record is attested. -/
theorem attests_after
    (roomId me : String) {operations : List Operation}
    (isLocal : ∀ operation ∈ operations, operation.isLocal = true) :
    ((new roomId me).after operations).Attests
      (accepted roomId operations) := by
  refine Transducer.history_induction
    (motive := fun done _ (room : Room) =>
      room.Attests (accepted roomId done))
    operations (fun peer m found => ?_) ?_
  · cases found
  · intro done operation rest split attests
    have sameRoom : ((new roomId me).after done).roomId = roomId :=
      after_roomId _ done
    have next := attests.operate (isLocal operation (by simp [split]))
    rw [sameRoom] at next
    have extended : accepted roomId (done ++ [operation]) =
        accepted roomId done ++ (operation.accepted roomId).toList := by
      cases taken : operation.accepted roomId <;> simp [accepted, taken]
    rw [extended]
    exact next

end Room
end CeMeet
