import CeMeet.Foundation.Indexed
import CeMeet.Proto
import Mathlib.Data.Prod.Lex
import Mathlib.Data.String.Basic

/-!
# The roster of a room

A participant's local view of one room: a record for every member it has heard
of, under the member's authenticated node id, and the participant's own
outbound sequence counter.  Presence and each of the three media dimensions of
a member are ordered by the member's sequence numbers.
-/

namespace CeMeet

/-- One member's presence and live media state. -/
structure Member where
  /-- The authenticated node id. -/
  nodeId : String
  /-- The display name of the latest join that carried one. -/
  displayName : Option String
  /-- Whether the member is in the room. -/
  present : Bool
  /-- The sequence number presence is ordered by. -/
  lastSeq : UInt64
  /-- The greatest `sentAt` applied from the member. -/
  lastSeen : UInt64
  /-- Whether the microphone is muted. -/
  audioMuted : Bool := false
  /-- Whether the camera is off. -/
  videoMuted : Bool := false
  /-- Whether the member presents a screen. -/
  sharing : Bool := false
  /-- Whether the member has raised a hand. -/
  handRaised : Bool := false
  /-- The least acceptable sequence number of a mute update. -/
  mediaSeq : UInt64 := 0
  /-- The least acceptable sequence number of a screen-share update. -/
  shareSeq : UInt64 := 0
  /-- The least acceptable sequence number of a raised-hand update. -/
  handSeq : UInt64 := 0
  deriving DecidableEq, Repr

/-- An update of one of the three media dimensions. -/
inductive MediaUpdate
  | av (audioMuted videoMuted : Bool)
  | sharing (active : Bool)
  | hand (raised : Bool)
  deriving DecidableEq

namespace MediaUpdate

/-- The least acceptable sequence number of an update. -/
def seqFloor : MediaUpdate → Member → UInt64
  | .av .., m => m.mediaSeq
  | .sharing _, m => m.shareSeq
  | .hand _, m => m.handSeq

/-- Apply an update and raise the floor of its dimension past it. -/
def applyTo (seq : UInt64) : MediaUpdate → Member → Member
  | .av audioMuted videoMuted, m =>
      { m with audioMuted, videoMuted, mediaSeq := seq.saturatingAdd 1 }
  | .sharing active, m =>
      { m with sharing := active, shareSeq := seq.saturatingAdd 1 }
  | .hand raised, m =>
      { m with handRaised := raised, handSeq := seq.saturatingAdd 1 }

@[simp] theorem applyTo_nodeId
    (update : MediaUpdate) (seq : UInt64) (m : Member) :
    (update.applyTo seq m).nodeId = m.nodeId := by
  cases update <;> rfl

@[simp] theorem applyTo_present
    (update : MediaUpdate) (seq : UInt64) (m : Member) :
    (update.applyTo seq m).present = m.present := by
  cases update <;> rfl

@[simp] theorem applyTo_lastSeq
    (update : MediaUpdate) (seq : UInt64) (m : Member) :
    (update.applyTo seq m).lastSeq = m.lastSeq := by
  cases update <;> rfl

end MediaUpdate

/-- What applying an envelope changed. -/
inductive Effect
  | joined (nodeId : String)
  | left (nodeId : String)
  | directed (env : SignalEnvelope)
  | refreshed (nodeId : String)
  | mediaChanged (nodeId : String)
  | reaction (sender emoji : String)
  | chat (sender body : String)
  | recording (sender : String) (active : Bool)
  | roomEnded (sender : String) (reason : Option String)
  | noChange
  deriving DecidableEq, Repr

/-- How many distinct members a room tracks unless told otherwise. -/
def defaultMaxMembers : Nat := 1024

/-- A participant's local view of one room. -/
structure Room where
  /-- The room. -/
  roomId : String
  /-- The participant whose view this is. -/
  me : String
  /-- The members heard of, present or absent. -/
  members : Indexed Member.nodeId
  /-- The participant's next outbound sequence number. -/
  nextSeq : UInt64
  /-- How many distinct members are tracked at most. -/
  maxMembers : Nat
  /-- Whether the room has been ended. -/
  ended : Bool

/-- A persisted view of a room. -/
structure RoomSnapshot where
  /-- The room. -/
  roomId : String
  /-- The participant whose view this is. -/
  me : String
  /-- The participant's next outbound sequence number. -/
  nextSeq : UInt64
  /-- The member records, by node id. -/
  members : List Member

namespace Room

/-- A fresh view of a room. -/
def new (roomId me : String) : Room :=
  { roomId
    me
    members := .empty
    nextSeq := 0
    maxMembers := defaultMaxMembers
    ended := false }

/-- Change the member cap; a cap of zero counts as one. -/
def withMaxMembers (room : Room) (cap : Nat) : Room :=
  { room with maxMembers := max cap 1 }

/-- The number of distinct members heard of. -/
def knownCount (room : Room) : Nat :=
  room.members.size

/-- Allocate the next outbound sequence number.  The counter is incremented
with overflow checks, so at the top word there is no result. -/
def nextOutboundSeq (room : Room) : Option (UInt64 × Room) :=
  if room.nextSeq = UInt64.maxValue then none
  else some (room.nextSeq, { room with nextSeq := room.nextSeq + 1 })

theorem nextOutboundSeq_eq_some_iff
    {room next : Room} {seq : UInt64} :
    room.nextOutboundSeq = some (seq, next) ↔
      room.nextSeq ≠ UInt64.maxValue ∧ seq = room.nextSeq ∧
        next = { room with nextSeq := room.nextSeq + 1 } := by
  unfold nextOutboundSeq
  split
  case isTrue atTop => simp [atTop]
  case isFalse available => simp [available, eq_comm]

/-- Raise the outbound counter to a floor. -/
def resumeOutboundFrom (room : Room) (floor : UInt64) : UInt64 × Room :=
  let next := max room.nextSeq floor
  (next, { room with nextSeq := next })

/-- The outbound counter. -/
def outboundSeq (room : Room) : UInt64 :=
  room.nextSeq

/-- The sorted node ids of the present members. -/
def present (room : Room) : List String :=
  ((room.members.values.filter fun m => m.present).map Member.nodeId).sort
    (· ≤ ·)

/-- Look up a member's record. -/
def member (room : Room) (nodeId : String) : Option Member :=
  room.members.lookup nodeId

/-- Write a member's record back. -/
def store (room : Room) (m : Member) : Room :=
  { room with members := room.members.insert m }

/-- Refresh the liveness of a known, eligible member. -/
def touch (room : Room) (nodeId : String) (sentAt : UInt64)
    (eligible : Member → Bool) : Room :=
  match room.members.lookup nodeId with
  | some m =>
      if eligible m ∧ sentAt > m.lastSeen then
        room.store { m with lastSeen := sentAt }
      else
        room
  | none => room

/-- The presence register: a higher number wins, and at one number absence
wins. -/
def lww (room : Room) (nodeId : String) (seq sentAt : UInt64) (present : Bool)
    (displayName : Option String) : Effect × Room :=
  match room.members.lookup nodeId with
  | some m =>
      if seq < m.lastSeq then
        (.noChange, room)
      else if seq = m.lastSeq then
        let m := { m with
          displayName := displayName.or m.displayName
          lastSeen := max sentAt m.lastSeen }
        if ¬present ∧ m.present then
          (.left nodeId, room.store { m with present := false })
        else
          (.noChange, room.store m)
      else
        let updated := { m with
          lastSeq := seq
          lastSeen := max sentAt m.lastSeen
          present
          displayName := displayName.or m.displayName }
        match m.present, present with
        | false, true => (.joined nodeId, room.store updated)
        | true, false => (.left nodeId, room.store updated)
        | _, _ => (.noChange, room.store updated)
  | none =>
      if room.knownCount ≥ room.maxMembers then
        (.noChange, room)
      else
        let created : Member :=
          { nodeId, displayName, present, lastSeq := seq, lastSeen := sentAt }
        if present then
          (.joined nodeId, room.store created)
        else
          (.noChange, room.store created)

/-- The register of one media dimension.  An update from an unknown member
creates an absent placeholder. -/
def mediaLww (room : Room) (nodeId : String) (seq sentAt : UInt64)
    (update : MediaUpdate) : Effect × Room :=
  match room.members.lookup nodeId with
  | some m =>
      let seen := { m with lastSeen := max sentAt m.lastSeen }
      if seq < update.seqFloor m then
        (.noChange, room.store seen)
      else
        (.mediaChanged nodeId, room.store (update.applyTo seq seen))
  | none =>
      if room.knownCount ≥ room.maxMembers then
        (.noChange, room)
      else
        let placeholder : Member :=
          { nodeId
            displayName := none
            present := false
            lastSeq := 0
            lastSeen := sentAt }
        (.mediaChanged nodeId, room.store (update.applyTo seq placeholder))

/-- Apply a received, sender-stamped envelope. -/
def apply (room : Room) (env : SignalEnvelope) : Effect × Room :=
  if env.roomId ≠ room.roomId ∨ env.sender = "" then
    (.noChange, room)
  else
    match env.signal with
    | .offer _ | .answer _ | .iceCandidate .. | .iceEnd | .kick _
    | .forceMute _ => (.directed env, room)
    | .reaction emoji =>
        (.reaction env.sender emoji,
          room.touch env.sender env.sentAt fun _ => true)
    | .chat body =>
        (.chat env.sender body,
          room.touch env.sender env.sentAt fun _ => true)
    | .recording active => (.recording env.sender active, room)
    | .endRoom reason =>
        (.roomEnded env.sender reason, { room with ended := true })
    | .media audioMuted videoMuted =>
        room.mediaLww env.sender env.seq env.sentAt (.av audioMuted videoMuted)
    | .screenShare active =>
        room.mediaLww env.sender env.seq env.sentAt (.sharing active)
    | .raiseHand raised =>
        room.mediaLww env.sender env.seq env.sentAt (.hand raised)
    | .join displayName =>
        room.lww env.sender env.seq env.sentAt true displayName
    | .leave => room.lww env.sender env.seq env.sentAt false none
    | .keepalive =>
        -- A keepalive asserts presence; one that changes nothing still
        -- refreshes the liveness of a present member.
        match room.lww env.sender env.seq env.sentAt true none with
        | (.joined nodeId, room) => (.joined nodeId, room)
        | (.noChange, room) =>
            (.refreshed env.sender,
              room.touch env.sender env.sentAt fun m => m.present)
        | (other, room) => (other, room)

/-- Whether a member is present but has not been heard of for too long. -/
def isStale (now staleSecs : UInt64) (m : Member) : Bool :=
  m.present && now.saturatingSub m.lastSeen > staleSecs

/-- Mark a member absent if it is stale. -/
def expire (now staleSecs : UInt64) (m : Member) : Member :=
  if isStale now staleSecs m then { m with present := false } else m

@[simp] theorem expire_nodeId (now staleSecs : UInt64) (m : Member) :
    (expire now staleSecs m).nodeId = m.nodeId := by
  unfold expire
  split <;> rfl

/-- Mark the stale members absent; the result lists them. -/
def pruneStale (room : Room) (now staleSecs : UInt64) : List String × Room :=
  (((room.members.values.filter fun m => isStale now staleSecs m).map
      Member.nodeId).sort (· ≤ ·),
    { room with
      members :=
        room.members.map (expire now staleSecs) (expire_nodeId now staleSecs) })

/-- Capture the view for persistence. -/
def snapshot (room : Room) : RoomSnapshot :=
  { roomId := room.roomId
    me := room.me
    nextSeq := room.nextSeq
    members := room.members.sorted }

/-- Rebuild a view from a snapshot.  The cap is not part of it. -/
def restore (snap : RoomSnapshot) : Room :=
  { roomId := snap.roomId
    me := snap.me
    members := .ofList snap.members
    nextSeq := snap.nextSeq
    maxMembers := defaultMaxMembers
    ended := false }

/-- Sort entries of a node id, a presence and a sequence number. -/
def sortEntries (entries : Multiset (String ×ₗ Bool ×ₗ UInt64)) :
    List (String ×ₗ Bool ×ₗ UInt64) :=
  entries.sort (· ≤ ·)

/-- The membership state: node id, presence and sequence number of every
member, sorted. -/
def digest (room : Room) : List (String ×ₗ Bool ×ₗ UInt64) :=
  sortEntries (room.members.values.map fun m =>
    toLex (m.nodeId, toLex (m.present, m.lastSeq)))

/-- Merge one record of a snapshot, collecting the node ids whose presence
changed. -/
def mergeMember (merged : List String × Room) (om : Member) :
    List String × Room :=
  let (changed, room) := merged
  match room.members.lookup om.nodeId with
  | some m =>
      if om.lastSeq > m.lastSeq then
        (if m.present ≠ om.present then changed ++ [m.nodeId] else changed,
          room.store { m with
            lastSeq := om.lastSeq
            present := om.present
            lastSeen := max om.lastSeen m.lastSeen
            displayName := om.displayName.or m.displayName })
      else if om.lastSeq = m.lastSeq then
        let m := { m with
          lastSeen := max om.lastSeen m.lastSeen
          displayName := m.displayName.or om.displayName }
        if ¬om.present ∧ m.present then
          (changed ++ [m.nodeId], room.store { m with present := false })
        else
          (changed, room.store m)
      else
        (changed, room)
  | none =>
      (if om.present then changed ++ [om.nodeId] else changed, room.store om)

/-- Merge another replica's snapshot of the same room. -/
def mergeSnapshot (room : Room) (other : RoomSnapshot) : List String × Room :=
  if other.roomId ≠ room.roomId then
    ([], room)
  else
    let (changed, merged) := other.members.foldl mergeMember ([], room)
    (changed.mergeSort (· ≤ ·), merged)

end Room

end CeMeet
