import CeMeet.Room.Presence

/-!
# Media registers

A member's record keeps a floor and a value for each of three independent media
dimensions.  A media signal writes the register of its own dimension; whatever
else happens to a record leaves the three of them alone.
-/

namespace CeMeet

/-- The three independent media dimensions. -/
inductive MediaDimension
  | av
  | sharing
  | hand
  deriving DecidableEq

/-- The floor and the value of a media dimension. -/
abbrev MediaRegister := UInt64 × MediaUpdate

/-- The dimension of an update. -/
def MediaUpdate.dimension : MediaUpdate → MediaDimension
  | .av .. => .av
  | .sharing _ => .sharing
  | .hand _ => .hand

/-- The update that a signal carries. -/
def Signal.mediaUpdate : Signal → Option MediaUpdate
  | .media audioMuted videoMuted => some (.av audioMuted videoMuted)
  | .screenShare active => some (.sharing active)
  | .raiseHand raised => some (.hand raised)
  | _ => none

/-- The register of a dimension in a record. -/
def Member.mediaRegister (m : Member) : MediaDimension → MediaRegister
  | .av => (m.mediaSeq, .av m.audioMuted m.videoMuted)
  | .sharing => (m.shareSeq, .sharing m.sharing)
  | .hand => (m.handSeq, .hand m.handRaised)

/-- Every sender sends at most one value for a dimension and a number. -/
def WellBehaved (envs : List SignalEnvelope) : Prop :=
  ∀ env ∈ envs, ∀ other ∈ envs,
    env.sender = other.sender → env.seq = other.seq →
    ∀ update otherUpdate,
      env.signal.mediaUpdate = some update →
      other.signal.mediaUpdate = some otherUpdate →
      update.dimension = otherUpdate.dimension → update = otherUpdate

namespace Room

/-- The media register of a member, if the member is known. -/
def mediaRegister (room : Room) (peer : String) (dimension : MediaDimension) :
    Option MediaRegister :=
  (room.member peer).map fun m => m.mediaRegister dimension

theorem mediaRegister_of_lookup
    {room : Room} {peer : String} {m : Member}
    (found : room.members.lookup peer = some m)
    (dimension : MediaDimension) :
    room.mediaRegister peer dimension = some (m.mediaRegister dimension) := by
  rw [mediaRegister, member, found]
  rfl

theorem mediaRegister_of_unknown
    {room : Room} {peer : String}
    (unknown : room.members.lookup peer = none)
    (dimension : MediaDimension) :
    room.mediaRegister peer dimension = none := by
  rw [mediaRegister, member, unknown]
  rfl

theorem mediaRegister_store
    {room : Room} {m : Member} {peer : String}
    {dimension : MediaDimension} {held : MediaRegister}
    (atPeer : m.nodeId = peer)
    (holds : m.mediaRegister dimension = held) :
    (room.store m).mediaRegister peer dimension = some held := by
  subst atPeer holds
  exact mediaRegister_of_lookup (Indexed.lookup_insert_self m room.members) _

end Room
end CeMeet
