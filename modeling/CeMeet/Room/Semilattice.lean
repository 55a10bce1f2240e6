import CeMeet.Room.Merge

/-!
# Merging is a join

Seen through the digest, merging a snapshot takes the least upper bound of what
the two sides record of each member.  The laws of a semilattice follow, for
three-way merges too.
-/

namespace CeMeet

/-- The stamps that a digest records for a member. -/
def recorded (digest : List (String ×ₗ Bool ×ₗ UInt64)) (peer : String) :
    Set (Stamp UInt64) :=
  {held | ∃ seq present, held = Register.stamp seq present ∧
    toLex (peer, toLex (present, seq)) ∈ digest}

namespace Room

/-- A digest records what the registers hold. -/
theorem recorded_digest (room : Room) (peer : String) :
    recorded room.digest peer = Register.contents (room.register peer) := by
  ext held
  rw [Register.contents, Set.mem_ofPred_eq, ← mem_digest_iff]
  constructor
  · rintro ⟨seq, present, rfl, member⟩
    rw [← Bool.not_not present] at member
    exact member
  · intro member
    refine ⟨(ofLex held).1, !(ofLex held).2, ?_, member⟩
    rw [Register.stamp, Bool.not_not]
    rfl

/-- Merge the current snapshot of another replica. -/
def merge (room other : Room) : Room :=
  (room.mergeSnapshot other.snapshot).2

theorem merge_roomId (room other : Room) :
    (room.merge other).roomId = room.roomId :=
  mergeSnapshot_roomId room other.snapshot

theorem register_merge
    {room other : Room}
    (sameRoom : other.roomId = room.roomId)
    (peer : String) :
    (room.merge other).register peer =
      max (room.register peer) (other.register peer) := by
  rw [merge, register_mergeSnapshot sameRoom, register_snapshot]

/-- For three replicas of one room, a merge records of each member the least
upper bound of what the two sides record, and of a member of one side only what
that side records; so the digests obey the laws of a semilattice.  A snapshot
of another room changes nothing. -/
theorem merge_isLUB
    (a b c : Room)
    (sameRoomB : b.roomId = a.roomId)
    (sameRoomC : c.roomId = a.roomId) :
    (∀ peer held, held ∈ recorded (a.merge b).digest peer ↔
        (recorded a.digest peer ∪ recorded b.digest peer).Nonempty ∧
          IsLUB (recorded a.digest peer ∪ recorded b.digest peer) held) ∧
      (a.merge b).digest = (b.merge a).digest ∧
      ((a.merge b).merge c).digest = (a.merge (b.merge c)).digest ∧
      (a.merge a).digest = a.digest ∧
      ∀ snap : RoomSnapshot, snap.roomId ≠ a.roomId →
        a.mergeSnapshot snap = ([], a) := by
  have sameRoomBC : (b.merge c).roomId = a.roomId :=
    (merge_roomId b c).trans sameRoomB
  have sameRoomAB : c.roomId = (a.merge b).roomId :=
    sameRoomC.trans (merge_roomId a b).symm
  refine ⟨fun peer held => ?_, digest_eq_of_register fun peer => ?_,
    digest_eq_of_register fun peer => ?_,
    digest_eq_of_register fun peer => ?_, fun _ => mergeSnapshot_ignored⟩
  · rw [recorded_digest, recorded_digest, recorded_digest,
      register_merge sameRoomB, Register.mem_contents_max_iff]
  · rw [register_merge sameRoomB, register_merge sameRoomB.symm, max_comm]
  · rw [register_merge sameRoomAB, register_merge sameRoomB,
      register_merge sameRoomBC,
      register_merge (sameRoomC.trans sameRoomB.symm), max_assoc]
  · rw [register_merge rfl, max_self]

/-- A replica that has heard one signal of a participant. -/
def replicaOf (signal : Signal) : Room :=
  ((new "r" "bob").apply
    ((SignalEnvelope.broadcast "r" 0 1000 signal).withSender "ann")).2

theorem replicaOf_roomId (signal : Signal) :
    (replicaOf signal).roomId = "r" :=
  (apply_writes (new "r" "bob") _).roomId

/-- Three replicas that disagree about a participant at one sequence number
merge in any order. -/
theorem replicas_merge :
    let joined := replicaOf (.join none)
    let left := replicaOf .leave
    let alive := replicaOf .keepalive
    (joined.merge left).digest = (left.merge joined).digest ∧
      ((joined.merge left).merge alive).digest =
        (joined.merge (left.merge alive)).digest := by
  intro joined left alive
  obtain ⟨_, commutes, associates, _⟩ := merge_isLUB joined left alive
    ((replicaOf_roomId .leave).trans (replicaOf_roomId (.join none)).symm)
    ((replicaOf_roomId .keepalive).trans (replicaOf_roomId (.join none)).symm)
  exact ⟨commutes, associates⟩

end Room
end CeMeet
