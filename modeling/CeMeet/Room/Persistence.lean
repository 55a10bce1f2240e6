import CeMeet.Foundation.Replacement
import CeMeet.Foundation.Separator
import CeMeet.Room.Basic
import CeMeet.Wire

/-!
# Saving snapshots

A snapshot is saved by way of a temporary file whose name is made of the process
id and of the snapshot's counter.  Saves of one process into one directory are
isolated from one another, and from a crash, exactly if their counters differ
and no snapshot is saved under the name of a temporary file.
-/

namespace CeMeet

/-- The JSON value of a member record. -/
def Member.toJson (m : Member) : Json :=
  .object
    [("node_id", .string m.nodeId),
      ("display_name", optionJson .string m.displayName),
      ("present", .bool m.present),
      ("last_seq", .number m.lastSeq.toNat),
      ("last_seen", .number m.lastSeen.toNat),
      ("audio_muted", .bool m.audioMuted),
      ("video_muted", .bool m.videoMuted),
      ("sharing", .bool m.sharing),
      ("hand_raised", .bool m.handRaised),
      ("media_seq", .number m.mediaSeq.toNat),
      ("share_seq", .number m.shareSeq.toNat),
      ("hand_seq", .number m.handSeq.toNat)]

namespace RoomSnapshot

/-- The JSON value of a snapshot. -/
def toJson (snap : RoomSnapshot) : Json :=
  .object
    [("room_id", .string snap.roomId),
      ("me", .string snap.me),
      ("next_seq", .number snap.nextSeq.toNat),
      ("members", .array (snap.members.map Member.toJson))]

/-- Serialize a snapshot. -/
def toBytes (snap : RoomSnapshot) : Bytes :=
  snap.toJson.render

/-- The name of the temporary file of a snapshot. -/
def tempName (pid : UInt32) (nextSeq : UInt64) : String :=
  ".ce-meet-snap-" ++ toString pid.toNat ++ "-" ++ toString nextSeq.toNat ++
    ".tmp"

/-- Save a snapshot under a name of the directory. -/
def saveAtomic (pid : UInt32) (snap : RoomSnapshot) (dest : String) :
    Replacement String :=
  { temp := tempName pid snap.nextSeq, dest, bytes := snap.toBytes }

theorem tempName_inj {pid : UInt32} {left right : UInt64} :
    tempName pid left = tempName pid right ↔ left = right := by
  unfold tempName
  rw [String.append_left_inj, String.append_right_inj]
  exact Separator.toString_inj.trans UInt64.toNat_inj

theorem toBytes_ne_nil (snap : RoomSnapshot) : snap.toBytes ≠ [] := by
  nofun

/-- The saves of one process into one directory leave every destination with its
previous contents or all of a snapshot saved to it, at every point of every
interleaving, exactly if no two snapshots have one counter and no destination is
the temporary file of a save. -/
theorem saves_isolated_iff
    {ι : Type} [DecidableEq ι]
    (pid : UInt32) (calls : ι → RoomSnapshot × String) :
    let saves := fun i => saveAtomic pid (calls i).1 (calls i).2
    (∀ files schedule, Replacement.Isolated saves files
        (Replacement.run saves files schedule).files) ↔
      (Function.Injective fun i => (calls i).1.nextSeq) ∧
        ∀ i j, (calls i).2 ≠ tempName pid (calls j).1.nextSeq := by
  intro saves
  rw [Replacement.isolated_iff_separate fun i => toBytes_ne_nil (calls i).1]
  constructor
  · intro separate
    refine ⟨fun i j same => separate.temps ?_, separate.dests⟩
    exact tempName_inj.mpr same
  · rintro ⟨counters, names⟩
    exact
      { temps := fun i j shared => counters (tempName_inj.mp shared)
        dests := names }

/-- A snapshot of one room and a snapshot of another room, neither of which has
sent anything. -/
def unsentRooms (second : Bool) : RoomSnapshot × String :=
  if second then ((Room.new "s" "me").snapshot, "s.json")
  else ((Room.new "r" "me").snapshot, "r.json")

/-- When the second room opens the temporary file of the first, which is then
renamed, what is left at `r.json` is an empty file. -/
theorem unsentRooms_torn :
    let saves := fun i => saveAtomic 1 (unsentRooms i).1 (unsentRooms i).2
    ¬Replacement.Isolated saves .empty
      (Replacement.run saves .empty
        [(false, 0), (false, (saves false).bytes.length), (true, 0),
          (false, 0)]).files := by
  intro saves
  have filled : ∀ i, (saves i).bytes ≠ [] := fun _ => toBytes_ne_nil _
  have shared : (saves false).temp = (saves true).temp := rfl
  exact Replacement.not_isolated_of_shared filled Bool.false_ne_true shared

end RoomSnapshot
end CeMeet
