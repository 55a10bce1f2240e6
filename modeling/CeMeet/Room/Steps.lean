import CeMeet.Room.Basic

/-!
# What a signal does to a roster

The ways in which refreshing liveness, asserting presence and updating a media
dimension can end, each with the record they write and the reason.
-/

namespace CeMeet
namespace Room

/-- Refreshing liveness leaves a room as it is, or advances the last sign of
life of an eligible member. -/
inductive TouchResult (room : Room) (nodeId : String) (sentAt : UInt64)
    (eligible : Member → Bool) : Room → Prop
  | unknown
      (unknown : room.members.lookup nodeId = none) :
      TouchResult room nodeId sentAt eligible room
  | kept {m : Member}
      (found : room.members.lookup nodeId = some m)
      (refused : ¬(eligible m ∧ sentAt > m.lastSeen)) :
      TouchResult room nodeId sentAt eligible room
  | seen {m : Member}
      (found : room.members.lookup nodeId = some m)
      (atNode : m.nodeId = nodeId)
      (accepted : eligible m = true)
      (later : m.lastSeen < sentAt) :
      TouchResult room nodeId sentAt eligible
        (room.store { m with lastSeen := sentAt })

theorem touch_cases
    (room : Room) (nodeId : String) (sentAt : UInt64)
    (eligible : Member → Bool) :
    TouchResult room nodeId sentAt eligible
      (room.touch nodeId sentAt eligible) := by
  unfold touch
  cases found : room.members.lookup nodeId with
  | none => exact .unknown found
  | some m =>
      dsimp only
      split
      case isTrue accepted =>
        exact .seen found (Indexed.key_of_lookup found) accepted.1 accepted.2
      case isFalse refused => exact .kept found refused

/-- An assertion of presence or absence is ignored if the roster is full or the
record is newer, creates a record, takes a member away or completes its record
at the same number, or is written over an older record. -/
inductive LwwResult (room : Room) (nodeId : String) (seq sentAt : UInt64)
    (present : Bool) (displayName : Option String) : Effect × Room → Prop
  | full
      (unknown : room.members.lookup nodeId = none)
      (full : room.knownCount ≥ room.maxMembers) :
      LwwResult room nodeId seq sentAt present displayName (.noChange, room)
  | creates
      (unknown : room.members.lookup nodeId = none)
      (free : ¬room.knownCount ≥ room.maxMembers) :
      LwwResult room nodeId seq sentAt present displayName
        (if present then .joined nodeId else .noChange,
          room.store
            { nodeId, displayName, present, lastSeq := seq, lastSeen := sentAt })
  | older {m : Member}
      (found : room.members.lookup nodeId = some m)
      (older : seq < m.lastSeq) :
      LwwResult room nodeId seq sentAt present displayName (.noChange, room)
  | removes {m : Member}
      (found : room.members.lookup nodeId = some m)
      (atNode : m.nodeId = nodeId)
      (same : seq = m.lastSeq)
      (asserted : present = false)
      (wasPresent : m.present = true) :
      LwwResult room nodeId seq sentAt present displayName
        (.left nodeId,
          room.store { m with
            displayName := displayName.or m.displayName
            lastSeen := max sentAt m.lastSeen
            present := false })
  | keeps {m : Member}
      (found : room.members.lookup nodeId = some m)
      (atNode : m.nodeId = nodeId)
      (same : seq = m.lastSeq)
      (agrees : (m.present && present) = m.present) :
      LwwResult room nodeId seq sentAt present displayName
        (.noChange,
          room.store { m with
            displayName := displayName.or m.displayName
            lastSeen := max sentAt m.lastSeen })
  | newer {m : Member}
      (found : room.members.lookup nodeId = some m)
      (atNode : m.nodeId = nodeId)
      (newer : m.lastSeq < seq) :
      LwwResult room nodeId seq sentAt present displayName
        (if m.present = present then .noChange
          else if present then .joined nodeId
          else .left nodeId,
          room.store { m with
            lastSeq := seq
            lastSeen := max sentAt m.lastSeen
            present
            displayName := displayName.or m.displayName })

theorem lww_cases
    (room : Room) (nodeId : String) (seq sentAt : UInt64) (present : Bool)
    (displayName : Option String) :
    LwwResult room nodeId seq sentAt present displayName
      (room.lww nodeId seq sentAt present displayName) := by
  unfold lww
  cases found : room.members.lookup nodeId with
  | none =>
      dsimp only
      split
      case isTrue full => exact .full found full
      case isFalse free => cases present <;> exact .creates found free
  | some m =>
      have atNode : m.nodeId = nodeId := Indexed.key_of_lookup found
      dsimp only
      split
      case isTrue older => exact .older found older
      case isFalse notOlder =>
        split
        case isTrue same =>
          split
          case isTrue removal =>
            exact .removes found atNode same
              (Bool.eq_false_of_not_eq_true removal.1) removal.2
          case isFalse keeps =>
            refine .keeps found atNode same ?_
            revert keeps
            cases m.present <;> cases present <;> simp
        case isFalse different =>
          have later : m.lastSeq < seq :=
            lt_of_le_of_ne (not_lt.mp notOlder) (Ne.symm different)
          have written : ∀ effect,
              effect = (if m.present = present then .noChange
                else if present then .joined nodeId
                else .left nodeId) →
              LwwResult room nodeId seq sentAt present displayName
                (effect, room.store { m with
                  lastSeq := seq
                  lastSeen := max sentAt m.lastSeen
                  present
                  displayName := displayName.or m.displayName }) := by
            rintro _ rfl
            exact .newer found atNode later
          cases wasPresent : m.present <;> cases present <;>
            exact written _ (by simp [wasPresent])

/-- A media update is ignored if the roster is full, creates a placeholder, only
refreshes the liveness of its sender if it is older than the dimension's floor,
or is taken. -/
inductive MediaLwwResult (room : Room) (nodeId : String) (seq sentAt : UInt64)
    (update : MediaUpdate) : Effect × Room → Prop
  | full
      (unknown : room.members.lookup nodeId = none)
      (full : room.knownCount ≥ room.maxMembers) :
      MediaLwwResult room nodeId seq sentAt update (.noChange, room)
  | creates {placeholder : Member}
      (unknown : room.members.lookup nodeId = none)
      (free : ¬room.knownCount ≥ room.maxMembers)
      (blank : placeholder =
        { nodeId
          displayName := none
          present := false
          lastSeq := 0
          lastSeen := sentAt })
      (atNode : (update.applyTo seq placeholder).nodeId = nodeId) :
      MediaLwwResult room nodeId seq sentAt update
        (.mediaChanged nodeId, room.store (update.applyTo seq placeholder))
  | older {m seen : Member}
      (found : room.members.lookup nodeId = some m)
      (older : seq < update.seqFloor m)
      (refreshed : seen = { m with lastSeen := max sentAt m.lastSeen })
      (atNode : seen.nodeId = nodeId) :
      MediaLwwResult room nodeId seq sentAt update (.noChange, room.store seen)
  | newer {m seen : Member}
      (found : room.members.lookup nodeId = some m)
      (newer : ¬seq < update.seqFloor m)
      (refreshed : seen = { m with lastSeen := max sentAt m.lastSeen })
      (atNode : (update.applyTo seq seen).nodeId = nodeId) :
      MediaLwwResult room nodeId seq sentAt update
        (.mediaChanged nodeId, room.store (update.applyTo seq seen))

theorem mediaLww_cases
    (room : Room) (nodeId : String) (seq sentAt : UInt64)
    (update : MediaUpdate) :
    MediaLwwResult room nodeId seq sentAt update
      (room.mediaLww nodeId seq sentAt update) := by
  unfold mediaLww
  cases found : room.members.lookup nodeId with
  | none =>
      dsimp only
      split
      case isTrue full => exact .full found full
      case isFalse free => exact .creates found free rfl (by simp)
  | some m =>
      have atNode : m.nodeId = nodeId := Indexed.key_of_lookup found
      dsimp only
      split
      case isTrue older => exact .older found older rfl atNode
      case isFalse newer =>
        exact .newer found newer rfl (by simp [atNode])

end Room
end CeMeet
