import CeMeet.Room.ChangeLog

/-!
# What a keepalive reports

A keepalive that changes nothing is reported as a refresh.  It may have changed
nothing because its sender is present, because the roster is full, or because
the sender has left and the keepalive is no newer than that.
-/

namespace CeMeet
namespace Room

/-- A refresh that an envelope reports is one of a tracked, present member. -/
def RefreshesPresent (room : Room) (env : SignalEnvelope) : Prop :=
  ∀ nodeId, (room.apply env).1 = .refreshed nodeId →
    ∃ m, (room.apply env).2.member nodeId = some m ∧ m.present = true

/-- Presence asserted at a number does not make a peer present: there is no
slot for its record, or it is absent by a write that is no older. -/
def RefusesPresence (room : Room) (nodeId : String) (seq : UInt64) : Prop :=
  match room.member nodeId with
  | none => room.knownCount ≥ room.maxMembers
  | some m => m.present = false ∧ seq ≤ m.lastSeq

/-- An envelope is a keepalive of the room that does not make its sender
present. -/
structure RefusedKeepalive (room : Room) (env : SignalEnvelope) : Prop where
  /-- It belongs to the room. -/
  sameRoom : env.roomId = room.roomId
  /-- It has a sender. -/
  authenticated : env.sender ≠ ""
  /-- It is a keepalive. -/
  keepalive : env.signal = .keepalive
  /-- Its sender is not made present. -/
  refused : room.RefusesPresence env.sender env.seq

theorem isPresent_eq_true_iff {room : Room} {peer : String} :
    room.isPresent peer = true ↔
      ∃ m, room.member peer = some m ∧ m.present = true :=
  Option.any_eq_true ..

theorem isPresent_of_refusesPresence
    {room : Room} {nodeId : String} {seq : UInt64}
    (refused : room.RefusesPresence nodeId seq) :
    room.isPresent nodeId = false := by
  rw [RefusesPresence] at refused
  split at refused
  next unknown => exact isPresent_of_unknown unknown
  next m found => exact (isPresent_of_lookup found).trans refused.1

/-- An assertion of presence changes nothing where the peer is present, or
where it is refused. -/
theorem lww_present_noChange_iff
    (room : Room) (nodeId : String) (seq sentAt : UInt64) :
    (room.lww nodeId seq sentAt true none).1 = .noChange ↔
      room.isPresent nodeId = true ∨ room.RefusesPresence nodeId seq := by
  have result := lww_cases room nodeId seq sentAt true none
  generalize room.lww nodeId seq sentAt true none = next at result ⊢
  rw [RefusesPresence, member]
  cases result with
  | full unknown full =>
      rw [unknown]
      exact iff_of_true rfl (.inr full)
  | creates unknown free =>
      rw [isPresent_of_unknown unknown, unknown]
      exact iff_of_false (by simp) (by simpa using free)
  | @older m found older =>
      rw [isPresent_of_lookup found, found]
      dsimp only
      cases m.present <;> simp [older.le]
  | @keeps m found atNode same =>
      rw [isPresent_of_lookup found, found]
      dsimp only
      cases m.present <;> simp [same]
  | @removes m found atNode same asserted => cases asserted
  | @newer m found atNode newer =>
      rw [isPresent_of_lookup found, found]
      dsimp only
      cases m.present <;> simp [not_le.mpr newer]

/-- A refresh is reported for the keepalives that change nothing. -/
theorem apply_refreshed_iff
    {room : Room} {env : SignalEnvelope} {nodeId : String} :
    (room.apply env).1 = .refreshed nodeId ↔
      nodeId = env.sender ∧ env.roomId = room.roomId ∧ env.sender ≠ "" ∧
        env.signal = .keepalive ∧
        (room.lww env.sender env.seq env.sentAt true none).1 = .noChange := by
  by_cases ours : env.roomId = room.roomId ∧ env.sender ≠ ""
  · unfold apply
    rw [if_neg (by tauto)]
    cases env.signal with
    | offer | answer | iceCandidate | iceEnd | kick | forceMute | reaction
    | chat | recording | endRoom => simp
    | media | screenShare | raiseHand =>
        exact iff_of_false (mediaLww_effect_ne _ _ _ _ _ (by simp)) (by simp)
    | join | leave =>
        exact iff_of_false (lww_effect_ne _ _ _ _ _ _ (by simp)) (by simp)
    | keepalive =>
        rcases lww_effect room env.sender env.seq env.sentAt true none with
          effect | effect | effect
        all_goals
          generalize room.lww env.sender env.seq env.sentAt true none = result
            at effect
          obtain ⟨_, next⟩ := result
          subst effect
          simp [ours, eq_comm]
  · rw [apply_ignored (by tauto)]
    refine iff_of_false nofun fun refreshed => ?_
    exact ours ⟨refreshed.2.1, refreshed.2.2.1⟩

/-- The refresh that an envelope reports is one of a present member unless the
envelope is a keepalive that was refused. -/
theorem refreshesPresent_iff {room : Room} {env : SignalEnvelope} :
    room.RefreshesPresent env ↔ ¬room.RefusedKeepalive env := by
  constructor
  · intro refreshes refused
    have reported : (room.apply env).1 = .refreshed env.sender :=
      apply_refreshed_iff.mpr ⟨rfl, refused.sameRoom, refused.authenticated,
        refused.keepalive,
        (lww_present_noChange_iff _ _ _ _).mpr (Or.inr refused.refused)⟩
    have after := isPresent_eq_true_iff.mpr (refreshes _ reported)
    have same := apply_reports room env
    rw [reported] at same
    rw [← show _ = _ from same, isPresent_of_refusesPresence refused.refused]
      at after
    cases after
  · intro taken nodeId reported
    obtain ⟨rfl, sameRoom, authenticated, keepalive, unchanged⟩ :=
      apply_refreshed_iff.mp reported
    have same := apply_reports room env
    rw [reported] at same
    rw [← isPresent_eq_true_iff, ← show _ = _ from same]
    rcases (lww_present_noChange_iff _ _ _ _).mp unchanged with
      present | refused
    · exact present
    · exact absurd ⟨sameRoom, authenticated, keepalive, refused⟩ taken

/-- In every run, from a fresh room and under any cap, every refresh is one of
a member that is present exactly if no keepalive of the run is refused. -/
theorem refreshes_present_along_run
    (roomId me : String) (cap : Nat) (operations : List Operation) :
    (∀ done env rest, operations = done ++ .apply env :: rest →
        (((new roomId me).withMaxMembers cap).after done).RefreshesPresent
          env) ↔
      ∀ done env rest, operations = done ++ .apply env :: rest →
        ¬(((new roomId me).withMaxMembers cap).after done).RefusedKeepalive
          env := by
  simp only [refreshesPresent_iff]

/-- A member leaves, and a keepalive it sent before that arrives late. -/
def carolLeaves : List Operation :=
  [.apply ((SignalEnvelope.broadcast "r" 5 10 .leave).withSender "carol")]

/-- The keepalive that carol sent before leaving. -/
def carolWasAlive : SignalEnvelope :=
  (SignalEnvelope.broadcast "r" 3 8 .keepalive).withSender "carol"

/-- The late keepalive is reported as a refresh of a member who is absent. -/
theorem late_keepalive_refreshes_absent :
    let room := ((new "r" "me").withMaxMembers 1).after carolLeaves
    (room.apply carolWasAlive).1 = .refreshed "carol" ∧
      ((room.apply carolWasAlive).2.member "carol").map Member.present =
        some false ∧
      ¬room.RefreshesPresent carolWasAlive := by
  refine ⟨rfl, rfl, fun refreshes => ?_⟩
  obtain ⟨m, found, present⟩ := refreshes "carol" rfl
  cases found
  cases present

end Room
end CeMeet
