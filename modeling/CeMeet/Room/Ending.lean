import CeMeet.Room.Operation

/-!
# The end mark of a room

A room is marked as ended by the first end signal it applies, whoever sent it,
and nothing takes the mark back.
-/

namespace CeMeet

/-- Whether an envelope is an end signal that a room accepts. -/
def SignalEnvelope.EndsRoom (env : SignalEnvelope) (roomId : String) : Prop :=
  env.roomId = roomId ∧ env.sender ≠ "" ∧
    ∃ reason, env.signal = .endRoom reason

namespace Room

/-- Whether an operation ends a room. -/
def Operation.Ends (roomId : String) : Operation → Prop
  | .apply env => env.EndsRoom roomId
  | .pruneStale .. | .mergeSnapshot _ | .nextOutboundSeq
  | .resumeOutboundFrom _ => False

/-- Only an end signal of the room ends it. -/
theorem apply_ended_iff {room : Room} {env : SignalEnvelope} :
    (room.apply env).2.ended = true ↔
      room.ended = true ∨ env.EndsRoom room.roomId := by
  unfold apply SignalEnvelope.EndsRoom
  split
  case isTrue ignored =>
    refine (or_iff_left ?_).symm
    rintro ⟨sameRoom, authenticated, _⟩
    exact ignored.elim (absurd sameRoom) authenticated
  case isFalse accepted =>
    simp only [not_or, not_not] at accepted
    cases env.signal with
    | offer | answer | iceCandidate | iceEnd | kick | forceMute | recording =>
        simp
    | endRoom reason => simp [accepted]
    | reaction | chat => simp [(touch_stored _ _ _ _).ended]
    | media | screenShare | raiseHand =>
        simp [(mediaLww_stored _ _ _ _ _).ended]
    | join | leave => simp [(lww_stored _ _ _ _ _ _).ended]
    | keepalive =>
        have unended :=
          (lww_stored room env.sender env.seq env.sentAt true none).ended
        dsimp only
        split
        next result => simp [← unended, result]
        next result => simp [← unended, result, (touch_stored _ _ _ _).ended]
        next result => simp [← unended, result]

/-- An end signal of the room is reported, and nothing else is reported as
one. -/
theorem apply_effect_roomEnded_iff
    {room : Room} {env : SignalEnvelope} {sender : String}
    {reason : Option String} :
    (room.apply env).1 = .roomEnded sender reason ↔
      env.roomId = room.roomId ∧ env.sender ≠ "" ∧ env.sender = sender ∧
        env.signal = .endRoom reason := by
  unfold apply
  split
  case isTrue ignored =>
    refine iff_of_false nofun ?_
    rintro ⟨sameRoom, authenticated, _⟩
    exact ignored.elim (absurd sameRoom) authenticated
  case isFalse accepted =>
    simp only [not_or, not_not] at accepted
    cases env.signal with
    | offer | answer | iceCandidate | iceEnd | kick | forceMute | recording
    | reaction | chat => simp
    | endRoom reason => simp [accepted]
    | media | screenShare | raiseHand =>
        exact iff_of_false (mediaLww_effect_ne _ _ _ _ _ (by simp))
          (by simp)
    | join | leave =>
        exact iff_of_false (lww_effect_ne _ _ _ _ _ _ (by simp)) (by simp)
    | keepalive =>
        refine iff_of_false ?_ (by simp)
        have notEnded :
            (room.lww env.sender env.seq env.sentAt true none).1 ≠
              .roomEnded sender reason :=
          lww_effect_ne _ _ _ _ _ _ (by simp)
        dsimp only
        split
        next => nofun
        next => nofun
        next result =>
          rw [result] at notEnded
          exact notEnded

theorem mergeSnapshot_ended (room : Room) (other : RoomSnapshot) :
    (room.mergeSnapshot other).2.ended = room.ended :=
  mergeSnapshot_keeps (fun _ _ => rfl) room other

theorem operate_ended_iff {room : Room} {operation : Operation} :
    (room.operate operation).2.ended = true ↔
      room.ended = true ∨ operation.Ends room.roomId := by
  cases operation with
  | apply env => exact apply_ended_iff
  | mergeSnapshot other =>
      refine Iff.trans ?_ (or_false _).symm.to_iff
      change (room.mergeSnapshot other).2.ended = true ↔ _
      rw [mergeSnapshot_ended]
  | nextOutboundSeq =>
      obtain ⟨seq, nextSeq, allocated⟩ := operate_nextOutboundSeq room
      rw [allocated]
      simp [Operation.Ends]
  | pruneStale | resumeOutboundFrom =>
      simp [Operation.Ends, operate, pruneStale, resumeOutboundFrom]

/-- A room has ended if one of its operations ended it. -/
theorem after_ended_iff {room : Room} {operations : List Operation} :
    (room.after operations).ended = true ↔
      room.ended = true ∨
        ∃ operation ∈ operations, operation.Ends room.roomId := by
  induction operations generalizing room with
  | nil => simp
  | cons operation operations inductionHypothesis =>
      rw [after_cons, inductionHypothesis, operate_ended_iff, operate_roomId,
        List.exists_mem_cons_iff, or_assoc]

end Room
end CeMeet
