import CeMeet.Meeting.Roster

/-!
# What the users of a meeting are told

Every effect that a client surfaces reports one envelope that has arrived.  An
effect about a participant reports an envelope which the participant has
published, of the kind and with the contents that the effect names.
-/

namespace CeMeet

/-- What an effect says of the envelope that caused it. -/
def Effect.Announces (env : SignalEnvelope) : Effect → Prop
  | .joined nodeId =>
      env.sender = nodeId ∧ env.signal.isPresence = true ∧
        env.signal.isLeave = false
  | .left nodeId => env.sender = nodeId ∧ env.signal = .leave
  | .directed surfaced => surfaced = env ∧ env.signal.isBroadcast = false
  | .refreshed nodeId => env.sender = nodeId ∧ env.signal = .keepalive
  | .mediaChanged nodeId => env.sender = nodeId ∧ env.signal.isMedia = true
  | .reaction sender emoji =>
      env.sender = sender ∧ env.signal = .reaction emoji
  | .chat sender body => env.sender = sender ∧ env.signal = .chat body
  | .recording sender active =>
      env.sender = sender ∧ env.signal = .recording active
  | .roomEnded sender reason =>
      env.sender = sender ∧ env.signal = .endRoom reason
  | .noChange => True

namespace Room

/-- A presence signal is reported as what it asserts. -/
theorem lww_announces
    (room : Room) {env : SignalEnvelope}
    (asserts : env.signal.isPresence = true) (displayName : Option String) :
    (room.lww env.sender env.seq env.sentAt (!env.signal.isLeave)
      displayName).1.Announces env := by
  have isLeave : env.signal.isLeave = true → env.signal = .leave := by
    cases env.signal <;> simp [Signal.isLeave]
  have result := lww_cases room env.sender env.seq env.sentAt
    (!env.signal.isLeave) displayName
  generalize room.lww env.sender env.seq env.sentAt (!env.signal.isLeave)
    displayName = next at result ⊢
  cases result with
  | full | older | keeps => exact True.intro
  | creates =>
      split
      case isTrue here => exact ⟨rfl, asserts, by simpa using here⟩
      case isFalse => exact True.intro
  | removes found atNode same away =>
      exact ⟨rfl, isLeave (by simpa using away)⟩
  | newer =>
      split
      case isTrue => exact True.intro
      case isFalse =>
        split
        case isTrue here => exact ⟨rfl, asserts, by simpa using here⟩
        case isFalse away => exact ⟨rfl, isLeave (by simpa using away)⟩

theorem mediaLww_announces
    (room : Room) {env : SignalEnvelope}
    (isMedia : env.signal.isMedia = true) (update : MediaUpdate) :
    (room.mediaLww env.sender env.seq env.sentAt update).1.Announces env := by
  rcases mediaLww_effect room env.sender env.seq env.sentAt update with
    effect | effect
  · rw [effect]
    exact True.intro
  · rw [effect]
    exact ⟨rfl, isMedia⟩

/-- The effect of an envelope reports it. -/
theorem apply_announces (room : Room) (env : SignalEnvelope) :
    (room.apply env).1.Announces env := by
  unfold apply
  split
  case isTrue => exact True.intro
  case isFalse =>
    cases signal : env.signal with
    | offer | answer | iceCandidate | iceEnd | kick | forceMute =>
        exact ⟨rfl, by rw [signal]; rfl⟩
    | reaction | chat | recording | endRoom => exact ⟨rfl, signal⟩
    | media | screenShare | raiseHand =>
        exact mediaLww_announces room (by rw [signal]; rfl) _
    | join displayName =>
        have announces := room.lww_announces (by rw [signal]; rfl) displayName
        rwa [signal] at announces
    | leave =>
        have announces := room.lww_announces (by rw [signal]; rfl) none
        rwa [signal] at announces
    | keepalive =>
        have announces := room.lww_announces (by rw [signal]; rfl) none
        rw [signal] at announces
        dsimp only
        split
        next result => exact result ▸ announces
        next => exact ⟨rfl, signal⟩
        next result => exact result ▸ announces

end Room

namespace MeetClient

/-- Only a receive loop surfaces effects, and it surfaces the effect of what
reaches the roster. -/
theorem step_surfaces
    {serde : SerdeJson} {client : MeetClient} {input : Input} {effect : Effect}
    (surfaced : (client.step serde input).1.effect = some effect) :
    ∃ sender publication env,
      input = .arrival sender publication .roster ∧
        client.heard serde sender publication .roster = some env ∧
        effect = (client.room.apply env).1 ∧ effect ≠ .noChange := by
  cases input with
  | command command => cases command <;> cases surfaced
  | arrival sender publication reading =>
      cases reading with
      | ordered now => cases surfaced
      | roster =>
          refine ⟨sender, publication, ?_⟩
          change (receive serde (roomTopic client.room.roomId) client.room.me
            client _).1 = some effect at surfaced
          unfold receive at surfaced
          dsimp only at surfaced
          split at surfaced
          case isTrue => cases surfaced
          case isFalse ours =>
            cases parsed : SignalEnvelope.fromBytes serde publication.2 with
            | error e =>
                rw [applyMessage_error parsed] at surfaced
                cases surfaced
            | ok env =>
                refine ⟨env.withSender sender, rfl, ?_, ?_⟩
                · rw [heard, if_neg ours, parsed]
                  rfl
                · unfold applyMessage at surfaced
                  rw [parsed] at surfaced
                  dsimp only at surfaced
                  generalize client.room.apply (env.withSender sender) =
                    applied at surfaced ⊢
                  obtain ⟨result, room⟩ := applied
                  cases result <;> cases surfaced <;> exact ⟨rfl, by simp⟩

end MeetClient

namespace Meeting

variable {meeting : Meeting}

/-- In every meeting, every effect that a client surfaces reports an envelope of
the room from another node, which that node has published if it takes part. -/
theorem effects_announce
    (meeting : Meeting) (node : String)
    (outcome : MeetClient.Outcome)
    (member : outcome ∈ meeting.outcomes node)
    (effect : Effect)
    (surfaced : outcome.effect = some effect) :
    effect ≠ .noChange ∧ ∃ env, effect.Announces env ∧
      env.roomId = meeting.roomId ∧ env.sender ≠ "" ∧ env.sender ≠ node ∧
      env.signal.validate = .ok () ∧
      (env.sender ∈ meeting.participants →
        env ∈ meeting.sentBy env.sender) := by
  rw [outcomes_eq] at member
  obtain ⟨done, input, rest, split, rfl⟩ := Transducer.mem_outputs_iff.mp member
  obtain ⟨sender, publication, env, rfl, heard, rfl, changes⟩ :=
    MeetClient.step_surfaces surfaced
  have filters := MeetClient.afterInputs_filters meeting.serde
    (meeting.opening node) done
  obtain ⟨parsed, decoded, rfl⟩ := MeetClient.decoded_of_heard heard
  have foreign : sender ≠ node := by
    rw [MeetClient.heard, Option.ite_none_left_eq_some, not_or,
      filters.me] at heard
    exact heard.1.2
  have noticed : parsed.roomId = meeting.roomId ∧ sender ≠ "" := by
    by_contra ignored
    refine changes (congrArg Prod.fst (Room.apply_ignored ?_))
    rw [filters.roomId]
    change parsed.roomId ≠ meeting.roomId ∨ sender = ""
    tauto
  refine ⟨changes, parsed.withSender sender, Room.apply_announces _ _,
    noticed.1, noticed.2, foreign,
    (SignalEnvelope.fromBytes_eq_ok_iff.mp decoded).2.2, ?_⟩
  intro participates
  have arrival : Mesh.Input.arrival sender publication .roster ∈
      meeting.inputs node := by
    rw [split]
    simp
  exact mem_sentBy_of_decoded (published_of_arrival participates arrival)
    decoded

/-- The first effect of the short meeting reports the mute. -/
theorem overtaken_effect_announces :
    Effect.mediaChanged "ann" ≠ .noChange ∧
      ∃ env, (Effect.mediaChanged "ann").Announces env ∧
        env.roomId = overtaken.roomId ∧ env.sender ≠ "" ∧
        env.sender ≠ "bob" ∧ env.signal.validate = .ok () ∧
        (env.sender ∈ overtaken.participants →
          env ∈ overtaken.sentBy env.sender) :=
  effects_announce overtaken "bob"
    { publication := none
      effect := some (.mediaChanged "ann")
      handedOver := [] }
    (List.mem_of_getElem?
      (rfl : (overtaken.outcomes "bob")[0]? = some _))
    (.mediaChanged "ann") rfl

end Meeting
end CeMeet
