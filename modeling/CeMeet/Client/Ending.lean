import CeMeet.Client.Loops
import CeMeet.Foundation.First
import CeMeet.Room.Ending
import CeMeet.Wire

/-!
# Who ends a room

A client takes the word of any sender for the end of its room: it checks no
capability when an end signal arrives.  So the room ends on a host's word alone
exactly when the first end signal that arrives is a host's.
-/

namespace CeMeet
namespace MeetClient

variable {Token : Type} (serde : SerdeJson)

/-- Whether a frame is an end signal for a room. -/
def EndsFrame (roomId : String) (frame : String × Bytes) : Prop :=
  ∃ env, SignalEnvelope.fromBytes serde frame.2 = .ok env ∧
    (env.withSender frame.1).EndsRoom roomId

variable {serde}

/-- A frame that parses is applied to the roster and to nothing else, and what
it changes there is reported. -/
theorem applyMessage_ok
    {client : MeetClient} {sender : String} {payload : Bytes}
    {env : SignalEnvelope}
    (parsed : SignalEnvelope.fromBytes serde payload = .ok env) :
    (client.applyMessage serde sender payload).2 =
        { client with room := (client.room.apply (env.withSender sender)).2 } ∧
      ∀ effect ≠ Effect.noChange,
        (client.applyMessage serde sender payload).1 = some effect ↔
          (client.room.apply (env.withSender sender)).1 = effect := by
  unfold applyMessage
  rw [parsed]
  dsimp only
  generalize client.room.apply (env.withSender sender) = applied
  obtain ⟨reported, room⟩ := applied
  cases reported with
  | noChange => exact ⟨rfl, fun effect changed => by simp [changed.symm]⟩
  | _ => exact ⟨rfl, fun effect _ => by simp⟩

theorem applyMessage_error
    {client : MeetClient} {sender : String} {payload : Bytes} {e : String}
    (unparsed : SignalEnvelope.fromBytes serde payload = .error e) :
    client.applyMessage serde sender payload = (none, client) := by
  unfold applyMessage
  rw [unparsed]

theorem applyFrame_roomId (client : MeetClient) (frame : String × Bytes) :
    (applyFrame serde client frame).2.room.roomId = client.room.roomId := by
  unfold applyFrame
  cases parsed : SignalEnvelope.fromBytes serde frame.2 with
  | error e => rw [applyMessage_error parsed]
  | ok env =>
      rw [(applyMessage_ok parsed).1]
      exact Room.operate_roomId client.room (.apply (env.withSender frame.1))

theorem applyFrame_ended_iff {client : MeetClient} {frame : String × Bytes} :
    (applyFrame serde client frame).2.room.ended = true ↔
      client.room.ended = true ∨ EndsFrame serde client.room.roomId frame := by
  unfold applyFrame EndsFrame
  cases parsed : SignalEnvelope.fromBytes serde frame.2 with
  | error e => simp [applyMessage_error parsed]
  | ok env =>
      rw [(applyMessage_ok parsed).1]
      simp [Room.apply_ended_iff]

/-- The end of the room is reported for the sender of the frame that ends
it. -/
theorem applyFrame_roomEnded_iff
    {client : MeetClient} {frame : String × Bytes} {sender : String} :
    (∃ reason, (applyFrame serde client frame).1 =
        some (.roomEnded sender reason)) ↔
      EndsFrame serde client.room.roomId frame ∧ frame.1 = sender := by
  unfold applyFrame EndsFrame
  cases parsed : SignalEnvelope.fromBytes serde frame.2 with
  | error e => simp [applyMessage_error parsed]
  | ok env =>
      have reported : ∀ reason,
          (client.applyMessage serde frame.1 frame.2).1 =
            some (.roomEnded sender reason) ↔ _ := fun reason =>
        ((applyMessage_ok parsed).2 (.roomEnded sender reason) nofun).trans
          Room.apply_effect_roomEnded_iff
      simp only [reported, SignalEnvelope.EndsRoom]
      constructor
      · rintro ⟨reason, sameRoom, authenticated, same, signal⟩
        exact ⟨⟨env, rfl, sameRoom, authenticated, reason, signal⟩, same⟩
      · rintro ⟨⟨other, same, sameRoom, authenticated, reason, signal⟩, isSender⟩
        cases same
        exact ⟨reason, sameRoom, authenticated, isSender, signal⟩

/-- A frame that does not end the room is not reported as its end. -/
theorem continues_of_not_ends
    {client : MeetClient} {frame : String × Bytes}
    (continues : ¬EndsFrame serde client.room.roomId frame)
    (sender : String) (reason : Option String) :
    (applyFrame serde client frame).1 ≠ some (.roomEnded sender reason) :=
  fun reported =>
    continues (applyFrame_roomEnded_iff.mp ⟨reason, reported⟩).1

/-- A run ends the room if one of its frames does. -/
theorem final_ended_iff
    {client : MeetClient} {frames : List (String × Bytes)} :
    (Transducer.final (applyFrame serde) client frames).room.ended = true ↔
      client.room.ended = true ∨
        ∃ frame ∈ frames, EndsFrame serde client.room.roomId frame := by
  induction frames generalizing client with
  | nil => simp
  | cons frame frames inductionHypothesis =>
      rw [Transducer.final_cons, inductionHypothesis, applyFrame_ended_iff,
        applyFrame_roomId, List.exists_mem_cons_iff, or_assoc]

/-- A loop passes on no end but those of the given hosts exactly when the first
end signal it receives is a host's. -/
theorem eventLoopFrom_ended_iff
    {topic me : String} {client : MeetClient}
    {items : List (Except String (AppMessage Token))} {hosts : Set String} :
    (∀ sender reason, .roomEnded sender reason ∈
        (eventLoopFrom serde topic me client items).1 → sender ∈ hosts) ↔
      FirstSatisfies (EndsFrame serde client.room.roomId)
        (fun frame => frame.1 ∈ hosts)
        (items.filterMap (frameOf topic me)) := by
  induction items generalizing client with
  | nil => simp [eventLoopFrom]
  | cons item items inductionHypothesis =>
      cases received : frameOf topic me item with
      | none =>
          rw [eventLoopFrom_skip received, List.filterMap_cons_none received]
          exact inductionHypothesis
      | some frame =>
          rw [List.filterMap_cons_some received]
          by_cases ends : EndsFrame serde client.room.roomId frame
          · obtain ⟨reason, reported⟩ :=
              applyFrame_roomEnded_iff.mpr ⟨ends, rfl⟩
            rw [eventLoopFrom_stop received reported,
              FirstSatisfies.cons_of_kind ends]
            simp
          · have continues := continues_of_not_ends ends
            have sameRoom : (applyFrame serde client frame).2.room.roomId =
                client.room.roomId :=
              applyFrame_roomId client frame
            rw [eventLoopFrom_continue received continues,
              FirstSatisfies.cons_of_not_kind ends, ← sameRoom,
              ← inductionHypothesis]
            have unreported : ∀ sender reason, .roomEnded sender reason ∉
                (applyFrame serde client frame).1.toList := by
              intro sender reason member
              exact continues sender reason (Option.mem_toList.mp member)
            simp only [List.mem_append, unreported, false_or]

/-- An end that a loop passes on was received. -/
theorem eventLoopFrom_ended_received
    {topic me : String} {client : MeetClient}
    {items : List (Except String (AppMessage Token))}
    {sender : String} {reason : Option String}
    (ended : .roomEnded sender reason ∈
      (eventLoopFrom serde topic me client items).1) :
    ∃ frame ∈ items.filterMap (frameOf topic me),
      EndsFrame serde client.room.roomId frame ∧ frame.1 = sender := by
  let received := items.filterMap (frameOf topic me)
  let enders : Set String := fun sender =>
    ∃ frame ∈ received, EndsFrame serde client.room.roomId frame ∧
      frame.1 = sender
  have first : FirstSatisfies (EndsFrame serde client.room.roomId)
      (fun frame => frame.1 ∈ enders) received := by
    intro done frame rest split _ ends
    exact ⟨frame, by rw [split]; simp, ends, rfl⟩
  exact eventLoopFrom_ended_iff.mpr first sender reason ended

variable (serde) in
/-- A room ends on the word of the given hosts only, whether frames are applied
one by one or by the loop, exactly when the first end signal that arrives is a
host's. -/
theorem ends_by_host_iff
    {client : MeetClient}
    (unended : client.room.ended = false)
    (hosts : Set String)
    (frames : List (String × Bytes))
    (items : List (Except String (AppMessage Token))) :
    let EndsByHost := fun frame : String × Bytes =>
      EndsFrame serde client.room.roomId frame ∧ frame.1 ∈ hosts
    let received := items.filterMap
      (frameOf (roomTopic client.room.roomId) client.room.me)
    let FirstEndByHost := FirstSatisfies (EndsFrame serde client.room.roomId)
      fun frame => frame.1 ∈ hosts
    ((∀ done, done <+: frames →
        (Transducer.final (applyFrame serde) client done).room.ended = true →
        ∃ frame ∈ done, EndsByHost frame) ↔
      FirstEndByHost frames) ∧
    ((∀ sender reason,
        .roomEnded sender reason ∈ (eventLoop serde client items).1 →
        ∃ frame ∈ received, EndsByHost frame ∧ frame.1 = sender) ↔
      FirstEndByHost received) := by
  intro EndsByHost received FirstEndByHost
  constructor
  · refine Iff.trans ?_ FirstSatisfies.iff_prefixes.symm
    simp only [final_ended_iff, unended, Bool.false_eq_true, false_or]
    rfl
  · refine Iff.trans ?_ eventLoopFrom_ended_iff
    constructor
    · intro byHost sender reason ended
      obtain ⟨frame, _, endsByHost, isSender⟩ := byHost sender reason ended
      exact isSender ▸ endsByHost.2
    · intro isHost sender reason ended
      obtain ⟨frame, member, ends, isSender⟩ :=
        eventLoopFrom_ended_received ended
      exact ⟨frame, member,
        ⟨ends, isSender.symm ▸ isHost sender reason ended⟩, isSender⟩

/-- An end signal. -/
def endOfRoom : SignalEnvelope :=
  .broadcast "r" 0 1000 (.endRoom none)

/-- The frame of the end signal. -/
def endFrame : Bytes :=
  endOfRoom.toJson.render

/-- The serializer of the end signal. -/
def endSerde : SerdeJson :=
  .ofEnvelope endOfRoom

theorem fromBytes_endFrame :
    SignalEnvelope.fromBytes endSerde endFrame = .ok endOfRoom :=
  SerdeJson.fromBytes_ofEnvelope (by decide) rfl

theorem endsFrame_endFrame {sender : String} (authenticated : sender ≠ "") :
    EndsFrame endSerde "r" (sender, endFrame) :=
  ⟨endOfRoom, fromBytes_endFrame, rfl, authenticated, none, rfl⟩

/-- A delivery of the end signal. -/
def endFrom (sender : String) : Except String (AppMessage Nat) :=
  .ok
    { topic := roomTopic "r"
      sender
      payload := .ok endFrame
      replyToken := none }

theorem frameOf_endFrom {sender : String} (remote : sender ≠ "bob") :
    frameOf (roomTopic "r") "bob" (endFrom sender) =
      some (sender, endFrame) := by
  simp [frameOf, endFrom, remote, Except.toOption]

theorem eventLoop_endFrom {sender : String}
    (authenticated : sender ≠ "") (remote : sender ≠ "bob") :
    ∃ reason, .roomEnded sender reason ∈
      (eventLoop endSerde (new "r" "bob") [endFrom sender]).1 := by
  obtain ⟨reason, reported⟩ := applyFrame_roomEnded_iff.mpr
    (⟨endsFrame_endFrame authenticated, rfl⟩ :
      EndsFrame endSerde (new "r" "bob").room.roomId (sender, endFrame) ∧ _)
  refine ⟨reason, ?_⟩
  change _ ∈ (eventLoopFrom endSerde (roomTopic "r") "bob" (new "r" "bob")
    [endFrom sender]).1
  rw [eventLoopFrom_stop (frameOf_endFrom remote) reported]
  exact List.mem_singleton_self _

/-- A host ends the room. -/
theorem hub_endsRoom :
    (∃ frame ∈ [("hub", endFrame)],
      EndsFrame endSerde "r" frame ∧ frame.1 ∈ ({"hub"} : Set String)) ∧
    ∃ frame ∈ [endFrom "hub"].filterMap (frameOf (roomTopic "r") "bob"),
      (EndsFrame endSerde "r" frame ∧ frame.1 ∈ ({"hub"} : Set String)) ∧
        frame.1 = "hub" := by
  have unended : (new "r" "bob").room.ended = false := rfl
  obtain ⟨applied, passedOn⟩ := ends_by_host_iff endSerde unended {"hub"}
    [("hub", endFrame)] [endFrom "hub"]
  have authenticated : "hub" ≠ "" := by decide
  have remote : "hub" ≠ "bob" := by decide
  have ends := endsFrame_endFrame authenticated
  obtain ⟨reason, ended⟩ := eventLoop_endFrom authenticated remote
  constructor
  · apply applied.mpr ((FirstSatisfies.cons_of_kind ends).mpr rfl) _
      List.prefix_rfl
    exact final_ended_iff.mpr (.inr ⟨_, List.mem_singleton_self _, ends⟩)
  · refine passedOn.mpr ?_ "hub" reason ended
    change FirstSatisfies _ _
      ([endFrom "hub"].filterMap (frameOf (roomTopic "r") "bob"))
    rw [List.filterMap_cons_some (frameOf_endFrom remote)]
    exact (FirstSatisfies.cons_of_kind ends).mpr rfl

/-- A participant who is not a host ends the room. -/
theorem mallory_endsRoom :
    (Transducer.final (applyFrame endSerde) (new "r" "bob")
        [("mallory", endFrame)]).room.ended = true ∧
      (∃ reason, .roomEnded "mallory" reason ∈
        (eventLoop endSerde (new "r" "bob") [endFrom "mallory"]).1) ∧
      ¬∃ frame ∈ [("mallory", endFrame)],
        EndsFrame endSerde "r" frame ∧ frame.1 ∈ ({"hub"} : Set String) := by
  refine ⟨?_, eventLoop_endFrom (by decide) (by decide), ?_⟩
  · exact final_ended_iff.mpr
      (.inr ⟨_, List.mem_singleton_self _, endsFrame_endFrame (by decide)⟩)
  · rintro ⟨frame, member, _, isHost⟩
    rw [List.mem_singleton.mp member] at isHost
    exact absurd (Set.mem_singleton_iff.mp isHost) (by decide)

end MeetClient
end CeMeet
