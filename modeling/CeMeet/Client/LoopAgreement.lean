import CeMeet.Client.Ending
import CeMeet.Client.Ingest

/-!
# The two receive loops

A client that drains its inbox in batches and one that follows the push stream
do the same until the room is ended.  There the stream loop returns, while the
inbox is drained to its end.
-/

namespace CeMeet

/-- Whether an effect is the end of the room. -/
def Effect.isEnd : Effect → Bool
  | .roomEnded .. => true
  | _ => false

namespace MeetClient

/-- The effects up to and including the first end of the room. -/
def upToEnd : List Effect → List Effect
  | [] => []
  | effect :: effects =>
      if effect.isEnd then [effect] else effect :: upToEnd effects

/-- `done` is the part of the messages that ends with the first one whose
effects contain the end of the room, or all of them if there is none. -/
structure UntilEnd {α : Type} (effects : List α → List Effect)
    (messages done : List α) : Prop where
  /-- It is a part from the beginning. -/
  isPrefix : done <+: messages
  /-- Nothing before its last message ends the room. -/
  first : ∀ before, before <+: done → before ≠ done →
    ∀ effect ∈ effects before, effect.isEnd = false
  /-- It stops short only for the end of the room. -/
  stops : done = messages ∨ ∃ effect ∈ effects done, effect.isEnd = true

variable {Token : Type} (serde : SerdeJson)

/-- Drain the inbox once for every batch, collecting the effects. -/
def pollAll : MeetClient → List (List (AppMessage Token)) →
    List Effect × MeetClient
  | client, [] => ([], client)
  | client, batch :: batches =>
      match poll serde client (.ok batch) with
      | (.error _, client) => pollAll client batches
      | (.ok effects, client) =>
          let (later, client) := pollAll client batches
          (effects ++ later, client)

/-! ## Batches -/

/-- Applying a frame leaves the filters of a client alone. -/
theorem applyMessage_filters
    (client : MeetClient) (sender : String) (payload : Bytes) :
    SameFilters client (client.applyMessage serde sender payload).2 := by
  cases parsed : SignalEnvelope.fromBytes serde payload with
  | error e =>
      rw [applyMessage_error parsed]
      exact ⟨rfl, rfl, rfl⟩
  | ok env =>
      have writes := client.room.apply_writes (env.withSender sender)
      rw [(applyMessage_ok parsed).1]
      exact ⟨writes.roomId, writes.me, rfl⟩

theorem receive_filters
    (topic me : String) (client : MeetClient) (message : AppMessage Token) :
    SameFilters client (receive serde topic me client message).2 := by
  unfold receive
  split
  · exact ⟨rfl, rfl, rfl⟩
  · split
    · exact ⟨rfl, rfl, rfl⟩
    · exact applyMessage_filters serde client message.sender _

theorem pollFrom_cons
    (topic me : String) (client : MeetClient)
    (message : AppMessage Token) (messages : List (AppMessage Token)) :
    pollFrom serde topic me client (message :: messages) =
      let received := receive serde topic me client message
      (received.1.toList ++ (pollFrom serde topic me received.2 messages).1,
        (pollFrom serde topic me received.2 messages).2) := rfl

theorem pollFrom_filters
    (topic me : String) (client : MeetClient)
    (messages : List (AppMessage Token)) :
    SameFilters client (pollFrom serde topic me client messages).2 := by
  induction messages generalizing client with
  | nil => exact ⟨rfl, rfl, rfl⟩
  | cons message messages inductionHypothesis =>
      have now := receive_filters serde topic me client message
      have later := inductionHypothesis
        (receive serde topic me client message).2
      rw [pollFrom_cons]
      exact ⟨later.roomId.trans now.roomId, later.me.trans now.me,
        later.freshnessSecs.trans now.freshnessSecs⟩

variable {serde}

theorem pollFrom_append
    (topic me : String) (client : MeetClient)
    (done rest : List (AppMessage Token)) :
    pollFrom serde topic me client (done ++ rest) =
      let polled := pollFrom serde topic me client done
      (polled.1 ++ (pollFrom serde topic me polled.2 rest).1,
        (pollFrom serde topic me polled.2 rest).2) := by
  induction done generalizing client with
  | nil => rfl
  | cons message done inductionHypothesis =>
      simp only [List.cons_append, pollFrom_cons, inductionHypothesis,
        List.append_assoc]

/-- It does not matter how the messages are cut into batches. -/
theorem pollAll_eq_pollFrom
    (client : MeetClient) (batches : List (List (AppMessage Token))) :
    pollAll serde client batches =
      pollFrom serde (roomTopic client.room.roomId) client.room.me client
        batches.flatten := by
  induction batches generalizing client with
  | nil => rfl
  | cons batch batches inductionHypothesis =>
      have same := pollFrom_filters serde
        (roomTopic client.room.roomId) client.room.me client batch
      rw [List.flatten_cons, pollFrom_append, pollAll, poll]
      dsimp only
      rw [inductionHypothesis, same.roomId, same.me]

/-! ## The stream loop -/

/-- The stream loop returns after a message that ends the room. -/
theorem eventLoopFrom_ok
    {topic me : String} {client : MeetClient} {message : AppMessage Token}
    {items : List (Except String (AppMessage Token))} :
    eventLoopFrom serde topic me client (.ok message :: items) =
      let received := receive serde topic me client message
      if received.1.any Effect.isEnd then (received.1.toList, received.2)
      else
        (received.1.toList ++ (eventLoopFrom serde topic me received.2 items).1,
          (eventLoopFrom serde topic me received.2 items).2) := by
  rw [eventLoopFrom]
  generalize receive serde topic me client message = received
  obtain ⟨effect, next⟩ := received
  cases effect with
  | none => rfl
  | some effect => cases effect <;> rfl

/-- The effects passed on are those of draining, up to the end of the room. -/
theorem eventLoopFrom_effects
    {topic me : String} {client : MeetClient}
    {messages : List (AppMessage Token)} :
    (eventLoopFrom serde topic me client (messages.map .ok)).1 =
      upToEnd (pollFrom serde topic me client messages).1 := by
  induction messages generalizing client with
  | nil => rfl
  | cons message messages inductionHypothesis =>
      rw [List.map_cons, eventLoopFrom_ok, pollFrom_cons]
      dsimp only
      generalize receive serde topic me client message = received
      obtain ⟨_ | effect, next⟩ := received
      · exact inductionHypothesis
      · cases ends : effect.isEnd with
        | false => simp [upToEnd, ends, inductionHypothesis]
        | true => simp [upToEnd, ends]

/-- A message in front that does not end the room. -/
theorem UntilEnd.cons
    {topic me : String} {client : MeetClient} {message : AppMessage Token}
    {messages done : List (AppMessage Token)}
    (continues :
      (receive serde topic me client message).1.any Effect.isEnd = false)
    (untilEnd : UntilEnd
      (fun part => (pollFrom serde topic me
        (receive serde topic me client message).2 part).1) messages done) :
    UntilEnd (fun part => (pollFrom serde topic me client part).1)
      (message :: messages) (message :: done) where
  isPrefix := List.cons_prefix_cons.mpr ⟨rfl, untilEnd.isPrefix⟩
  first := by
    intro before isBefore proper effect member
    cases before with
    | nil => cases member
    | cons head before =>
        obtain ⟨rfl, inDone⟩ := List.cons_prefix_cons.mp isBefore
        rw [pollFrom_cons, List.mem_append, Option.mem_toList] at member
        rcases member with here | later
        · rw [here] at continues
          exact continues
        · exact untilEnd.first before inDone
            (fun same => proper (congrArg _ same)) effect later
  stops := by
    refine untilEnd.stops.imp (congrArg _) ?_
    rintro ⟨effect, member, ends⟩
    exact ⟨effect, List.mem_append_right _ member, ends⟩

/-- The stream loop does what draining does on the messages up to the end of
the room. -/
theorem eventLoopFrom_drains
    (topic me : String) (client : MeetClient)
    (messages : List (AppMessage Token)) :
    ∃ done,
      UntilEnd (fun part => (pollFrom serde topic me client part).1)
          messages done ∧
        eventLoopFrom serde topic me client (messages.map .ok) =
          pollFrom serde topic me client done := by
  induction messages generalizing client with
  | nil =>
      refine ⟨[], ⟨List.prefix_rfl, ?_, Or.inl rfl⟩, rfl⟩
      intro before isBefore proper
      exact absurd (List.prefix_nil.mp isBefore) proper
  | cons message messages inductionHypothesis =>
      cases ends :
          (receive serde topic me client message).1.any Effect.isEnd with
      | false =>
          obtain ⟨done, untilEnd, same⟩ := inductionHypothesis
            (receive serde topic me client message).2
          refine ⟨message :: done, untilEnd.cons ends, ?_⟩
          rw [List.map_cons, eventLoopFrom_ok, pollFrom_cons]
          dsimp only
          rw [if_neg (by simp [ends]), same]
      | true =>
          refine ⟨[message], ⟨?_, ?_, Or.inr ?_⟩, ?_⟩
          · exact List.cons_prefix_cons.mpr ⟨rfl, List.nil_prefix⟩
          · intro before isBefore proper effect member
            rcases List.prefix_cons_iff.mp isBefore with
              rfl | ⟨rest, rfl, nothing⟩
            · cases member
            · rw [List.prefix_nil.mp nothing] at proper
              exact absurd rfl proper
          · cases reported : (receive serde topic me client message).1 with
            | none =>
                rw [reported] at ends
                cases ends
            | some effect =>
                rw [reported] at ends
                exact ⟨effect, by simp [pollFrom_cons, reported], ends⟩
          · rw [List.map_cons, eventLoopFrom_ok, pollFrom_cons]
            dsimp only
            rw [if_pos ends, pollFrom, List.append_nil]

/-! ## Main result -/

variable (serde) in
/-- However a list of messages is cut into batches, the stream loop passes on
the effects that draining the batches returns, up to and including the first
end of the room, and leaves the client that draining leaves after the messages
up to and including the one that ended the room. -/
theorem loops_agree_until_end
    (client : MeetClient) (batches : List (List (AppMessage Token))) :
    (eventLoop serde client (batches.flatten.map .ok)).1 =
        upToEnd (pollAll serde client batches).1 ∧
      ∃ done,
        UntilEnd (fun part => (pollAll serde client [part]).1)
            batches.flatten done ∧
          eventLoop serde client (batches.flatten.map .ok) =
            pollAll serde client [done] := by
  have drained : ∀ part : List (AppMessage Token), pollAll serde client [part] =
      pollFrom serde (roomTopic client.room.roomId) client.room.me client
        part := by
    intro part
    rw [pollAll_eq_pollFrom, List.flatten_singleton]
  simp only [drained]
  rw [pollAll_eq_pollFrom]
  exact ⟨eventLoopFrom_effects, eventLoopFrom_drains _ _ _ _⟩

/-- A message that ends the room. -/
def endMessage (sender : String) : AppMessage Nat :=
  { topic := roomTopic "r"
    sender
    payload := .ok endFrame
    replyToken := none }

theorem receive_endMessage
    (client : MeetClient) (sender : String)
    (inRoom : client.room.roomId = "r")
    (authenticated : sender ≠ "") (remote : sender ≠ "bob") :
    ∃ reason, (receive endSerde (roomTopic "r") "bob" client
      (endMessage sender)).1 = some (.roomEnded sender reason) := by
  have ends : EndsFrame endSerde client.room.roomId (sender, endFrame) :=
    inRoom ▸ endsFrame_endFrame authenticated
  obtain ⟨reason, reported⟩ := applyFrame_roomEnded_iff.mpr ⟨ends, rfl⟩
  refine ⟨reason, ?_⟩
  have frame : frameOf (roomTopic "r") "bob" (.ok (endMessage sender)) =
      some (sender, endFrame) :=
    frameOf_endFrom remote
  rw [receive_eq, frame]
  exact reported

/-- Draining reports what comes after the end of the room, the stream loop does
not. -/
theorem loops_differ_after_end :
    (pollAll endSerde (new "r" "bob")
        [[endMessage "hub", endMessage "ann"]]).1 ≠
      (eventLoop endSerde (new "r" "bob")
        ([[endMessage "hub", endMessage "ann"]].flatten.map .ok)).1 := by
  obtain ⟨hubReason, hubEnds⟩ := receive_endMessage (new "r" "bob") "hub" rfl
    (by decide) (by decide)
  have stillInRoom := (receive_filters endSerde (roomTopic "r") "bob"
    (new "r" "bob") (endMessage "hub")).roomId
  obtain ⟨annReason, annEnds⟩ := receive_endMessage _ "ann" stillInRoom
    (by decide) (by decide)
  have drained : (pollFrom endSerde (roomTopic "r") "bob" (new "r" "bob")
      [endMessage "hub", endMessage "ann"]).1 =
        [.roomEnded "hub" hubReason, .roomEnded "ann" annReason] := by
    simp only [pollFrom_cons, hubEnds, annEnds]
    rfl
  rw [pollAll_eq_pollFrom, eventLoop, eventLoopFrom_effects]
  change (pollFrom endSerde (roomTopic "r") "bob" (new "r" "bob")
      [endMessage "hub", endMessage "ann"]).1 ≠
    upToEnd (pollFrom endSerde (roomTopic "r") "bob" (new "r" "bob")
      [endMessage "hub", endMessage "ann"]).1
  rw [drained]
  simp [upToEnd, Effect.isEnd]

end MeetClient
end CeMeet
