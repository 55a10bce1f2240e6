import CeMeet.Client.Basic
import CeMeet.Foundation.Transducer

/-!
# The receive loops

A client drains the inbox of its node in batches, or the push stream of its node
message by message.  Both drop what is not of the room's topic, the client's own
echoes and payloads that do not decode, and apply the rest to the roster.  What
the transport delivers is an argument.
-/

namespace CeMeet

namespace MeetClient

variable {Token : Type} (serde : SerdeJson)

/-- Receive one message of the inbox or the stream, for the topic and the node
id that the loop started with. -/
def receive (topic me : String) (client : MeetClient)
    (message : AppMessage Token) : Option Effect × MeetClient :=
  if message.topic ≠ topic ∨ message.sender = me then
    (none, client)
  else
    match message.payload with
    | .error _ => (none, client)
    | .ok bytes => client.applyMessage serde message.sender bytes

/-- Receive a batch of messages, collecting the effects. -/
def pollFrom (topic me : String) :
    MeetClient → List (AppMessage Token) → List Effect × MeetClient
  | client, [] => ([], client)
  | client, message :: messages =>
      let (effect, client) := receive serde topic me client message
      let (effects, client) := pollFrom topic me client messages
      (effect.toList ++ effects, client)

/-- Drain the inbox once. -/
def poll (client : MeetClient)
    (messages : Except String (List (AppMessage Token))) :
    Except String (List Effect) × MeetClient :=
  match messages with
  | .error e => (.error e, client)
  | .ok messages =>
      let (effects, client) := pollFrom serde (roomTopic client.room.roomId)
        client.room.me client messages
      (.ok effects, client)

/-- Receive the items of a stream, passing the effects on, until the room is
ended. -/
def eventLoopFrom (topic me : String) :
    MeetClient → List (Except String (AppMessage Token)) →
      List Effect × MeetClient
  | client, [] => ([], client)
  | client, .error _ :: items => eventLoopFrom topic me client items
  | client, .ok message :: items =>
      match receive serde topic me client message with
      | (none, client) => eventLoopFrom topic me client items
      | (some (.roomEnded sender reason), client) =>
          ([.roomEnded sender reason], client)
      | (some effect, client) =>
          let (effects, client) := eventLoopFrom topic me client items
          (effect :: effects, client)

/-- Drive the roster from the push stream: the effects passed on, and the client
when the loop returns. -/
def eventLoop (client : MeetClient)
    (items : List (Except String (AppMessage Token))) :
    List Effect × MeetClient :=
  eventLoopFrom serde (roomTopic client.room.roomId) client.room.me client items

/-- The sender and the payload of a message that a loop does not drop. -/
def frameOf (topic me : String) :
    Except String (AppMessage Token) → Option (String × Bytes)
  | .error _ => none
  | .ok message =>
      if message.topic ≠ topic ∨ message.sender = me then none
      else message.payload.toOption.map fun bytes => (message.sender, bytes)

/-- Apply one received frame. -/
def applyFrame (client : MeetClient) (frame : String × Bytes) :
    Option Effect × MeetClient :=
  client.applyMessage serde frame.1 frame.2

variable {serde}

/-- Receiving a message applies its frame, if it has one. -/
theorem receive_eq
    (topic me : String) (client : MeetClient) (message : AppMessage Token) :
    receive serde topic me client message =
      match frameOf topic me (.ok message) with
      | none => (none, client)
      | some frame => applyFrame serde client frame := by
  by_cases dropped : message.topic ≠ topic ∨ message.sender = me
  · simp only [receive, frameOf, if_pos dropped]
  · simp only [receive, frameOf, if_neg dropped]
    cases message.payload with
    | error e => rfl
    | ok bytes => rfl

theorem receive_of_frame
    {topic me : String} {message : AppMessage Token} {frame : String × Bytes}
    (received : frameOf topic me (.ok message) = some frame)
    (client : MeetClient) :
    receive serde topic me client message = applyFrame serde client frame := by
  rw [receive_eq, received]

/-- A loop skips an item without a frame. -/
theorem eventLoopFrom_skip
    {topic me : String} {client : MeetClient}
    {item : Except String (AppMessage Token)}
    {items : List (Except String (AppMessage Token))}
    (dropped : frameOf topic me item = none) :
    eventLoopFrom serde topic me client (item :: items) =
      eventLoopFrom serde topic me client items := by
  cases item with
  | error e => rfl
  | ok message =>
      rw [eventLoopFrom, receive_eq, dropped]

/-- A loop stops when a frame ends the room. -/
theorem eventLoopFrom_stop
    {topic me : String} {client : MeetClient}
    {item : Except String (AppMessage Token)}
    {items : List (Except String (AppMessage Token))}
    {frame : String × Bytes} {sender : String} {reason : Option String}
    (received : frameOf topic me item = some frame)
    (ends : (applyFrame serde client frame).1 =
      some (.roomEnded sender reason)) :
    eventLoopFrom serde topic me client (item :: items) =
      ([.roomEnded sender reason], (applyFrame serde client frame).2) := by
  cases item with
  | error e => cases received
  | ok message =>
      rw [eventLoopFrom, receive_of_frame received]
      generalize applyFrame serde client frame = applied at ends ⊢
      obtain ⟨effect, next⟩ := applied
      cases ends
      rfl

/-- A loop goes on when a frame does not end the room. -/
theorem eventLoopFrom_continue
    {topic me : String} {client : MeetClient}
    {item : Except String (AppMessage Token)}
    {items : List (Except String (AppMessage Token))}
    {frame : String × Bytes}
    (received : frameOf topic me item = some frame)
    (continues : ∀ sender reason, (applyFrame serde client frame).1 ≠
      some (.roomEnded sender reason)) :
    eventLoopFrom serde topic me client (item :: items) =
      let next := (applyFrame serde client frame).2
      ((applyFrame serde client frame).1.toList ++
          (eventLoopFrom serde topic me next items).1,
        (eventLoopFrom serde topic me next items).2) := by
  cases item with
  | error e => cases received
  | ok message =>
      rw [eventLoopFrom, receive_of_frame received]
      generalize applyFrame serde client frame = applied at continues ⊢
      obtain ⟨_ | effect, next⟩ := applied
      · rfl
      · cases effect with
        | roomEnded sender reason =>
            exact absurd rfl (continues sender reason)
        | _ => rfl

end MeetClient
end CeMeet
