import CeMeet.Client.Basic
import CeMeet.Order.Holes
import CeMeet.Room.Presence

/-!
# From frames to reorder buffers

What one peer's frames make a client deliver is determined by the filters in
front of the reorder buffers: a frame is a slot of the peer's stream, filled if
the frame passes and empty otherwise.  The roster has no influence.
-/

namespace CeMeet

namespace SignalRouter

/-- An offer is answered by the inbox of its sender. -/
theorem offer_of_sender
    (router : SignalRouter)
    {env : SignalEnvelope}
    (authenticated : env.sender ≠ "") :
    (router.offer env).1 = ((router.inbox env.sender).offer env).1 ∧
      (router.offer env).2.inbox env.sender =
        ((router.inbox env.sender).offer env).2 := by
  unfold offer
  rw [if_neg authenticated]
  exact ⟨rfl, by simp [inbox]⟩

end SignalRouter

namespace MeetClient

/-- Whether freshness enforcement lets an envelope through. -/
def isTimely (freshnessSecs now : UInt64) (env : SignalEnvelope) : Bool :=
  freshnessSecs = 0 ∨ env.isFresh now freshnessSecs

/-- The slot of a peer's stream that a frame fills, if it passes every
filter. -/
def slot (serde : SerdeJson) (client : MeetClient) (sender : String)
    (now : UInt64) (payload : Bytes) : Option SignalEnvelope :=
  match SignalEnvelope.fromBytes serde payload with
  | .error _ => none
  | .ok parsed =>
      if isTimely client.freshnessSecs now parsed ∧
          parsed.signal.isBroadcast = false ∧
          parsed.roomId = client.room.roomId ∧
          parsed.addressedTo client.room.me then
        some (parsed.withSender sender)
      else
        none

/-- What the filters of a client depend on. -/
structure SameFilters (client other : MeetClient) : Prop where
  /-- The room. -/
  roomId : other.room.roomId = client.room.roomId
  /-- The participant. -/
  me : other.room.me = client.room.me
  /-- The freshness window. -/
  freshnessSecs : other.freshnessSecs = client.freshnessSecs

theorem SameFilters.slot
    {client other : MeetClient}
    (same : SameFilters client other)
    (serde : SerdeJson) (sender : String) (now : UInt64) (payload : Bytes) :
    other.slot serde sender now payload =
      client.slot serde sender now payload := by
  unfold MeetClient.slot
  rw [same.roomId, same.me, same.freshnessSecs]

/-- A frame has the same effect on its sender's reorder buffer as its slot. -/
structure Receives
    (client : MeetClient)
    (sender : String)
    (slot : Option SignalEnvelope)
    (answer : List SignalEnvelope × MeetClient) : Prop where
  /-- What is delivered. -/
  delivered : answer.1 = ((client.router.inbox sender).receive slot).1
  /-- The sender's reorder buffer afterwards. -/
  inbox : answer.2.router.inbox sender =
    ((client.router.inbox sender).receive slot).2
  /-- The filters are the same afterwards. -/
  filters : SameFilters client answer.2

theorem receives_none
    {client : MeetClient} {sender : String} {room : Room}
    (roomId : room.roomId = client.room.roomId)
    (me : room.me = client.room.me) :
    Receives client sender none ([], { client with room }) where
  delivered := rfl
  inbox := rfl
  filters := ⟨roomId, me, rfl⟩

/-- What is not a directed signal of this room is applied to the roster and
nothing else. -/
theorem route_eq_of_undirected
    {client : MeetClient}
    {env : SignalEnvelope}
    (undirected : env.roomId ≠ client.room.roomId ∨ env.sender = "" ∨
      env.signal.isBroadcast = true) :
    client.route env =
      ([], { client with room := (client.room.apply env).2 }) := by
  unfold route
  split
  next other room result =>
    have notDirected := Room.apply_effect_ne_directed undirected other
    rw [result] at notDirected
    exact absurd rfl notDirected
  next result => rw [result]

/-- What is not a directed signal of this room is not delivered. -/
theorem route_undirected
    (client : MeetClient)
    (env : SignalEnvelope)
    (undirected : env.roomId ≠ client.room.roomId ∨ env.sender = "" ∨
      env.signal.isBroadcast = true)
    (sender : String) :
    Receives client sender none (client.route env) := by
  have writes := Room.apply_writes client.room env
  rw [route_eq_of_undirected undirected]
  exact receives_none writes.roomId writes.me

/-- A directed signal of this room is offered to the reorder buffer of its
sender if it is addressed to the client. -/
theorem route_directed
    (client : MeetClient)
    (env : SignalEnvelope)
    (sameRoom : env.roomId = client.room.roomId)
    (authenticated : env.sender ≠ "")
    (directed : env.signal.isBroadcast = false) :
    Receives client env.sender
      (if env.addressedTo client.room.me then some env else none)
      (client.route env) := by
  unfold route
  rw [Room.apply_directed sameRoom authenticated directed]
  dsimp only
  split
  · have offered := SignalRouter.offer_of_sender client.router authenticated
    exact
      { delivered := offered.1
        inbox := offered.2
        filters := ⟨rfl, rfl, rfl⟩ }
  · exact receives_none rfl rfl

/-- Ingesting a frame is receiving its slot. -/
theorem ingestOrdered_receives
    (serde : SerdeJson)
    (client : MeetClient)
    {sender : String}
    (authenticated : sender ≠ "")
    (now : UInt64)
    (payload : Bytes) :
    Receives client sender (client.slot serde sender now payload)
      (client.ingestOrdered serde now sender payload) := by
  unfold ingestOrdered slot
  cases SignalEnvelope.fromBytes serde payload with
  | error message => exact receives_none rfl rfl
  | ok parsed =>
      have fresh : (parsed.withSender sender).isFresh now
          client.freshnessSecs = parsed.isFresh now client.freshnessSecs := rfl
      dsimp only
      rw [fresh, SignalEnvelope.withSender_signal]
      by_cases broadcasts : parsed.signal.isBroadcast = true
      · rw [if_neg (by simp [broadcasts]), if_neg (by simp [broadcasts])]
        exact route_undirected client (parsed.withSender sender)
          (Or.inr (Or.inr broadcasts)) sender
      · rw [Bool.not_eq_true] at broadcasts
        by_cases timely : isTimely client.freshnessSecs now parsed = true
        · have accepted : ¬(client.freshnessSecs ≠ 0 ∧
              ¬parsed.signal.isBroadcast ∧
              ¬parsed.isFresh now client.freshnessSecs) := by
            simp only [isTimely, decide_eq_true_eq] at timely
            tauto
          rw [if_neg accepted]
          by_cases sameRoom : parsed.roomId = client.room.roomId
          · have routed := route_directed client (parsed.withSender sender)
              sameRoom authenticated broadcasts
            have sameRecipient :
                (parsed.withSender sender).addressedTo client.room.me =
                  parsed.addressedTo client.room.me := rfl
            rw [sameRecipient, SignalEnvelope.withSender_sender] at routed
            simpa only [timely, broadcasts, sameRoom, true_and] using routed
          · rw [if_neg (by simp [sameRoom])]
            exact route_undirected client (parsed.withSender sender)
              (Or.inl sameRoom) sender
        · have dropped : client.freshnessSecs ≠ 0 ∧
              ¬parsed.signal.isBroadcast ∧
              ¬parsed.isFresh now client.freshnessSecs := by
            simp only [isTimely, decide_eq_true_eq, not_or] at timely
            simpa [broadcasts] using timely
          rw [if_pos dropped, if_neg (by simp [timely])]
          exact receives_none rfl rfl

/-- Ingest frames of one sender, each at a reading of the clock. -/
def ingestFrom (serde : SerdeJson) (sender : String) (client : MeetClient)
    (arrival : UInt64 × Bytes) : List SignalEnvelope × MeetClient :=
  client.ingestOrdered serde arrival.1 sender arrival.2

/-- What a client delivers from one sender is what the sender's reorder buffer
releases from the slots. -/
theorem outputs_ingestFrom
    (serde : SerdeJson)
    (client : MeetClient)
    {sender : String}
    (authenticated : sender ≠ "")
    (arrivals : List (UInt64 × Bytes)) :
    Transducer.outputs (ingestFrom serde sender) client arrivals =
      Transducer.outputs OrderedInbox.receive (client.router.inbox sender)
        (arrivals.map fun arrival =>
          client.slot serde sender arrival.1 arrival.2) := by
  induction arrivals generalizing client with
  | nil => rfl
  | cons arrival arrivals inductionHypothesis =>
      have receives := ingestOrdered_receives serde client authenticated
        arrival.1 arrival.2
      rw [List.map_cons, Transducer.outputs_cons, Transducer.outputs_cons,
        ← receives.inbox, ← receives.delivered, inductionHypothesis]
      simp only [ingestFrom, receives.filters.slot]

end MeetClient

end CeMeet
