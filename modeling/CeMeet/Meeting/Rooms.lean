import CeMeet.Foundation.Channels
import CeMeet.Meeting.Basic

/-!
# Rooms that share a mesh

A node finds the messages of all its topics in one inbox, and it may take part
in several rooms, so a client is given what the clients of other rooms publish
as well.  It tells them apart by topic and room id, and every room of a mesh
goes on as if it were the only one.
-/

namespace CeMeet

/-- A node's place in a room. -/
structure Seat where
  /-- The room. -/
  roomId : String
  /-- The node. -/
  node : String
  deriving DecidableEq

/-- Clients of any rooms on one mesh, and everything that happens. -/
structure SharedMesh where
  /-- The serializer. -/
  serde : SerdeJson
  /-- The clients. -/
  seats : Finset Seat
  /-- The freshness window of each client. -/
  freshnessSecs : Seat → UInt64
  /-- What happens. -/
  actions : List (Mesh.Action Seat Publication MeetClient.Command
    MeetClient.Reading)
  /-- Only these clients act, and strangers do not publish under the name of a
  node with a client. -/
  orderly : ∀ action ∈ actions, Mesh.Orderly Seat.node seats action

namespace SharedMesh

/-- The machine of a client: it is told from which node a message comes, but not
from which of the node's clients. -/
def behaviour (serde : SerdeJson) :
    Mesh.Behaviour Seat MeetClient Publication MeetClient.Command
      MeetClient.Reading MeetClient.Outcome where
  step := fun _ client input => client.step serde (input.rename Seat.node)
  emits := MeetClient.Outcome.publication

/-! ## Frames of other rooms -/

/-- A frame is neither published on the topic of a room nor written for it. -/
structure IsForeign (serde : SerdeJson) (roomId : String)
    (publication : Publication) : Prop where
  /-- The topic is another one. -/
  topic : publication.1 ≠ roomTopic roomId
  /-- Whatever is read from it is for another room. -/
  roomId : ∀ env, SignalEnvelope.fromBytes serde publication.2 = .ok env →
    env.roomId ≠ roomId

/-- The client of another room publishes nothing else. -/
theorem isForeign_of_publishes
    {serde : SerdeJson} {client : MeetClient} {input : MeetClient.Input}
    {publication : Publication} {roomId : String}
    (elsewhere : roomId ≠ client.room.roomId)
    (published : (client.step serde input).1.publication =
      some publication) :
    IsForeign serde roomId publication := by
  obtain ⟨call, now, _, topic, frame, _⟩ :=
    MeetClient.step_publishes published
  refine { topic := ?topic, roomId := fun env decoded => ?roomId }
  case topic =>
    rw [topic]
    exact fun same => elsewhere ((String.append_right_inj _).mp same).symm
  case roomId =>
    have read := (SignalEnvelope.fromBytes_eq_ok_iff.mp decoded).2.1
    rw [serde.fromSlice_toVec _ _ frame.1] at read
    cases read
    exact elsewhere.symm

/-- An envelope of another room changes nothing. -/
theorem route_foreign {client : MeetClient} {env : SignalEnvelope}
    (foreign : env.roomId ≠ client.room.roomId) :
    client.route env = ([], client) := by
  rw [MeetClient.route_eq_of_undirected (Or.inl foreign), Room.apply,
    if_pos (Or.inl foreign)]

/-- A client ignores the frames of other rooms, however it takes them. -/
theorem step_foreign
    {serde : SerdeJson} {client : MeetClient} {publication : Publication}
    (foreign : IsForeign serde client.room.roomId publication)
    (sender : String) (reading : MeetClient.Reading) :
    client.step serde (.arrival sender publication reading) =
      ({}, client) := by
  cases reading with
  | roster =>
      rw [MeetClient.step, MeetClient.receive, if_pos (Or.inl foreign.topic)]
  | ordered now =>
      rw [MeetClient.step, MeetClient.ingestOrdered]
      cases decoded : SignalEnvelope.fromBytes serde publication.2 with
      | error reason => rfl
      | ok env =>
          have elsewhere : (env.withSender sender).roomId ≠
              client.room.roomId := foreign.roomId env decoded
          dsimp only
          split
          case isTrue => rfl
          case isFalse => rw [route_foreign elsewhere]

/-- The clients of a room are a channel of the mesh. -/
def channel (serde : SerdeJson) (roomId : String) :
    Mesh.Channel (behaviour serde) (Meeting.behaviour serde) where
  seat := fun node => { roomId, node }
  name := Seat.node
  name_seat := fun _ => rfl
  valid := fun seat client => client.room.roomId = seat.roomId
  foreign := IsForeign serde roomId
  silent := {}
  emits_eq := rfl
  emits_silent := rfl
  step_seat := fun _ _ _ => rfl
  preserved := fun _ client input valid =>
    (MeetClient.step_performs serde client _).filters.roomId.trans valid
  sends := fun seat client input publication valid outside published => by
    refine isForeign_of_publishes (fun same => outside ?_) published
    rw [same, valid]
  ignores := fun node client sender publication reading valid foreign => by
    have here : client.room.roomId = roomId := valid
    rw [← here] at foreign
    exact step_foreign foreign sender.node reading

/-! ## Every room on its own -/

variable (shared : SharedMesh)

/-- The client of a seat at the start. -/
def opening (seat : Seat) : MeetClient :=
  (MeetClient.new seat.roomId seat.node).withFreshness
    (shared.freshnessSecs seat)

/-- What the clients did. -/
def records : List (Option (Mesh.Record Seat Publication MeetClient.Command
    MeetClient.Reading MeetClient.Outcome)) :=
  Transducer.outputs (Mesh.act (behaviour shared.serde) shared.seats)
    { states := shared.opening, sent := [] } shared.actions

/-- The client of a seat at the end. -/
def client (seat : Seat) : MeetClient :=
  (Transducer.final (Mesh.act (behaviour shared.serde) shared.seats)
    { states := shared.opening, sent := [] } shared.actions).states seat

/-- The outcomes of a client. -/
def outcomes (seat : Seat) : List MeetClient.Outcome :=
  (Mesh.history seat shared.records).map Prod.snd

/-- The meeting in one of the rooms: what its clients do, and what arrives there
from one another and from strangers. -/
def meeting (roomId : String) : Meeting where
  serde := shared.serde
  roomId := roomId
  participants := shared.seats.image Seat.node
  freshnessSecs := fun node => shared.freshnessSecs { roomId, node }
  actions := (channel shared.serde roomId).actions shared.seats
    { states := shared.opening, sent := [] } shared.actions

/-- Whatever is watched of the outcomes of a client, as long as nothing is seen
where nothing happens, is seen in the meeting of its room. -/
theorem watched_in_meeting {ρ : Type} (watch : MeetClient.Outcome → List ρ)
    (quiet : watch {} = []) (roomId node : String) :
    (shared.outcomes { roomId, node }).flatMap watch =
        ((shared.meeting roomId).outcomes node).flatMap watch ∧
      shared.client { roomId, node } = (shared.meeting roomId).client node :=
  have valid : ∀ seat, (channel shared.serde roomId).valid seat
      (shared.opening seat) := fun _ => rfl
  (channel shared.serde roomId).independent watch quiet valid shared.orderly node

/-- The rooms that share a mesh do not interfere.  Each client publishes,
surfaces and hands over what it does in the meeting of its room, with no other
rooms on the mesh, and ends in the same state. -/
theorem rooms_independent (roomId node : String) :
    shared.client { roomId, node } = (shared.meeting roomId).client node ∧
      MeetClient.publications (shared.outcomes { roomId, node }) =
        (shared.meeting roomId).published node ∧
      (shared.outcomes { roomId, node }).filterMap
          MeetClient.Outcome.effect =
        ((shared.meeting roomId).outcomes node).filterMap
          MeetClient.Outcome.effect ∧
      (shared.outcomes { roomId, node }).flatMap
          MeetClient.Outcome.handedOver =
        ((shared.meeting roomId).outcomes node).flatMap
          MeetClient.Outcome.handedOver := by
  have published := (shared.watched_in_meeting
    (fun outcome => outcome.publication.toList) rfl roomId node).1
  have effects := (shared.watched_in_meeting
    (fun outcome => outcome.effect.toList) rfl roomId node).1
  obtain ⟨handedOver, same⟩ :=
    shared.watched_in_meeting MeetClient.Outcome.handedOver rfl roomId node
  rw [← List.filterMap_eq_flatMap_toList,
    ← List.filterMap_eq_flatMap_toList] at published effects
  exact ⟨same, published, effects, handedOver⟩

/-- What a node publishes in two rooms. -/
def twoRoomsEnvelopes : List SignalEnvelope :=
  [.directed "r" "bob" 0 1000 (.offer "v=0"),
    .directed "s" "bob" 0 1001 (.offer "v=1"),
    .broadcast "r" 1 1002 (.join (some "Ann"))]

/-- A node takes part in two rooms.  Another one, which takes part in the first
only, is given everything, and a stranger repeats a frame of the second room on
the topic of the first. -/
def twoRooms : SharedMesh where
  serde := .ofTable (twoRoomsEnvelopes.zip [[0], [1], [2]]) (by decide)
  seats :=
    {{ roomId := "r", node := "ann" }, { roomId := "s", node := "ann" },
      { roomId := "r", node := "bob" }}
  freshnessSecs := fun _ => 30
  actions :=
    [.command { roomId := "r", node := "ann" }
        (.call (.signalPeer "bob" (.offer "v=0")) 1000),
      .command { roomId := "s", node := "ann" }
        (.call (.signalPeer "bob" (.offer "v=1")) 1001),
      .command { roomId := "r", node := "ann" }
        (.call (.announceJoin (some "Ann")) 1002),
      .inject { roomId := "r", node := "eve" } (roomTopic "r", [1]),
      .deliver { roomId := "r", node := "bob" } 1 (.ordered 1003),
      .deliver { roomId := "r", node := "bob" } 3 .roster,
      .deliver { roomId := "r", node := "bob" } 0 (.ordered 1003),
      .deliver { roomId := "r", node := "bob" } 2 .roster,
      .deliver { roomId := "s", node := "ann" } 0 (.ordered 1003)]
  orderly := by decide

/-- In the meeting of the first room both of its frames are published, and they
reach the other node. -/
theorem twoRooms_independent :
    let meeting := twoRooms.meeting "r"
    twoRooms.client { roomId := "r", node := "bob" } = meeting.client "bob" ∧
      meeting.published "ann" = [(roomTopic "r", [0]), (roomTopic "r", [2])] ∧
      (meeting.outcomes "bob").filterMap MeetClient.Outcome.effect =
        [.joined "ann"] ∧
      (meeting.outcomes "bob").flatMap MeetClient.Outcome.handedOver =
        [(SignalEnvelope.directed "r" "bob" 0 1000 (.offer "v=0")).withSender
          "ann"] := by
  intro meeting
  obtain ⟨_, published, _⟩ := rooms_independent twoRooms "r" "ann"
  obtain ⟨same, _, effects, handedOver⟩ := rooms_independent twoRooms "r" "bob"
  exact ⟨same, published.symm.trans (by decide), effects.symm.trans (by decide),
    handedOver.symm.trans (by decide)⟩

end SharedMesh
end CeMeet
