import CeMeet.Meeting.Participant

/-!
# Meetings

The participants of one room on a network that loses, repeats, delays and
reorders what they publish, and on which strangers publish what they like under
names of their own.  The transport authenticates its senders, so nothing is
published under the name of a participant but by its client.
-/

namespace CeMeet

/-- A room, its participants, and everything that happens. -/
structure Meeting where
  /-- The serializer. -/
  serde : SerdeJson
  /-- The room. -/
  roomId : String
  /-- The nodes whose clients take part. -/
  participants : Finset String
  /-- The freshness window of each client. -/
  freshnessSecs : String → UInt64
  /-- What happens. -/
  actions : List (Mesh.Action String Publication MeetClient.Command
    MeetClient.Reading)

namespace Meeting

/-- The machine of a participant. -/
def behaviour (serde : SerdeJson) :
    Mesh.Behaviour String MeetClient Publication MeetClient.Command
      MeetClient.Reading MeetClient.Outcome where
  step := fun _ client input => client.step serde input
  emits := MeetClient.Outcome.publication

variable (meeting : Meeting)

/-- The client of a node when the meeting starts. -/
def opening (node : String) : MeetClient :=
  (MeetClient.new meeting.roomId node).withFreshness
    (meeting.freshnessSecs node)

/-- What the clients did. -/
def records : List (Option (Mesh.Record String Publication MeetClient.Command
    MeetClient.Reading MeetClient.Outcome)) :=
  Transducer.outputs (Mesh.act (behaviour meeting.serde) meeting.participants)
    { states := meeting.opening, sent := [] } meeting.actions

/-- The clients and the network at the end. -/
def world : Mesh String MeetClient Publication :=
  Transducer.final (Mesh.act (behaviour meeting.serde) meeting.participants)
    { states := meeting.opening, sent := [] } meeting.actions

/-- The client of a node at the end. -/
def client (node : String) : MeetClient :=
  meeting.world.states node

/-- The inputs of a client. -/
def inputs (node : String) : List MeetClient.Input :=
  (Mesh.history node meeting.records).map Prod.fst

/-- The outcomes of a client. -/
def outcomes (node : String) : List MeetClient.Outcome :=
  (Mesh.history node meeting.records).map Prod.snd

/-- The frames that a client has published. -/
def published (node : String) : List Publication :=
  MeetClient.publications (meeting.outcomes node)

/-- The envelopes that a client has published, with the sender that every
receiver stamps them with. -/
def sentBy (node : String) : List SignalEnvelope :=
  (MeetClient.envelopesOf meeting.serde (meeting.published node)).map
    fun env => env.withSender node

/-- The directed signals that a client has handed over, from one sender. -/
def handedOver (node sender : String) : List SignalEnvelope :=
  ((meeting.outcomes node).flatMap MeetClient.Outcome.handedOver).filter
    fun env => env.sender = sender

variable {meeting}

theorem traced :
    Mesh.Traced (behaviour meeting.serde) meeting.participants meeting.opening
      meeting.records meeting.world :=
  Mesh.traced_run _ _ _ _

theorem outcomes_eq (node : String) :
    meeting.outcomes node =
      (meeting.opening node).outcomes meeting.serde (meeting.inputs node) :=
  meeting.traced.outputs node

theorem client_eq (node : String) :
    meeting.client node =
      (meeting.opening node).afterInputs meeting.serde (meeting.inputs node) :=
  meeting.traced.state node

/-- What arrives from a participant was published by it. -/
theorem published_of_arrival
    {node sender : String} {publication : Publication}
    {reading : MeetClient.Reading}
    (participates : sender ∈ meeting.participants)
    (arrival : Mesh.Input.arrival sender publication reading ∈
      meeting.inputs node) :
    publication ∈ meeting.published sender := by
  obtain ⟨⟨input, outcome⟩, member, rfl⟩ := List.mem_map.mp arrival
  have sent := meeting.traced.arrived _ _ _ _ _ member
  rw [← Mesh.mem_sentBy_iff, meeting.traced.sent sender participates] at sent
  rw [published, MeetClient.publications, outcomes, List.filterMap_map]
  exact sent

/-- What a client publishes is numbered. -/
theorem numbered (node : String) :
    MeetClient.Numbered meeting.serde meeting.roomId
      (meeting.client node).room.nextSeq (meeting.published node) := by
  rw [published, outcomes_eq, client_eq]
  exact MeetClient.numbered_outcomes meeting.serde (meeting.opening node) _

/-- The published numbers ascend. -/
theorem sentBy_ascending (node : String) :
    (meeting.sentBy node).Pairwise
      fun earlier later => earlier.seq < later.seq :=
  List.pairwise_map.mpr (meeting.numbered node).ascending

theorem mem_sentBy_iff {node : String} {env : SignalEnvelope} :
    env ∈ meeting.sentBy node ↔
      ∃ publication ∈ meeting.published node, ∃ bare,
        MeetClient.written meeting.serde publication = some bare ∧
          bare.withSender node = env := by
  simp only [sentBy, MeetClient.envelopesOf, List.mem_map, List.mem_filterMap]
  constructor
  · rintro ⟨bare, ⟨publication, member, isWritten⟩, same⟩
    exact ⟨publication, member, bare, isWritten, same⟩
  · rintro ⟨publication, member, bare, isWritten, same⟩
    exact ⟨bare, ⟨publication, member, isWritten⟩, same⟩

/-- What a participant publishes is of the room, under a number below the
greatest one. -/
theorem facts_of_mem_sentBy
    {node : String} {env : SignalEnvelope}
    (member : env ∈ meeting.sentBy node) :
    env.roomId = meeting.roomId ∧ env.sender = node ∧
      env.signal.validate = .ok () ∧ env.seq < UInt64.maxValue := by
  obtain ⟨publication, present, bare, isWritten, rfl⟩ :=
    mem_sentBy_iff.mp member
  obtain ⟨other, otherWritten, frame, _, sameRoom, _⟩ :=
    (meeting.numbered node).frames publication present
  cases isWritten.symm.trans otherWritten
  have below := (meeting.numbered node).below bare
    (List.mem_filterMap.mpr ⟨publication, present, isWritten⟩)
  exact ⟨sameRoom, rfl, frame.2, below.trans_le (UInt64.le_maxValue _)⟩

/-- A frame that decodes on arrival is read as it was published. -/
theorem mem_sentBy_of_decoded
    {sender : String} {publication : Publication} {parsed : SignalEnvelope}
    (member : publication ∈ meeting.published sender)
    (decoded : SignalEnvelope.fromBytes meeting.serde publication.2 =
      .ok parsed) :
    parsed.withSender sender ∈ meeting.sentBy sender := by
  refine mem_sentBy_iff.mpr ⟨publication, member, parsed, ?_, rfl⟩
  rw [MeetClient.written, (SignalEnvelope.fromBytes_eq_ok_iff.mp decoded).2.1]
  rfl

end Meeting
end CeMeet
