import CeMeet.Meeting.Handover
import CeMeet.Meeting.Restarts

/-!
# Meetings whose participants crash

Every participant may crash at any time and come back from the last snapshot
that it has saved.  Between two crashes of its own, a client hands the signals
of a participant over in the order in which they were sent, each at most once,
across all the crashes of that participant, as long as the participant
recollects its numbers.
-/

namespace CeMeet

/-- A room, its participants, and everything that happens, crashes included. -/
structure Outages where
  /-- The serializer. -/
  serde : SerdeJson
  /-- The room. -/
  roomId : String
  /-- The nodes whose clients take part. -/
  participants : Finset String
  /-- The first freshness window of each client. -/
  freshnessSecs : String → UInt64
  /-- What happens. -/
  actions : List (Mesh.Action String Publication Life.Command
    MeetClient.Reading)

namespace Outages

/-- The machine of a participant. -/
def behaviour (serde : SerdeJson) (roomId : String) :
    Mesh.Behaviour String Life Publication Life.Command MeetClient.Reading
      MeetClient.Outcome where
  step := fun node life input => life.step serde roomId node input
  emits := MeetClient.Outcome.publication

variable (outages : Outages)

/-- A node when the meeting starts. -/
def opening (node : String) : Life :=
  .opening outages.roomId node (outages.freshnessSecs node)

/-- What the nodes did. -/
def records : List (Option (Mesh.Record String Publication Life.Command
    MeetClient.Reading MeetClient.Outcome)) :=
  Transducer.outputs
    (Mesh.act (behaviour outages.serde outages.roomId) outages.participants)
    { states := outages.opening, sent := [] } outages.actions

/-- The nodes and the network at the end. -/
def world : Mesh String Life Publication :=
  Transducer.final
    (Mesh.act (behaviour outages.serde outages.roomId) outages.participants)
    { states := outages.opening, sent := [] } outages.actions

/-- The inputs of a node. -/
def inputs (node : String) : List Life.Input :=
  (Mesh.history node outages.records).map Prod.fst

/-- The outcomes of a node. -/
def outcomes (node : String) : List MeetClient.Outcome :=
  (Mesh.history node outages.records).map Prod.snd

/-- The frames that a node has published. -/
def published (node : String) : List Publication :=
  MeetClient.publications (outages.outcomes node)

/-- The envelopes that a node has published, with the sender that every receiver
stamps them with. -/
def sentBy (node : String) : List SignalEnvelope :=
  (MeetClient.envelopesOf outages.serde (outages.published node)).map
    fun env => env.withSender node

variable {outages}

theorem traced :
    Mesh.Traced (behaviour outages.serde outages.roomId) outages.participants
      outages.opening outages.records outages.world :=
  Mesh.traced_run _ _ _ _

theorem outcomes_eq (node : String) :
    outages.outcomes node =
      Transducer.outputs (Life.step outages.serde outages.roomId node)
        (outages.opening node) (outages.inputs node) :=
  outages.traced.outputs node

/-- What arrives from a participant, and decodes, was published by it. -/
theorem mem_sentBy_of_arrival
    {node sender : String} {publication : Publication}
    {reading : MeetClient.Reading} {parsed : SignalEnvelope}
    (participates : sender ∈ outages.participants)
    (arrival : Mesh.Input.arrival sender publication reading ∈
      outages.inputs node)
    (decoded : SignalEnvelope.fromBytes outages.serde publication.2 =
      .ok parsed) :
    parsed.withSender sender ∈ outages.sentBy sender := by
  obtain ⟨⟨input, outcome⟩, member, rfl⟩ := List.mem_map.mp arrival
  have sent := outages.traced.arrived _ _ _ _ _ member
  rw [← Mesh.mem_sentBy_iff, outages.traced.sent sender participates] at sent
  have isPublished : publication ∈ outages.published sender := by
    rw [published, MeetClient.publications, outcomes, List.filterMap_map]
    exact sent
  have isWritten : MeetClient.written outages.serde publication =
      some parsed := by
    rw [MeetClient.written, (SignalEnvelope.fromBytes_eq_ok_iff.mp decoded).2.1]
    rfl
  exact List.mem_map_of_mem
    (List.mem_filterMap.mpr ⟨publication, isPublished, isWritten⟩)

/-- A node that recollects its numbers publishes under ascending ones. -/
theorem sentBy_ascending
    {node : String}
    (recollects : Ledger.RecollectsAll (Life.entries outages.serde
      outages.roomId node (outages.freshnessSecs node) (outages.inputs node))) :
    (outages.sentBy node).Pairwise
      (fun earlier later => earlier.seq < later.seq) ∧
      ∀ env ∈ outages.sentBy node, env.seq < UInt64.maxValue := by
  have sublist := Life.published_sublist_numbers outages.serde outages.roomId
    node (outages.opening node) (outages.inputs node)
  rw [← outcomes_eq] at sublist
  have ascends := ((Life.keeps_ledger outages.serde outages.roomId
    node).ascending_iff (Life.consistent_opening outages.roomId node
      (outages.freshnessSecs node)) (outages.inputs node)).mpr recollects
  constructor
  · exact List.pairwise_map.mpr (List.pairwise_map.mp (ascends.sublist sublist))
  · intro env member
    obtain ⟨bare, present, rfl⟩ := List.mem_map.mp member
    have numbered : bare.seq ∈ (MeetClient.envelopesOf outages.serde
        (MeetClient.publications (outages.outcomes node))).map
          SignalEnvelope.seq := List.mem_map_of_mem present
    exact Life.lt_maxValue_of_taken (sublist.subset numbered)

/-- In every meeting whose participants crash, a client hands over between two
crashes of its own, of every participant that recollects its numbers, some of
the directed signals that the participant has sent to it in all its lives, each
at most once and in the order in which they were sent. -/
theorem hands_over_in_order_between_crashes
    (outages : Outages) (node sender : String)
    (participates : sender ∈ outages.participants)
    (recollects : Ledger.RecollectsAll (Life.entries outages.serde
      outages.roomId sender (outages.freshnessSecs sender)
      (outages.inputs sender)))
    (before since : List Life.Input)
    (split : outages.inputs node = before ++ since)
    (begins : before = [] ∨ ∃ earlier secs,
      before = earlier ++ [.command (.crash secs)])
    (crashless : ∀ secs, .command (.crash secs) ∉ since) :
    ((((outages.outcomes node).drop before.length).flatMap
        MeetClient.Outcome.handedOver).filter
          fun env => env.sender = sender).Sublist
      ((outages.sentBy sender).filter (MeetClient.isDirectedTo node)) := by
  let woken := Transducer.final (Life.step outages.serde outages.roomId node)
    (outages.opening node) before
  have owned : woken.client.room.me = node :=
    (Life.owned_final outages.serde outages.roomId node _ before).client
  have fresh : woken.client.router = .withWindow defaultWindow := by
    rcases begins with rfl | ⟨earlier, secs, rfl⟩
    · rfl
    · have reached : woken = _ := Transducer.final_concat earlier _
      rw [reached]
      exact Life.router_reborn outages.roomId node _
  have sinceWoken : (outages.outcomes node).drop before.length =
      Transducer.outputs (Life.step outages.serde outages.roomId node) woken
        since := by
    rw [outcomes_eq, split, Transducer.outputs_append]
    exact List.drop_left' (Transducer.length_outputs before)
  obtain ⟨ascends, belowTop⟩ := sentBy_ascending recollects
  rw [sinceWoken, Life.handedOver_of_crashless _ _ _ _ crashless, ← owned]
  refine MeetClient.handedOver_sublist fresh ascends belowTop ?_
  intro publication now parsed arrival decoded
  have arrived : Mesh.Input.arrival sender publication (.ordered now) ∈
      outages.inputs node := by
    rw [split]
    exact List.mem_append_right _ (Life.arrival_of_attended arrival)
  exact mem_sentBy_of_arrival participates arrived decoded

/-- A meeting in which the first participant crashes between an offer and a
candidate, having saved its snapshot, and the candidate arrives first. -/
def comeback : Outages where
  serde :=
    .ofTable
      [(.directed "r" "bob" 0 1000 (.offer "v=0"), [0]),
        (.directed "r" "bob" 1 1002 (.iceCandidate "c1" none none), [1])]
      (by decide)
  roomId := "r"
  participants := {"ann", "bob"}
  freshnessSecs := fun _ => 30
  actions :=
    [.command "ann" (.user (.call (.signalPeer "bob" (.offer "v=0")) 1000)),
      .command "ann" .snapshot,
      .command "ann" .save,
      .command "ann" (.crash 30),
      .command "ann" (.user
        (.call (.signalPeer "bob" (.iceCandidate "c1" none none)) 1002)),
      .deliver "bob" 1 (.ordered 1003),
      .command "bob" .snapshot,
      .deliver "bob" 0 (.ordered 1003)]

theorem comeback_hands_over_in_order :
    ((((comeback.outcomes "bob").drop 0).flatMap
        MeetClient.Outcome.handedOver).filter
          fun env => env.sender = "ann").Sublist
      ((comeback.sentBy "ann").filter (MeetClient.isDirectedTo "bob")) := by
  have inputs : comeback.inputs "bob" =
      [.arrival "ann" (roomTopic "r", [1]) (.ordered 1003),
        .command .snapshot,
        .arrival "ann" (roomTopic "r", [0]) (.ordered 1003)] := rfl
  refine hands_over_in_order_between_crashes comeback "bob" "ann" (by decide)
    (by decide) [] (comeback.inputs "bob") rfl (Or.inl rfl) ?_
  intro secs member
  rw [inputs] at member
  simp at member

end Outages
end CeMeet
