import CeMeet.Meeting.Handover

/-!
# Keeping up with a participant

The number of a directed signal leaves gaps for whatever else its sender
publishes, so a reorder buffer may wait for a number that never comes.  Where
the mesh keeps the order of what a participant publishes, this withholds less
than a window of signals at any time, and nothing is left out.
-/

namespace CeMeet

namespace OrderedInbox

/-- Calls that do not skip offer. -/
theorem eq_offering {calls : List Call}
    (unskipped : ∀ seq, .skipTo seq ∉ calls) :
    calls = offering (calls.filterMap Call.offered) := by
  induction calls with
  | nil => rfl
  | cons call calls inductionHypothesis =>
      have rest := inductionHypothesis fun seq member =>
        unskipped seq (List.mem_cons_of_mem _ member)
      cases call with
      | offer env => exact congrArg (Call.offer env :: ·) rest
      | skipTo seq => exact absurd List.mem_cons_self (unskipped seq)

/-- A list of offers starts with its first offer. -/
theorem fromFirstOffer_offering (envs : List SignalEnvelope) :
    fromFirstOffer (offering envs) = offering envs := by
  cases envs <;> rfl

end OrderedInbox

namespace MeetClient

/-- A reorder buffer skips only where the user skips the peer. -/
theorem command_of_skipTo_mem_callsOf
    {serde : SerdeJson} {client : MeetClient} {sender : String}
    {inputs : List Input} {seq : UInt64}
    (member : .skipTo seq ∈ SignalRouter.callsOf sender
      (inputs.filterMap (client.routerCall serde))) :
    .command (.skipPeerTo sender seq) ∈ inputs := by
  obtain ⟨call, called, concerns⟩ := List.mem_filterMap.mp member
  obtain ⟨input, taken, calls⟩ := List.mem_filterMap.mp called
  cases call with
  | offer env =>
      rw [SignalRouter.Call.ofPeer, Option.ite_none_right_eq_some] at concerns
      cases concerns.2
  | skipPeerTo peer skipped =>
      rw [SignalRouter.Call.ofPeer, Option.ite_none_right_eq_some] at concerns
      obtain ⟨rfl, same⟩ := concerns
      cases same
      cases input with
      | command command =>
          cases command with
          | skipPeerTo other number =>
              cases calls
              exact taken
          | call call now => cases calls
          | resumeOutboundFrom floor => cases calls
      | arrival other publication reading =>
          cases reading with
          | roster => cases calls
          | ordered now =>
              obtain ⟨env, _, same⟩ := Option.map_eq_some_iff.mp calls
              cases same

/-- Of what a node offers in order, a client with an empty router that does not
skip the node hands over everything but less than a window at the end. -/
theorem handedOver_append_backlog
    {serde : SerdeJson} {client : MeetClient} {inputs : List Input}
    {sender : String} (fresh : client.router = .withWindow defaultWindow)
    (named : sender ≠ "")
    (unskipped : ∀ seq, .command (.skipPeerTo sender seq) ∉ inputs)
    (ascends : (inputs.filterMap (client.offeredBy serde sender)).Pairwise
      fun earlier later => earlier.seq < later.seq)
    (belowTop : ∀ env ∈ inputs.filterMap (client.offeredBy serde sender),
      env.seq < UInt64.maxValue) :
    ∃ backlog,
      inputs.filterMap (client.offeredBy serde sender) =
          ((client.outcomes serde inputs).flatMap Outcome.handedOver).filter
            (fun env => env.sender = sender) ++ backlog ∧
        backlog.length < 64 := by
  have offers : SignalRouter.callsOf sender
      (inputs.filterMap (client.routerCall serde)) =
        OrderedInbox.offering
          (inputs.filterMap (client.offeredBy serde sender)) := by
    rw [← offered_callsOf serde client named]
    exact OrderedInbox.eq_offering fun seq member =>
      unskipped seq (command_of_skipTo_mem_callsOf member)
  rw [handedOver_filter_sender serde inputs fresh, offers,
    OrderedInbox.lazyReleased_eq, OrderedInbox.fromFirstOffer_offering]
  exact OrderedInbox.released_append_backlog defaultWindow ascends belowTop

/-- The frame of a node that an input ingests. -/
def received (sender : String) : Input → Option Publication
  | .arrival other publication (.ordered _) =>
      if other = sender then some publication else none
  | _ => none

/-- What a node offers is written in the frame that is received. -/
theorem written_of_offeredBy
    {serde : SerdeJson} {client : MeetClient} {sender : String}
    {input : Input} {env : SignalEnvelope}
    (offers : client.offeredBy serde sender input = some env) :
    ∃ publication parsed, received sender input = some publication ∧
      written serde publication = some parsed ∧
      env = parsed.withSender sender := by
  cases input with
  | command command => cases offers
  | arrival other publication reading =>
      cases reading with
      | roster => cases offers
      | ordered now =>
          rw [offeredBy, Option.ite_none_right_eq_some] at offers
          obtain ⟨rfl, filled⟩ := offers
          unfold slot at filled
          split at filled
          case h_1 => cases filled
          case h_2 parsed decoded =>
            rw [Option.ite_none_right_eq_some] at filled
            refine ⟨publication, parsed, if_pos rfl, ?_,
              (Option.some.inj filled.2).symm⟩
            rw [written, (SignalEnvelope.fromBytes_eq_ok_iff.mp decoded).2.1]
            rfl

/-- What a node offers is some of what is received of it, in order. -/
theorem offered_sublist_received
    (serde : SerdeJson) (client : MeetClient) (sender : String)
    (inputs : List Input) :
    (inputs.filterMap (client.offeredBy serde sender)).Sublist
      ((envelopesOf serde (inputs.filterMap (received sender))).map
        fun env => env.withSender sender) := by
  induction inputs with
  | nil => exact List.Sublist.slnil
  | cons input inputs inductionHypothesis =>
      rw [List.filterMap_cons, List.filterMap_cons]
      cases offers : client.offeredBy serde sender input with
      | none =>
          refine inductionHypothesis.trans (List.Sublist.map _
            (List.Sublist.filterMap _ ?_))
          cases received sender input with
          | none => exact List.Sublist.refl _
          | some publication => exact List.sublist_cons_self _ _
      | some env =>
          obtain ⟨publication, parsed, isReceived, isWritten, rfl⟩ :=
            written_of_offeredBy offers
          rw [isReceived]
          dsimp only
          rw [envelopesOf, List.filterMap_cons_some isWritten, List.map_cons]
          exact inductionHypothesis.cons_cons _

end MeetClient

namespace Meeting

variable (meeting : Meeting)

/-- The frames of a participant that a client ingests, in the order in which
they arrive. -/
def received (node sender : String) : List Publication :=
  (meeting.inputs node).filterMap (MeetClient.received sender)

/-- The directed signals of a participant that arrive at a client and pass its
filters, in the order in which they arrive. -/
def offered (node sender : String) : List SignalEnvelope :=
  (meeting.inputs node).filterMap
    ((meeting.opening node).offeredBy meeting.serde sender)

/-- In every meeting, where the mesh keeps the order of what it delivers from a
participant to a client, the client hands over every directed signal that passes
its filters, in order, except for less than a window at the end: gaps in the
numbers delay signals and lose none. -/
theorem hands_over_all_but_backlog
    (node sender : String) (named : sender ≠ "")
    (inOrder : (meeting.received node sender).Sublist
      (meeting.published sender))
    (unskipped : ∀ seq,
      .command (.skipPeerTo sender seq) ∉ meeting.inputs node) :
    ∃ backlog,
      meeting.offered node sender = meeting.handedOver node sender ++ backlog ∧
        backlog.length < 64 := by
  have sent : (meeting.offered node sender).Sublist (meeting.sentBy sender) :=
    (MeetClient.offered_sublist_received meeting.serde (meeting.opening node)
      sender (meeting.inputs node)).trans
        (List.Sublist.map _ (List.Sublist.filterMap _ inOrder))
  rw [handedOver, outcomes_eq]
  exact MeetClient.handedOver_append_backlog rfl named unskipped
    ((meeting.sentBy_ascending sender).sublist sent)
    fun env member => (facts_of_mem_sentBy (sent.subset member)).2.2.2

/-- A participant joins before it sends an offer, and its offer arrives. -/
def joinedFirst : Meeting where
  serde := .compact
  roomId := "r"
  participants := {"ann", "bob"}
  freshnessSecs := fun _ => 30
  actions :=
    [.command "ann" (.call (.announceJoin none) 1000),
      .command "ann" (.call (.signalPeer "bob" (.offer "v=0")) 1001),
      .deliver "bob" 0 .roster,
      .deliver "bob" 1 (.ordered 1002)]

set_option maxRecDepth 1000 in
theorem joinedFirst_hands_over :
    ∃ backlog,
      joinedFirst.offered "bob" "ann" =
          joinedFirst.handedOver "bob" "ann" ++ backlog ∧
        backlog.length < 64 := by
  have received : (joinedFirst.received "bob" "ann").Sublist
      (joinedFirst.published "ann") := by
    have second : joinedFirst.received "bob" "ann" =
        (joinedFirst.published "ann").drop 1 := rfl
    rw [second]
    exact List.drop_sublist 1 _
  refine joinedFirst.hands_over_all_but_backlog "bob" "ann" (by decide) received
    fun seq skipped => ?_
  have inputs : joinedFirst.inputs "bob" = [_, _] := rfl
  rw [inputs] at skipped
  simp at skipped

end Meeting
end CeMeet
