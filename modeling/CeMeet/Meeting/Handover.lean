import CeMeet.Decoding
import CeMeet.Meeting.Basic
import CeMeet.Order.Backlog

/-!
# Directed signals between participants

Whatever the network does, a client hands the signals of a participant over in
the order in which they were sent, each at most once, and no others.  The number
of every published envelope is below the greatest word, so the repeats that an
inbox does not recognize cannot occur.
-/

namespace CeMeet

namespace OrderedInbox

/-- What an inbox that is created by the first offer releases. -/
def lazyReleased (window : UInt64) (calls : List Call) : List SignalEnvelope :=
  (Transducer.outputs (lazyCall window) none calls).flatten

theorem lazyReleased_eq (window : UInt64) (calls : List Call) :
    lazyReleased window calls = released window (fromFirstOffer calls) := by
  rw [lazyReleased, (lazyCall_none window calls).1, List.flatten_append,
    released, List.flatten_eq_nil_iff.mpr, List.nil_append]
  intro answer member
  obtain ⟨call, _, rfl⟩ := List.mem_map.mp member
  rfl

/-- Everything released was offered. -/
theorem offer_mem_of_mem_lazyReleased
    {window : UInt64} {calls : List Call} {env : SignalEnvelope}
    (member : env ∈ lazyReleased window calls) :
    Call.offer env ∈ calls := by
  rw [lazyReleased_eq] at member
  exact (List.dropWhile_sublist _).subset
    ((traced_released window _).offered env member)

/-- The released numbers ascend if no offer has the greatest one. -/
theorem lazyReleased_ascending
    {window : UInt64} {calls : List Call}
    (belowTop : ∀ env, Call.offer env ∈ calls → env.seq < UInt64.maxValue) :
    (lazyReleased window calls).Pairwise
      fun earlier later => earlier.seq < later.seq := by
  rw [lazyReleased_eq]
  apply ascending_of_holdsTopOnRepeat
  intro done env rest split atTop _
  have offered : Call.offer env ∈ fromFirstOffer calls := by
    rw [split]
    simp
  exact absurd atTop
    (belowTop env ((List.dropWhile_sublist _).subset offered)).ne

end OrderedInbox

namespace SignalRouter

/-- What a router has released. -/
def released (window : UInt64) (calls : List Call) : List SignalEnvelope :=
  (Transducer.outputs call (withWindow window) calls).flatten

theorem sender_of_offer_mem_callsOf
    {peer : String} {calls : List Call} {env : SignalEnvelope}
    (member : OrderedInbox.Call.offer env ∈ callsOf peer calls) :
    Call.offer env ∈ calls ∧ env.sender = peer := by
  obtain ⟨action, present, concerns⟩ := List.mem_filterMap.mp member
  cases action with
  | offer other =>
      rw [Call.ofPeer, Option.ite_none_right_eq_some] at concerns
      obtain ⟨⟨sameSender, _⟩, same⟩ := concerns
      cases same
      exact ⟨present, sameSender⟩
  | skipPeerTo skipped seq =>
      rw [Call.ofPeer, Option.ite_none_right_eq_some] at concerns
      cases concerns.2

/-- The inbox of a peer is the one its calls lead to. -/
theorem lookup_final
    (window : UInt64) (calls : List Call) (peer : String) :
    (Transducer.final call (withWindow window) calls).inboxes.lookup peer =
      Transducer.final (OrderedInbox.lazyCall window) none
        (callsOf peer calls) :=
  (Transducer.projection
    (fun router : SignalRouter => router.window = max window 1)
    (fun router => router.inboxes.lookup peer)
    (Call.ofPeer peer)
    (OrderedInbox.lazyCall window)
    (rfl : (withWindow window).window = max window 1)
    (fun router action sameWindow =>
      (call_window router action).trans sameWindow)
    (fun _ _ _ sameWindow concerns => call_own sameWindow concerns)
    (fun router _ _ unconcerned => call_foreign router unconcerned)
    calls).2.trans (congrArg
      (fun inbox => Transducer.final (OrderedInbox.lazyCall window) inbox _)
      (Finmap.lookup_empty peer))

theorem final_window (window : UInt64) (calls : List Call) :
    (Transducer.final call (withWindow window) calls).window = max window 1 :=
  Transducer.invariant
    (motive := fun router : SignalRouter => router.window = max window 1) rfl
    (fun router action same => (call_window router action).trans same) calls

/-- A call that concerns no peer releases nothing. -/
theorem call_of_nobody
    {router : SignalRouter} {action : Call}
    (nobody : ∀ peer, action.ofPeer peer = none) :
    (router.call action).1 = [] := by
  cases action with
  | offer env =>
      have anonymous : env.sender = "" := by
        by_contra named
        have concerns := nobody env.sender
        rw [Call.ofPeer, if_pos ⟨rfl, named⟩] at concerns
        cases concerns
      exact congrArg Prod.fst (if_pos anonymous)
  | skipPeerTo skipped seq =>
      have concerns := nobody skipped
      rw [Call.ofPeer, if_pos rfl] at concerns
      cases concerns

/-- A call concerns one peer at most. -/
theorem ofPeer_eq_none_of_ne
    {action : Call} {owner peer : String} {own : OrderedInbox.Call}
    (concerns : action.ofPeer owner = some own) (different : owner ≠ peer) :
    action.ofPeer peer = none := by
  cases action with
  | offer env =>
      rw [Call.ofPeer, Option.ite_none_right_eq_some] at concerns
      exact if_neg fun same => different (concerns.1.1.symm.trans same.1)
  | skipPeerTo skipped seq =>
      rw [Call.ofPeer, Option.ite_none_right_eq_some] at concerns
      exact if_neg fun same => different (concerns.1.symm.trans same)

/-- The answer to a call of a peer is what the peer's inbox releases next. -/
theorem lazyReleased_concat
    (window : UInt64) (calls : List Call) {action : Call} {owner : String}
    {own : OrderedInbox.Call} (concerns : action.ofPeer owner = some own) :
    OrderedInbox.lazyReleased window (callsOf owner (calls ++ [action])) =
      OrderedInbox.lazyReleased window (callsOf owner calls) ++
        ((Transducer.final call (withWindow window) calls).call action).1 := by
  have answered := (call_own (final_window window calls) concerns).1
  rw [lookup_final] at answered
  rw [answered, callsOf, List.filterMap_append, ← callsOf]
  simp [OrderedInbox.lazyReleased, concerns, Transducer.outputs_append]

theorem sender_of_mem_call
    {window : UInt64} {calls : List Call} {action : Call} {owner : String}
    {own : OrderedInbox.Call} (concerns : action.ofPeer owner = some own)
    {env : SignalEnvelope}
    (member : env ∈
      ((Transducer.final call (withWindow window) calls).call action).1) :
    env.sender = owner := by
  have released : env ∈ OrderedInbox.lazyReleased window
      (callsOf owner (calls ++ [action])) := by
    rw [lazyReleased_concat window calls concerns]
    exact List.mem_append_right _ member
  exact (sender_of_offer_mem_callsOf
    (OrderedInbox.offer_mem_of_mem_lazyReleased released)).2

/-- What a router has released under a peer's name is what the peer's inbox has
released. -/
theorem released_filter_sender
    (window : UInt64) (calls : List Call) (peer : String) :
    (released window calls).filter (fun env => env.sender = peer) =
      OrderedInbox.lazyReleased window (callsOf peer calls) := by
  induction calls using List.reverseRecOn with
  | nil => rfl
  | append_singleton calls action inductionHypothesis =>
      have split : released window (calls ++ [action]) =
          released window calls ++
            ((Transducer.final call (withWindow window) calls).call
              action).1 := by
        simp [released, Transducer.outputs_append]
      rw [split, List.filter_append, inductionHypothesis]
      by_cases somebody : ∃ owner own, action.ofPeer owner = some own
      · obtain ⟨owner, own, concerns⟩ := somebody
        by_cases ours : owner = peer
        · subst ours
          rw [lazyReleased_concat window calls concerns,
            List.filter_eq_self.mpr fun env member =>
              decide_eq_true (sender_of_mem_call concerns member)]
        · have silent : (((Transducer.final call (withWindow window)
              calls).call action).1).filter
                (fun env => decide (env.sender = peer)) = [] := by
            rw [List.filter_eq_nil_iff]
            intro env member
            rw [sender_of_mem_call concerns member]
            simpa using ours
          rw [silent, List.append_nil]
          simp [callsOf, ofPeer_eq_none_of_ne concerns ours]
      · push Not at somebody
        have nobody : ∀ owner, action.ofPeer owner = none := fun owner =>
          Option.eq_none_iff_forall_ne_some.mpr (somebody owner)
        rw [call_of_nobody nobody, List.filter_nil, List.append_nil]
        simp [callsOf, nobody peer]

end SignalRouter

namespace MeetClient

/-- What is offered to the router was received, and was addressed to the
client. -/
theorem offered_of_mem_routerCalls
    {serde : SerdeJson} {client : MeetClient} {inputs : List Input}
    {env : SignalEnvelope}
    (member : .offer env ∈ inputs.filterMap (client.routerCall serde)) :
    isDirectedTo client.room.me env = true ∧
      ∃ sender publication now parsed,
        Mesh.Input.arrival sender publication (.ordered now) ∈ inputs ∧
        SignalEnvelope.fromBytes serde publication.2 = .ok parsed ∧
        env = parsed.withSender sender := by
  obtain ⟨input, present, offers⟩ := List.mem_filterMap.mp member
  cases input with
  | command command => cases command <;> cases offers
  | arrival sender publication reading =>
      cases reading with
      | roster => cases offers
      | ordered now =>
          obtain ⟨other, filled, same⟩ := Option.map_eq_some_iff.mp offers
          cases same
          unfold slot at filled
          split at filled
          next => cases filled
          next parsed decoded =>
            rw [Option.ite_none_right_eq_some] at filled
            obtain ⟨passes, same⟩ := filled
            cases same
            refine ⟨?_, sender, publication, now, parsed, present, decoded,
              rfl⟩
            have unicast : (parsed.withSender sender).signal.isBroadcast =
                false := passes.2.1
            have addressed : (parsed.withSender sender).addressedTo
                client.room.me = true := passes.2.2.2
            rw [isDirectedTo, unicast, addressed]
            rfl

/-- What a client with an empty router hands over of a node is what the reorder
buffer of the node has released. -/
theorem handedOver_filter_sender
    (serde : SerdeJson) {client : MeetClient} (inputs : List Input)
    (fresh : client.router = .withWindow defaultWindow) (sender : String) :
    ((client.outcomes serde inputs).flatMap Outcome.handedOver).filter
        (fun env => env.sender = sender) =
      OrderedInbox.lazyReleased defaultWindow
        (SignalRouter.callsOf sender
          (inputs.filterMap (client.routerCall serde))) := by
  rw [(outcomes_handedOver serde client inputs).1, fresh]
  exact SignalRouter.released_filter_sender defaultWindow _ sender

/-- If whatever arrives from a node is in an ascending log, then a client with
an empty router hands over some of the directed signals of the log, in its
order. -/
theorem handedOver_sublist
    {serde : SerdeJson} {client : MeetClient} {inputs : List Input}
    {sender : String} {log : List SignalEnvelope}
    (fresh : client.router = .withWindow defaultWindow)
    (ascends : log.Pairwise fun earlier later => earlier.seq < later.seq)
    (belowTop : ∀ env ∈ log, env.seq < UInt64.maxValue)
    (attested : ∀ publication now parsed,
      Mesh.Input.arrival sender publication (.ordered now) ∈ inputs →
      SignalEnvelope.fromBytes serde publication.2 = .ok parsed →
      parsed.withSender sender ∈ log) :
    (((client.outcomes serde inputs).flatMap Outcome.handedOver).filter
        fun env => env.sender = sender).Sublist
      (log.filter (isDirectedTo client.room.me)) := by
  let calls := inputs.filterMap (client.routerCall serde)
  have logged : ∀ env, OrderedInbox.Call.offer env ∈
      SignalRouter.callsOf sender calls →
      env ∈ log.filter (isDirectedTo client.room.me) := by
    intro env member
    obtain ⟨called, sameSender⟩ :=
      SignalRouter.sender_of_offer_mem_callsOf member
    obtain ⟨directed, other, publication, now, parsed, arrival, decoded, rfl⟩ :=
      offered_of_mem_routerCalls called
    cases sameSender
    exact List.mem_filter.mpr
      ⟨attested publication now parsed arrival decoded, directed⟩
  rw [handedOver_filter_sender serde inputs fresh]
  refine SignalEnvelope.sublist_of_ascending ?_ (ascends.filter _) ?_
  · exact OrderedInbox.lazyReleased_ascending fun env offered =>
      belowTop env (List.mem_filter.mp (logged env offered)).1
  · intro env member
    exact logged env (OrderedInbox.offer_mem_of_mem_lazyReleased member)

end MeetClient

namespace Meeting

/-- In every meeting a client hands over, of every participant, some of the
directed signals that the participant has sent to it, each at most once and in
the order in which they were sent. -/
theorem hands_over_in_order
    (meeting : Meeting) (node sender : String)
    (participates : sender ∈ meeting.participants) :
    (meeting.handedOver node sender).Sublist
      ((meeting.sentBy sender).filter (MeetClient.isDirectedTo node)) := by
  rw [handedOver, outcomes_eq]
  refine MeetClient.handedOver_sublist rfl (meeting.sentBy_ascending sender)
    (fun env member => (facts_of_mem_sentBy member).2.2.2) ?_
  intro publication now parsed arrival decoded
  exact mem_sentBy_of_decoded (published_of_arrival participates arrival)
    decoded

/-- Two participants of whom one sends the other an offer and a candidate, which
arrive in the other order and twice, among a stranger's. -/
def crossing : Meeting where
  serde := .compact
  roomId := "r"
  participants := {"ann", "bob"}
  freshnessSecs := fun _ => 30
  actions :=
    [.command "ann" (.call (.signalPeer "bob" (.offer "v=0")) 1000),
      .command "ann"
        (.call (.signalPeer "bob" (.iceCandidate "c1" none none)) 1001),
      .inject "eve" (roomTopic "r", []),
      .deliver "bob" 1 (.ordered 1002),
      .deliver "bob" 2 (.ordered 1002),
      .deliver "bob" 0 (.ordered 1003),
      .deliver "bob" 1 (.ordered 1003)]

theorem crossing_hands_over_in_order :
    (crossing.handedOver "bob" "ann").Sublist
      ((crossing.sentBy "ann").filter (MeetClient.isDirectedTo "bob")) :=
  hands_over_in_order crossing "bob" "ann" (by decide)

end Meeting
end CeMeet
