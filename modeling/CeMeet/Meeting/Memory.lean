import CeMeet.Meeting.Handover
import CeMeet.Order.Progress

/-!
# What a client keeps

A client keeps a roster, which has a cap, and a reorder buffer for every sender
of whom a directed signal has passed its filters.  The number of these buffers
has no bound but the number of such senders, since none is ever given up; each
of them holds less than a window of frames, which its own sender sent.
-/

namespace CeMeet

namespace OrderedInbox

/-- A list of calls starts an inbox if one of them offers something. -/
theorem fromFirstOffer_ne_nil_iff {calls : List Call} :
    fromFirstOffer calls ≠ [] ↔ calls.filterMap Call.offered ≠ [] := by
  induction calls with
  | nil => simp [fromFirstOffer]
  | cons action calls inductionHypothesis =>
      cases action with
      | offer env => simp [fromFirstOffer, Call.isSkip, Call.offered]
      | skipTo seq =>
          rw [fromFirstOffer, List.dropWhile_cons_of_pos rfl,
            List.filterMap_cons_none rfl]
          exact inductionHypothesis

end OrderedInbox

namespace SignalRouter

/-- A peer has an inbox as soon as something was offered under its name. -/
theorem mem_inboxes_final_iff
    (window : UInt64) (calls : List Call) (peer : String) :
    peer ∈ (Transducer.final call (withWindow window) calls).inboxes ↔
      (callsOf peer calls).filterMap OrderedInbox.Call.offered ≠ [] := by
  rw [← Finmap.lookup_isSome, lookup_final,
    (OrderedInbox.lazyCall_none window _).2, OrderedInbox.afterFirstOffer,
    ← OrderedInbox.fromFirstOffer_ne_nil_iff]
  by_cases silent : OrderedInbox.fromFirstOffer (callsOf peer calls) = []
  · rw [if_pos silent]
    exact iff_of_false Bool.false_ne_true (not_not.mpr silent)
  · rw [if_neg silent]
    exact iff_of_true rfl silent

/-- Nobody is never offered anything. -/
theorem offered_callsOf_nobody (calls : List Call) :
    (callsOf "" calls).filterMap OrderedInbox.Call.offered = [] := by
  rw [List.filterMap_eq_nil_iff]
  intro action member
  cases action with
  | offer env =>
      obtain ⟨called, _, concerns⟩ := List.mem_filterMap.mp member
      cases called with
      | offer other =>
          rw [Call.ofPeer, Option.ite_none_right_eq_some] at concerns
          exact absurd concerns.1.1 concerns.1.2
      | skipPeerTo skipped seq =>
          rw [Call.ofPeer, Option.ite_none_right_eq_some] at concerns
          cases concerns.2
  | skipTo seq => rfl

/-- An inbox holds less than a window of what was offered under its peer's
name. -/
theorem held_by_final
    {window : UInt64} {calls : List Call} {peer : String}
    {inbox : OrderedInbox}
    (found : (Transducer.final call (withWindow window) calls).inboxes.lookup
      peer = some inbox) :
    inbox.buffered ≤ (max window 1).toNat - 1 ∧
      ∀ seq env, inbox.buffer.lookup seq = some env →
        env ∈ (callsOf peer calls).filterMap OrderedInbox.Call.offered := by
  rw [lookup_final, (OrderedInbox.lazyCall_none window _).2,
    OrderedInbox.afterFirstOffer, Option.ite_none_left_eq_some] at found
  obtain ⟨_, same⟩ := found
  cases same
  let own := OrderedInbox.fromFirstOffer (callsOf peer calls)
  have bounded := OrderedInbox.bounded_after window own
  have traced := OrderedInbox.traced_released window own
  constructor
  · have room := bounded.ready.room
    rw [bounded.window_eq] at room
    exact Nat.le_sub_one_of_lt room
  · intro seq env held
    have offered : OrderedInbox.Call.offer env ∈ callsOf peer calls :=
      (List.dropWhile_sublist _).subset (traced.heldOffered seq env held)
    exact List.mem_filterMap.mpr ⟨_, offered, rfl⟩

end SignalRouter

namespace MeetClient

/-- An operation that adopts no snapshot keeps the roster within its cap. -/
theorem step_knownCount_le
    (serde : SerdeJson) {client : MeetClient}
    (bounded : client.room.knownCount ≤ client.room.maxMembers)
    (input : Input) :
    (client.step serde input).2.room.knownCount ≤
      (client.step serde input).2.room.maxMembers := by
  rw [(step_performs serde client input).room]
  cases input with
  | command command =>
      cases command with
      | call call now =>
          obtain ⟨seq, nextSeq, allocated⟩ :=
            Room.operate_nextOutboundSeq client.room
          simp only [operation, Option.toList_some, Room.after_cons,
            Room.after_nil, allocated]
          exact bounded
      | resumeOutboundFrom floor => exact bounded
      | skipPeerTo peer seq => exact bounded
  | arrival sender publication reading =>
      rw [operation]
      cases client.heard serde sender publication reading with
      | none => exact bounded
      | some env => exact (Room.apply_writes client.room env).knownCount_le bounded

/-- What is offered to the reorder buffer of a node came from that node, in a
frame that respects the cap. -/
theorem frame_of_offeredBy
    {serde : SerdeJson} {client : MeetClient} {node : String} {input : Input}
    {env : SignalEnvelope}
    (offered : client.offeredBy serde node input = some env) :
    ∃ publication now parsed,
      input = .arrival node publication (.ordered now) ∧
      publication.2.length ≤ maxEnvelopeBytes ∧
      SignalEnvelope.fromBytes serde publication.2 = .ok parsed ∧
      env = parsed.withSender node := by
  unfold offeredBy at offered
  split at offered
  case h_1 sender publication now =>
    rw [Option.ite_none_right_eq_some] at offered
    obtain ⟨rfl, filled⟩ := offered
    unfold slot at filled
    split at filled
    case h_1 => cases filled
    case h_2 parsed decoded =>
      rw [Option.ite_none_right_eq_some] at filled
      obtain ⟨_, same⟩ := filled
      exact ⟨publication, now, parsed, rfl,
        (SignalEnvelope.fromBytes_eq_ok_iff.mp decoded).1, decoded,
        (Option.some.inj same).symm⟩
  case h_2 => cases offered

/-- Whatever a client is told and receives, it keeps a reorder buffer for
exactly the named senders of whom a directed signal has passed its filters, in
each of them at most sixty-three signals, which arrived from that very sender in
frames that respect the cap, and a roster that respects its own. -/
theorem retains_at_most
    (serde : SerdeJson) (room me : String) (freshnessSecs : UInt64)
    (inputs : List Input) :
    let opened := (MeetClient.new room me).withFreshness freshnessSecs
    let client := opened.afterInputs serde inputs
    client.room.knownCount ≤ 1024 ∧
      ∀ peer : String, (peer ∈ client.router.inboxes ↔
          peer ≠ "" ∧ inputs.filterMap (opened.offeredBy serde peer) ≠ []) ∧
        ∀ inbox, client.router.inboxes.lookup peer = some inbox →
          inbox.buffered ≤ 63 ∧
          ∀ seq env, inbox.buffer.lookup seq = some env →
            ∃ publication now parsed,
              Mesh.Input.arrival peer publication (.ordered now) ∈ inputs ∧
              publication.2.length ≤ maxEnvelopeBytes ∧
              SignalEnvelope.fromBytes serde publication.2 = .ok parsed ∧
              env = parsed.withSender peer := by
  intro opened client
  have sameRouter : client.router = Transducer.final SignalRouter.call
      (SignalRouter.withWindow defaultWindow)
      (inputs.filterMap (opened.routerCall serde)) :=
    (outcomes_handedOver serde opened inputs).2
  refine ⟨?_, fun peer => ⟨?_, ?_⟩⟩
  · have starts : opened.room.knownCount ≤ opened.room.maxMembers :=
      Nat.zero_le _
    have cap := Transducer.invariant
      (motive := fun current : MeetClient =>
        current.room.knownCount ≤ current.room.maxMembers)
      starts (fun _ input bounded => step_knownCount_le serde bounded input)
      inputs
    have sameCap : client.room.maxMembers = 1024 := by
      rw [afterInputs_room, Room.after_maxMembers]
      rfl
    exact cap.trans sameCap.le
  · rw [sameRouter, SignalRouter.mem_inboxes_final_iff]
    by_cases nobody : peer = ""
    · subst nobody
      rw [SignalRouter.offered_callsOf_nobody]
      exact iff_of_false (fun differs => differs rfl) fun kept => kept.1 rfl
    · rw [offered_callsOf serde opened nobody]
      exact (and_iff_right nobody).symm
  · intro inbox found
    rw [sameRouter] at found
    obtain ⟨atMost, held⟩ := SignalRouter.held_by_final found
    refine ⟨atMost, fun seq env present => ?_⟩
    have named : peer ≠ "" := by
      rintro rfl
      have member := held seq env present
      rw [SignalRouter.offered_callsOf_nobody] at member
      cases member
    have member := held seq env present
    rw [offered_callsOf serde opened named] at member
    obtain ⟨input, arrived, offered⟩ := List.mem_filterMap.mp member
    obtain ⟨publication, now, parsed, rfl, fits, decoded, same⟩ :=
      frame_of_offeredBy offered
    exact ⟨publication, now, parsed, arrived, fits, decoded, same⟩

end MeetClient
end CeMeet
