import CeMeet.Client.Handover
import CeMeet.Client.LoopAgreement
import CeMeet.Client.Refusals
import CeMeet.Foundation.Mesh
import CeMeet.Order.Independence
import CeMeet.Room.Counter

/-!
# A participant of a meeting

A client between its user and the network: it makes outbound calls, raises its
counter when it resumes, skips a peer ahead, and takes what arrives either into
the roster alone, as the receive loops do, or through the reorder buffers as
well.  Every input is at most one operation of the roster and one call of the
router, and publishes at most one frame, under the next number of the counter.
-/

namespace CeMeet

/-- The envelope that a call offers. -/
def OrderedInbox.Call.offered : OrderedInbox.Call → Option SignalEnvelope
  | .offer env => some env
  | .skipTo _ => none

namespace MeetClient

/-- A command of the user. -/
inductive Command
  | call (call : HelperCall) (now : UInt64)
  | resumeOutboundFrom (floor : UInt64)
  | skipPeerTo (peer : String) (seq : UInt64)

/-- How an arriving message is taken: by a receive loop, or by the ordered
ingestion at a reading of the clock. -/
inductive Reading
  | roster
  | ordered (now : UInt64)

/-- An input of a participant. -/
abbrev Input := Mesh.Input String Publication Command Reading

/-- What an input leads to. -/
structure Outcome where
  /-- What is handed to the transport. -/
  publication : Option Publication := none
  /-- The effect on the roster that is surfaced. -/
  effect : Option Effect := none
  /-- The directed signals that are handed over. -/
  handedOver : List SignalEnvelope := []

/-- Take one input. -/
def step (serde : SerdeJson) (client : MeetClient) :
    Input → Outcome × MeetClient
  | .command (.call call now) =>
      let (result, client) := invoke serde client (call, now)
      ({ publication := result.bind Except.toOption }, client)
  | .command (.resumeOutboundFrom floor) =>
      let (_, room) := client.room.resumeOutboundFrom floor
      ({}, { client with room })
  | .command (.skipPeerTo peer seq) =>
      let (handedOver, client) := client.skipPeerTo peer seq
      ({ handedOver }, client)
  | .arrival sender publication .roster =>
      let message : AppMessage Unit :=
        { topic := publication.1
          sender
          payload := .ok publication.2
          replyToken := none }
      let (effect, client) := receive serde (roomTopic client.room.roomId)
        client.room.me client message
      ({ effect }, client)
  | .arrival sender publication (.ordered now) =>
      let (handedOver, client) :=
        client.ingestOrdered serde now sender publication.2
      ({ handedOver }, client)

/-! ## What reaches the roster and the router -/

/-- The envelope of an arriving message that reaches the roster. -/
def heard (serde : SerdeJson) (client : MeetClient) (sender : String)
    (publication : Publication) : Reading → Option SignalEnvelope
  | .roster =>
      if publication.1 ≠ roomTopic client.room.roomId ∨
          sender = client.room.me then
        none
      else
        (SignalEnvelope.fromBytes serde publication.2).toOption.map
          fun env => env.withSender sender
  | .ordered now =>
      match SignalEnvelope.fromBytes serde publication.2 with
      | .error _ => none
      | .ok parsed =>
          if client.freshnessSecs ≠ 0 ∧ ¬parsed.signal.isBroadcast ∧
              ¬parsed.isFresh now client.freshnessSecs then
            none
          else
            some (parsed.withSender sender)

/-- The operation of the roster that an input amounts to. -/
def operation (serde : SerdeJson) (client : MeetClient) :
    Input → Option Room.Operation
  | .command (.call _ _) => some .nextOutboundSeq
  | .command (.resumeOutboundFrom floor) => some (.resumeOutboundFrom floor)
  | .command (.skipPeerTo _ _) => none
  | .arrival sender publication reading =>
      (client.heard serde sender publication reading).map .apply

/-- The call of the router that an input amounts to. -/
def routerCall (serde : SerdeJson) (client : MeetClient) :
    Input → Option SignalRouter.Call
  | .command (.call _ _) | .command (.resumeOutboundFrom _) => none
  | .command (.skipPeerTo peer seq) => some (.skipPeerTo peer seq)
  | .arrival _ _ .roster => none
  | .arrival sender publication (.ordered now) =>
      (client.slot serde sender now publication.2).map .offer

/-- Perform a call of a router, if there is one. -/
def callRouter (router : SignalRouter) :
    Option SignalRouter.Call → List SignalEnvelope × SignalRouter
  | some call => router.call call
  | none => ([], router)

theorem SameFilters.trans
    {first second third : MeetClient}
    (left : SameFilters first second) (right : SameFilters second third) :
    SameFilters first third :=
  ⟨right.roomId.trans left.roomId, right.me.trans left.me,
    right.freshnessSecs.trans left.freshnessSecs⟩

theorem SameFilters.operation
    {client other : MeetClient} (same : SameFilters client other)
    (serde : SerdeJson) (input : Input) :
    other.operation serde input = client.operation serde input := by
  unfold MeetClient.operation heard
  rw [same.roomId, same.me, same.freshnessSecs]

theorem SameFilters.routerCall
    {client other : MeetClient} (same : SameFilters client other)
    (serde : SerdeJson) (input : Input) :
    other.routerCall serde input = client.routerCall serde input := by
  unfold MeetClient.routerCall
  simp only [same.slot]

/-- What reaches the roster was decoded. -/
theorem decoded_of_heard
    {serde : SerdeJson} {client : MeetClient} {sender : String}
    {publication : Publication} {reading : Reading} {env : SignalEnvelope}
    (reached : client.heard serde sender publication reading = some env) :
    ∃ parsed, SignalEnvelope.fromBytes serde publication.2 = .ok parsed ∧
      env = parsed.withSender sender := by
  cases decoded : SignalEnvelope.fromBytes serde publication.2 with
  | error e => cases reading <;> simp [heard, decoded, Except.toOption] at reached
  | ok parsed =>
      refine ⟨parsed, rfl, ?_⟩
      cases reading with
      | roster =>
          rw [heard, Option.ite_none_left_eq_some, decoded] at reached
          exact (Option.some.inj reached.2).symm
      | ordered now =>
          rw [heard, decoded] at reached
          dsimp only at reached
          rw [Option.ite_none_left_eq_some] at reached
          exact (Option.some.inj reached.2).symm

/-! ## One input -/

/-- A call takes a number, if the counter has not overflowed. -/
theorem invoke_room
    (serde : SerdeJson) (client : MeetClient) (call : HelperCall × UInt64) :
    (invoke serde client call).2.room =
        (client.room.operate .nextOutboundSeq).2 ∧
      SameFilters client (invoke serde client call).2 ∧
      (invoke serde client call).2.router = client.router := by
  by_cases atTop : client.room.nextSeq = UInt64.maxValue
  · have none : client.room.nextOutboundSeq = none := if_pos atTop
    rw [invoke_of_overflow atTop, Room.operate, none]
    exact ⟨rfl, ⟨rfl, rfl, rfl⟩, rfl⟩
  · have allocated := Room.nextOutboundSeq_eq_some_iff.mpr ⟨atTop, rfl, rfl⟩
    rw [invoke_of_available atTop, Room.operate, allocated]
    exact ⟨rfl, ⟨rfl, rfl, rfl⟩, rfl⟩

/-- What a call publishes is the frame of its envelope under the next number,
and the counter moves on. -/
theorem publication_of_invoke
    {serde : SerdeJson} {client : MeetClient} {call : HelperCall × UInt64}
    {publication : Publication}
    (published : (invoke serde client call).1.bind Except.toOption =
      some publication) :
    publication.1 = roomTopic client.room.roomId ∧
      IsFrameOf serde
        (call.1.envelope client.room.roomId client.room.nextSeq call.2)
        publication ∧
      client.room.nextSeq < (invoke serde client call).2.room.nextSeq := by
  by_cases atTop : client.room.nextSeq = UInt64.maxValue
  · rw [invoke_of_overflow atTop] at published
    cases published
  · rw [invoke_of_available atTop] at published ⊢
    rw [Option.bind_some] at published
    cases result : client.counted.publish serde
        (call.1.envelope client.room.roomId client.room.nextSeq call.2) with
    | error message =>
        rw [result] at published
        cases published
    | ok sent =>
        rw [result] at published
        cases published
        obtain ⟨_, _, _, same⟩ := publish_eq_ok_iff.mp result
        refine ⟨congrArg Prod.fst same, isFrameOf_of_publish result, ?_⟩
        rw [UInt64.lt_iff_toNat_lt]
        have counts := UInt64.toNat_add_one_of_ne atTop
        change _ < (client.room.nextSeq + 1).toNat
        omega

/-- What reaches the roster through a loop is what is applied to it. -/
theorem receive_room
    (serde : SerdeJson) (client : MeetClient) (sender : String)
    (publication : Publication) :
    (receive serde (roomTopic client.room.roomId) client.room.me client
        ({ topic := publication.1
           sender
           payload := .ok publication.2
           replyToken := none } : AppMessage Unit)).2 =
      { client with
        room := client.room.after
          (client.operation serde (.arrival sender publication .roster)).toList } := by
  unfold receive operation heard
  dsimp only
  split
  case isTrue => rfl
  case isFalse =>
    cases parsed : SignalEnvelope.fromBytes serde publication.2 with
    | error e =>
        rw [applyMessage_error parsed]
        rfl
    | ok env =>
        rw [(applyMessage_ok parsed).1]
        rfl

/-- What reaches the roster and the router through the ordered ingestion. -/
theorem ingestOrdered_eq
    (serde : SerdeJson) (client : MeetClient) (now : UInt64) (sender : String)
    (publication : Publication) :
    let input : Input := .arrival sender publication (.ordered now)
    let routed := callRouter client.router (client.routerCall serde input)
    client.ingestOrdered serde now sender publication.2 =
      (routed.1,
        { client with
          room := client.room.after (client.operation serde input).toList
          router := routed.2 }) := by
  unfold ingestOrdered operation heard routerCall slot
  dsimp only
  cases parsed : SignalEnvelope.fromBytes serde publication.2 with
  | error e => rfl
  | ok env =>
      dsimp only
      have sameFresh : (env.withSender sender).isFresh now
          client.freshnessSecs = env.isFresh now client.freshnessSecs := rfl
      have sameSignal : (env.withSender sender).signal = env.signal := rfl
      rw [sameFresh, sameSignal]
      by_cases dropped : client.freshnessSecs ≠ 0 ∧ ¬env.signal.isBroadcast ∧
          ¬env.isFresh now client.freshnessSecs
      · have stale : isTimely client.freshnessSecs now env = false := by
          simp [isTimely, dropped.1, dropped.2.2]
        rw [if_pos dropped, if_pos dropped, if_neg (by simp [stale])]
        rfl
      · rw [if_neg dropped, if_neg dropped]
        by_cases directed : env.roomId = client.room.roomId ∧ sender ≠ "" ∧
            env.signal.isBroadcast = false
        · obtain ⟨sameRoom, authenticated, unicast⟩ := directed
          have timely : isTimely client.freshnessSecs now env = true := by
            simp only [isTimely, decide_eq_true_eq]
            by_contra late
            rw [not_or] at late
            exact dropped ⟨late.1, by simp [unicast], late.2⟩
          have applied : client.room.apply (env.withSender sender) =
              (.directed (env.withSender sender), client.room) :=
            Room.apply_directed sameRoom authenticated unicast
          have sameRecipient : (env.withSender sender).addressedTo
              client.room.me = env.addressedTo client.room.me := rfl
          rw [route, applied]
          simp only [timely, unicast, sameRoom, true_and, sameRecipient,
            Option.map_some, Option.toList_some, Room.after_cons,
            Room.after_nil, Room.operate, applied]
          split
          case isTrue => rfl
          case isFalse => rfl
        · have undirected : (env.withSender sender).roomId ≠
                client.room.roomId ∨ (env.withSender sender).sender = "" ∨
              (env.withSender sender).signal.isBroadcast = true := by
            by_contra accepted
            simp only [not_or, not_not, Bool.not_eq_true] at accepted
            exact directed accepted
          rw [route_eq_of_undirected undirected]
          split
          case isTrue passes =>
            -- Nobody sent it, so the router ignores it.
            have anonymous : (env.withSender sender).sender = "" := by
              by_contra authenticated
              exact directed ⟨passes.2.2.1, authenticated, passes.2.1⟩
            have ignored : client.router.call
                (.offer (env.withSender sender)) = ([], client.router) :=
              if_pos anonymous
            rw [Option.map_some, callRouter, ignored]
            rfl
          case isFalse => rfl

/-- What an input does to the roster, the router and the filters. -/
structure Performs (serde : SerdeJson) (client : MeetClient) (input : Input)
    (result : Outcome × MeetClient) : Prop where
  /-- It performs its operation on the roster. -/
  room : result.2.room =
    client.room.after (client.operation serde input).toList
  /-- What its call of the router releases is handed over. -/
  handedOver : result.1.handedOver =
    (callRouter client.router (client.routerCall serde input)).1
  /-- It performs its call on the router. -/
  router : result.2.router =
    (callRouter client.router (client.routerCall serde input)).2
  /-- It leaves the filters alone. -/
  filters : SameFilters client result.2

theorem step_performs
    (serde : SerdeJson) (client : MeetClient) (input : Input) :
    Performs serde client input (client.step serde input) := by
  cases input with
  | command command =>
      cases command with
      | call call now =>
          obtain ⟨room, filters, router⟩ :=
            invoke_room serde client (call, now)
          exact ⟨room, rfl, router, filters⟩
      | resumeOutboundFrom floor => exact ⟨rfl, rfl, rfl, ⟨rfl, rfl, rfl⟩⟩
      | skipPeerTo peer seq => exact ⟨rfl, rfl, rfl, ⟨rfl, rfl, rfl⟩⟩
  | arrival sender publication reading =>
      cases reading with
      | roster =>
          have received := receive_room serde client sender publication
          have filters := receive_filters serde (roomTopic client.room.roomId)
            client.room.me client
            ({ topic := publication.1
               sender
               payload := .ok publication.2
               replyToken := none } : AppMessage Unit)
          have room := congrArg MeetClient.room received
          have router := congrArg MeetClient.router received
          exact ⟨room, rfl, router, filters⟩
      | ordered now =>
          have ingested := ingestOrdered_eq serde client now sender publication
          have filters : SameFilters client
              (client.ingest serde ⟨now, sender, publication.2⟩).2 :=
            (ingest_cases client _).1
          have handedOver := congrArg Prod.fst ingested
          have next := congrArg Prod.snd ingested
          have room := congrArg MeetClient.room next
          have router := congrArg MeetClient.router next
          exact ⟨room, handedOver, router, filters⟩

/-- Only a call publishes, under the next number of the counter. -/
theorem step_publishes
    {serde : SerdeJson} {client : MeetClient} {input : Input}
    {publication : Publication}
    (published : (client.step serde input).1.publication =
      some publication) :
    ∃ call now, input = .command (.call call now) ∧
      publication.1 = roomTopic client.room.roomId ∧
      IsFrameOf serde
        (call.envelope client.room.roomId client.room.nextSeq now)
        publication ∧
      client.room.nextSeq < (client.step serde input).2.room.nextSeq := by
  cases input with
  | command command =>
      cases command with
      | call call now =>
          exact ⟨call, now, rfl, publication_of_invoke published⟩
      | resumeOutboundFrom floor => cases published
      | skipPeerTo peer seq => cases published
  | arrival sender publication reading =>
      cases reading with
      | roster => cases published
      | ordered now => cases published

/-! ## Runs of inputs -/

/-- The outcomes of a list of inputs. -/
abbrev outcomes (serde : SerdeJson) (client : MeetClient)
    (inputs : List Input) : List Outcome :=
  Transducer.outputs (step serde) client inputs

/-- The participant after a list of inputs. -/
abbrev afterInputs (serde : SerdeJson) (client : MeetClient)
    (inputs : List Input) : MeetClient :=
  Transducer.final (step serde) client inputs

theorem afterInputs_filters
    (serde : SerdeJson) (client : MeetClient) (inputs : List Input) :
    SameFilters client (client.afterInputs serde inputs) :=
  Transducer.invariant (motive := SameFilters client) ⟨rfl, rfl, rfl⟩
    (fun current input same =>
      same.trans (step_performs serde current input).filters)
    inputs

/-- The roster performs the operations of the inputs. -/
theorem afterInputs_room
    (serde : SerdeJson) (client : MeetClient) (inputs : List Input) :
    (client.afterInputs serde inputs).room =
      client.room.after (inputs.filterMap (client.operation serde)) := by
  induction inputs using List.reverseRecOn with
  | nil => rfl
  | append_singleton inputs input inductionHypothesis =>
      have filters := afterInputs_filters serde client inputs
      have performs :=
        step_performs serde (client.afterInputs serde inputs) input
      rw [afterInputs, Transducer.final_concat, performs.room,
        filters.operation serde input, inductionHypothesis,
        List.filterMap_append, Room.after_append]
      cases operated : client.operation serde input <;> simp [operated]

/-- The router takes the calls of the inputs, and its answers are handed
over. -/
theorem outcomes_handedOver
    (serde : SerdeJson) (client : MeetClient) (inputs : List Input) :
    (client.outcomes serde inputs).flatMap Outcome.handedOver =
        (Transducer.outputs SignalRouter.call client.router
          (inputs.filterMap (client.routerCall serde))).flatten ∧
      (client.afterInputs serde inputs).router =
        Transducer.final SignalRouter.call client.router
          (inputs.filterMap (client.routerCall serde)) := by
  induction inputs using List.reverseRecOn with
  | nil => exact ⟨rfl, rfl⟩
  | append_singleton inputs input inductionHypothesis =>
      obtain ⟨handedOver, sameRouter⟩ := inductionHypothesis
      have filters := afterInputs_filters serde client inputs
      have performs :=
        step_performs serde (client.afterInputs serde inputs) input
      have answered := performs.handedOver
      have router := performs.router
      rw [filters.routerCall serde input, sameRouter] at answered router
      constructor
      · rw [outcomes, Transducer.outputs_concat, List.flatMap_append,
          List.flatMap_singleton, List.filterMap_append, handedOver, answered]
        cases called : client.routerCall serde input <;>
          simp [called, callRouter, Transducer.outputs_append]
      · rw [afterInputs, Transducer.final_concat, List.filterMap_append, router]
        cases called : client.routerCall serde input <;>
          simp [called, callRouter, Transducer.final_append]

/-- The envelope that a frame was written from. -/
def written (serde : SerdeJson) (publication : Publication) :
    Option SignalEnvelope :=
  (serde.fromSlice publication.2).toOption

theorem written_of_isFrameOf
    {serde : SerdeJson} {env : SignalEnvelope} {publication : Publication}
    (frame : IsFrameOf serde env publication) :
    written serde publication = some env := by
  rw [written, serde.fromSlice_toVec _ _ frame.1]
  rfl

/-- The frames that were handed to the transport, as outcomes report them. -/
def publications (outcomes : List Outcome) : List Publication :=
  outcomes.filterMap Outcome.publication

/-- The envelopes of frames. -/
def envelopesOf (serde : SerdeJson) (publications : List Publication) :
    List SignalEnvelope :=
  publications.filterMap (written serde)

/-- What a participant has published: frames of valid envelopes of the room
under ascending numbers below the counter. -/
structure Numbered (serde : SerdeJson) (roomId : String) (nextSeq : UInt64)
    (publications : List Publication) : Prop where
  /-- The numbers ascend. -/
  ascending : (envelopesOf serde publications).Pairwise
    fun earlier later => earlier.seq < later.seq
  /-- They are below the counter. -/
  below : ∀ env ∈ envelopesOf serde publications, env.seq < nextSeq
  /-- Every publication is the frame of an envelope. -/
  frames : ∀ publication ∈ publications, ∃ env,
    written serde publication = some env ∧
      IsFrameOf serde env publication ∧ publication.1 = roomTopic roomId ∧
      env.roomId = roomId ∧ env.sender = ""

/-- One more frame, under a number that is not below the counter. -/
theorem Numbered.concat
    {serde : SerdeJson} {roomId : String} {nextSeq later : UInt64}
    {publications : List Publication}
    (numbered : Numbered serde roomId nextSeq publications)
    {publication : Publication} {env : SignalEnvelope}
    (frame : IsFrameOf serde env publication)
    (topic : publication.1 = roomTopic roomId)
    (sameRoom : env.roomId = roomId) (unstamped : env.sender = "")
    (above : nextSeq ≤ env.seq) (counted : env.seq < later) :
    Numbered serde roomId later (publications ++ [publication]) := by
  have isWritten := written_of_isFrameOf frame
  have extended : envelopesOf serde (publications ++ [publication]) =
      envelopesOf serde publications ++ [env] := by
    simp [envelopesOf, isWritten]
  refine { ascending := ?ascending, below := ?below, frames := ?frames }
  case ascending =>
    rw [extended, List.pairwise_append]
    refine ⟨numbered.ascending, List.pairwise_singleton _ _, ?_⟩
    intro earlier member other same
    rw [List.mem_singleton.mp same]
    exact (numbered.below earlier member).trans_le above
  case below =>
    intro other member
    rw [extended, List.mem_append, List.mem_singleton] at member
    rcases member with earlier | rfl
    · exact (numbered.below other earlier).trans (above.trans_lt counted)
    · exact counted
  case frames =>
    intro other member
    rcases List.mem_append.mp member with earlier | new
    · exact numbered.frames other earlier
    · rw [List.mem_singleton] at new
      subst new
      exact ⟨env, isWritten, frame, topic, sameRoom, unstamped⟩

theorem Numbered.mono
    {serde : SerdeJson} {roomId : String} {nextSeq later : UInt64}
    {publications : List Publication}
    (numbered : Numbered serde roomId nextSeq publications)
    (raised : nextSeq ≤ later) :
    Numbered serde roomId later publications where
  ascending := numbered.ascending
  below := fun env member => (numbered.below env member).trans_le raised
  frames := numbered.frames

/-- An operation does not lower the counter. -/
theorem nextSeq_le_of_operation
    (serde : SerdeJson) (client : MeetClient) (input : Input) :
    client.room.nextSeq ≤ (client.step serde input).2.room.nextSeq := by
  rw [(step_performs serde client input).room]
  cases operated : client.operation serde input with
  | none => exact le_rfl
  | some operation =>
      rw [Option.toList_some, Room.after_cons, Room.after_nil]
      exact Room.nextSeq_le_operate client.room operation

/-- Along every run of inputs the publications are numbered. -/
theorem numbered_outcomes
    (serde : SerdeJson) (client : MeetClient) (inputs : List Input) :
    Numbered serde client.room.roomId
      (client.afterInputs serde inputs).room.nextSeq
      (publications (client.outcomes serde inputs)) := by
  induction inputs using List.reverseRecOn with
  | nil =>
      exact
        { ascending := List.Pairwise.nil
          below := by simp [publications, envelopesOf]
          frames := by simp [publications] }
  | append_singleton inputs input inductionHypothesis =>
      have filters := afterInputs_filters serde client inputs
      have raised := nextSeq_le_of_operation serde
        (client.afterInputs serde inputs) input
      rw [outcomes, Transducer.outputs_concat, afterInputs,
        Transducer.final_concat]
      rw [publications, List.filterMap_append]
      cases published : (step serde (Transducer.final (step serde) client
          inputs) input).1.publication with
      | none =>
          simp only [List.filterMap_cons_none published, List.filterMap_nil,
            List.append_nil]
          exact inductionHypothesis.mono raised
      | some publication =>
          obtain ⟨call, now, _, topic, frame, counted⟩ :=
            step_publishes published
          rw [filters.roomId] at topic frame
          simp only [List.filterMap_cons_some published, List.filterMap_nil]
          exact inductionHypothesis.concat frame topic rfl rfl le_rfl counted

/-! ## What a node offers -/

/-- The directed signal of a node that an input offers to its reorder
buffer. -/
def offeredBy (serde : SerdeJson) (client : MeetClient) (node : String) :
    Input → Option SignalEnvelope
  | .arrival sender publication (.ordered now) =>
      if sender = node then client.slot serde sender now publication.2
      else none
  | _ => none

theorem sender_of_slot
    {serde : SerdeJson} {client : MeetClient} {sender : String}
    {now : UInt64} {payload : Bytes} {env : SignalEnvelope}
    (filled : client.slot serde sender now payload = some env) :
    env.sender = sender ∧ ∃ parsed,
      SignalEnvelope.fromBytes serde payload = .ok parsed ∧
        parsed.seq = env.seq := by
  unfold slot at filled
  split at filled
  case h_1 => cases filled
  case h_2 parsed decoded =>
    rw [Option.ite_none_right_eq_some] at filled
    cases filled.2
    exact ⟨rfl, parsed, decoded, rfl⟩

/-- The calls of a node's reorder buffer offer what its inputs offer. -/
theorem offered_callsOf
    (serde : SerdeJson) (client : MeetClient) {node : String}
    (named : node ≠ "") (inputs : List Input) :
    (SignalRouter.callsOf node (inputs.filterMap
        (client.routerCall serde))).filterMap OrderedInbox.Call.offered =
      inputs.filterMap (client.offeredBy serde node) := by
  rw [SignalRouter.callsOf, List.filterMap_filterMap,
    List.filterMap_filterMap]
  refine List.filterMap_congr fun input _ => ?_
  cases input with
  | command command =>
      cases command with
      | call call now => rfl
      | resumeOutboundFrom floor => rfl
      | skipPeerTo peer seq =>
          by_cases same : peer = node <;>
            simp [routerCall, offeredBy, SignalRouter.Call.ofPeer, same,
              OrderedInbox.Call.offered]
  | arrival sender publication reading =>
      cases reading with
      | roster => rfl
      | ordered now =>
          cases filled : client.slot serde sender now publication.2 with
          | none => simp [routerCall, offeredBy, filled]
          | some env =>
              obtain ⟨rfl, _⟩ := sender_of_slot filled
              by_cases same : env.sender = node
              · subst same
                simp [routerCall, offeredBy, SignalRouter.Call.ofPeer, filled,
                  named, OrderedInbox.Call.offered]
              · simp [routerCall, offeredBy, SignalRouter.Call.ofPeer, filled,
                  same]

end MeetClient
end CeMeet
