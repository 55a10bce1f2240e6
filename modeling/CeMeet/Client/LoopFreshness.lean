import CeMeet.Client.Freshness
import CeMeet.Client.Handover
import CeMeet.Client.LoopAgreement

/-!
# Freshness on the receive paths

A client checks the freshness of a directed signal when a payload is ingested,
and neither when the inbox is drained nor when the stream is followed.  So what
is ingested was fresh when it was received, and a loop surfaces every directed
signal of the room that reaches the roster, stale or not.
-/

namespace CeMeet
namespace MeetClient

/-- A call of a receive path.  A message comes with the reading of the clock
when it is received. -/
inductive Reception (Token : Type) where
  /-- The inbox is drained. -/
  | poll (arrivals : List (UInt64 × AppMessage Token))
  /-- The stream is followed. -/
  | eventLoop (arrivals : List (UInt64 × Except String (AppMessage Token)))
  /-- A payload is ingested. -/
  | ingestOrdered (receipt : Receipt)

variable {Token : Type} (serde : SerdeJson)

/-- The client after a call. -/
def Reception.after (client : MeetClient) : Reception Token → MeetClient
  | .poll arrivals => (client.pollAll serde [arrivals.map Prod.snd]).2
  | .eventLoop arrivals => (client.eventLoop serde (arrivals.map Prod.snd)).2
  | .ingestOrdered receipt => (client.ingest serde receipt).2

/-- The client after a run. -/
def afterCalls (client : MeetClient) (calls : List (Reception Token)) :
    MeetClient :=
  calls.foldl (Reception.after serde) client

/-- The payload that a call ingests. -/
def Reception.ingested : Reception Token → Option Receipt
  | .ingestOrdered receipt => some receipt
  | _ => none

/-! ## What is surfaced -/

/-- An envelope was decoded from a payload that arrived while it was fresh. -/
def ReceivedFresh (secs : UInt64) (receipts : List Receipt)
    (env : SignalEnvelope) : Prop :=
  ∃ receipt ∈ receipts, env.isFresh receipt.now secs = true ∧
    ∃ parsed, SignalEnvelope.fromBytes serde receipt.payload = .ok parsed ∧
      env = parsed.withSender receipt.sender

/-- Every directed signal that an item adds to the effects of a loop is fresh
when the item is received. -/
def AddsFresh {α : Type} (secs : UInt64) (effects : List α → List Effect)
    (arrivals : List (UInt64 × α)) : Prop :=
  ∀ done now item rest env, arrivals = done ++ (now, item) :: rest →
    effects (done.map Prod.snd ++ [item]) =
      effects (done.map Prod.snd) ++ [.directed env] →
    env.isFresh now secs = true

/-- Every directed signal that a call surfaces was fresh when it was received,
in this call or, if it was held back, in an earlier one. -/
def Reception.SurfacesFresh (client : MeetClient)
    (earlier : List (Reception Token)) : Reception Token → Prop
  | .poll arrivals =>
      AddsFresh client.freshnessSecs
        (fun messages => (client.pollAll serde [messages]).1) arrivals
  | .eventLoop arrivals =>
      AddsFresh client.freshnessSecs
        (fun items => (client.eventLoop serde items).1) arrivals
  | .ingestOrdered receipt =>
      ∀ env ∈ (client.ingest serde receipt).1,
        ReceivedFresh serde client.freshnessSecs
          (earlier.filterMap ingested ++ [receipt]) env

/-! ## What arrives -/

/-- The directed signal of a room in a frame. -/
def Directs (roomId : String) (frame : String × Bytes) (env : SignalEnvelope) :
    Prop :=
  frame.1 ≠ "" ∧
    ∃ parsed, SignalEnvelope.fromBytes serde frame.2 = .ok parsed ∧
      parsed.roomId = roomId ∧ parsed.signal.isBroadcast = false ∧
      env = parsed.withSender frame.1

/-- An item carries no directed signal to a loop that is stale when the item is
received. -/
def CarriesFresh (roomId me : String) (secs now : UInt64)
    (item : Except String (AppMessage Token)) : Prop :=
  ∀ frame env, frameOf (roomTopic roomId) me item = some frame →
    Directs serde roomId frame env → env.isFresh now secs = true

/-- No stale directed signal reaches the roster through a loop.  The stream is
followed to the first message that ends the room. -/
def Reception.BringsFresh (roomId me : String) (secs : UInt64) :
    Reception Token → Prop
  | .poll arrivals =>
      ∀ done now message rest, arrivals = done ++ (now, message) :: rest →
        CarriesFresh serde roomId me secs now (.ok message)
  | .eventLoop arrivals =>
      ∀ done now item rest, arrivals = done ++ (now, item) :: rest →
        (∀ frame ∈ (done.map Prod.snd).filterMap
            (frameOf (roomTopic roomId) me), ¬EndsFrame serde roomId frame) →
        CarriesFresh serde roomId me secs now item
  | .ingestOrdered _ => True

variable {serde}

theorem Arrival.directs
    {roomId sender : String}
    (arrival : Arrival serde)
    (authenticated : sender ≠ "")
    (sameRoom : arrival.env.roomId = roomId)
    (directed : arrival.env.signal.isBroadcast = false) :
    Directs serde roomId (sender, arrival.payload)
      (arrival.env.withSender sender) :=
  ⟨authenticated, arrival.env, arrival.parses, sameRoom, directed, rfl⟩

/-! ## The loops -/

/-- Applying a frame reports the directed signal of the room in it. -/
theorem applyFrame_directed_iff
    {client : MeetClient} {frame : String × Bytes} {env : SignalEnvelope} :
    (applyFrame serde client frame).1 = some (.directed env) ↔
      Directs serde client.room.roomId frame env := by
  unfold applyFrame Directs
  cases parsed : SignalEnvelope.fromBytes serde frame.2 with
  | error e => simp [applyMessage_error parsed]
  | ok received =>
      rw [(applyMessage_ok parsed).2 (.directed env) nofun,
        Room.apply_effect_directed_iff]
      constructor
      · rintro ⟨sameRoom, authenticated, directed, same⟩
        exact ⟨authenticated, received, rfl, sameRoom, directed, same⟩
      · rintro ⟨authenticated, other, same, sameRoom, directed, stamped⟩
        cases same
        exact ⟨sameRoom, authenticated, directed, stamped⟩

/-- Draining surfaces the directed signals of the room in its messages. -/
theorem pollFrom_adds_iff
    {topic me : String} {client : MeetClient}
    {done : List (AppMessage Token)} {message : AppMessage Token}
    {env : SignalEnvelope} :
    (pollFrom serde topic me client (done ++ [message])).1 =
        (pollFrom serde topic me client done).1 ++ [.directed env] ↔
      ∃ frame, frameOf topic me (.ok message) = some frame ∧
        Directs serde client.room.roomId frame env := by
  have sameRoom :=
    (pollFrom_filters serde topic me client done).roomId
  rw [pollFrom_append]
  dsimp only
  rw [pollFrom_cons, List.append_cancel_left_eq, receive_eq]
  simp only [pollFrom, List.append_nil, ← sameRoom, ← applyFrame_directed_iff]
  cases frameOf topic me (.ok message) with
  | none => simp
  | some frame => simp [Option.toList_eq_singleton_iff]

/-- Following the stream surfaces the directed signals of the room that arrive
before its end. -/
theorem eventLoopFrom_adds_iff
    {topic me : String} {client : MeetClient}
    {done : List (Except String (AppMessage Token))}
    {item : Except String (AppMessage Token)} {env : SignalEnvelope} :
    (eventLoopFrom serde topic me client (done ++ [item])).1 =
        (eventLoopFrom serde topic me client done).1 ++ [.directed env] ↔
      (∀ frame ∈ done.filterMap (frameOf topic me),
          ¬EndsFrame serde client.room.roomId frame) ∧
        ∃ frame, frameOf topic me item = some frame ∧
          Directs serde client.room.roomId frame env := by
  induction done generalizing client with
  | nil =>
      simp only [List.nil_append, List.filterMap_nil, List.not_mem_nil,
        false_imp_iff, implies_true, true_and, ← applyFrame_directed_iff]
      cases received : frameOf topic me item with
      | none => simp [eventLoopFrom_skip received, eventLoopFrom]
      | some frame =>
          by_cases ends : EndsFrame serde client.room.roomId frame
          · obtain ⟨reason, reported⟩ :=
              applyFrame_roomEnded_iff.mpr ⟨ends, rfl⟩
            rw [eventLoopFrom_stop received reported]
            simp [eventLoopFrom, reported]
          · have continues := continues_of_not_ends ends
            rw [eventLoopFrom_continue received continues]
            simp [eventLoopFrom, Option.toList_eq_singleton_iff]
  | cons first done inductionHypothesis =>
      rw [List.cons_append]
      cases received : frameOf topic me first with
      | none =>
          rw [eventLoopFrom_skip received, eventLoopFrom_skip received,
            List.filterMap_cons_none received]
          exact inductionHypothesis
      | some frame =>
          rw [List.filterMap_cons_some received]
          by_cases ends : EndsFrame serde client.room.roomId frame
          · obtain ⟨reason, reported⟩ :=
              applyFrame_roomEnded_iff.mpr ⟨ends, rfl⟩
            rw [eventLoopFrom_stop received reported,
              eventLoopFrom_stop received reported]
            simp [ends]
          · have continues := continues_of_not_ends ends
            rw [eventLoopFrom_continue received continues,
              eventLoopFrom_continue received continues]
            dsimp only
            rw [List.append_assoc, List.append_cancel_left_eq,
              inductionHypothesis, applyFrame_roomId]
            simp [ends]

theorem addsFresh_poll_iff
    {client : MeetClient} {secs : UInt64}
    {arrivals : List (UInt64 × AppMessage Token)} :
    AddsFresh secs (fun messages => (client.pollAll serde [messages]).1)
        arrivals ↔
      (Reception.poll arrivals).BringsFresh serde client.room.roomId
        client.room.me secs := by
  simp only [AddsFresh, Reception.BringsFresh, CarriesFresh,
    pollAll_eq_pollFrom, List.flatten_singleton, pollFrom_adds_iff]
  constructor
  · intro adds done now message rest split frame env received directs
    exact adds done now message rest env split ⟨frame, received, directs⟩
  · rintro brings done now message rest env split ⟨frame, received, directs⟩
    exact brings done now message rest split frame env received directs

theorem addsFresh_eventLoop_iff
    {client : MeetClient} {secs : UInt64}
    {arrivals : List (UInt64 × Except String (AppMessage Token))} :
    AddsFresh secs (fun items => (client.eventLoop serde items).1) arrivals ↔
      (Reception.eventLoop arrivals).BringsFresh serde client.room.roomId
        client.room.me secs := by
  simp only [AddsFresh, Reception.BringsFresh, CarriesFresh, eventLoop,
    eventLoopFrom_adds_iff]
  constructor
  · intro adds done now item rest split goesOn frame env received directs
    exact adds done now item rest env split
      ⟨goesOn, frame, received, directs⟩
  · rintro brings done now item rest env split
      ⟨goesOn, frame, received, directs⟩
    exact brings done now item rest split goesOn frame env received directs

/-! ## Runs -/

/-- Applying a frame leaves the buffers alone. -/
theorem applyMessage_router
    (client : MeetClient) (sender : String) (payload : Bytes) :
    (client.applyMessage serde sender payload).2.router = client.router := by
  cases parsed : SignalEnvelope.fromBytes serde payload with
  | error e => rw [applyMessage_error parsed]
  | ok env => rw [(applyMessage_ok parsed).1]

theorem pollFrom_router
    (topic me : String) (client : MeetClient)
    (messages : List (AppMessage Token)) :
    (pollFrom serde topic me client messages).2.router = client.router := by
  induction messages generalizing client with
  | nil => rfl
  | cons message messages inductionHypothesis =>
      rw [pollFrom_cons]
      dsimp only
      rw [inductionHypothesis, receive_eq]
      cases frameOf topic me (.ok message) with
      | none => rfl
      | some frame => exact applyMessage_router client frame.1 frame.2

variable (serde) in
/-- The stream loop does what draining does on some of its messages. -/
theorem eventLoopFrom_eq_pollFrom
    (topic me : String) (client : MeetClient)
    (items : List (Except String (AppMessage Token))) :
    ∃ messages : List (AppMessage Token),
      eventLoopFrom serde topic me client items =
        pollFrom serde topic me client messages := by
  induction items generalizing client with
  | nil => exact ⟨[], rfl⟩
  | cons item items inductionHypothesis =>
      cases item with
      | error e => exact inductionHypothesis client
      | ok message =>
          obtain ⟨messages, same⟩ := inductionHypothesis
            (receive serde topic me client message).2
          rw [eventLoopFrom_ok]
          dsimp only
          split
          case isTrue => exact ⟨[message], by simp [pollFrom]⟩
          case isFalse => exact ⟨message :: messages, by rw [same]; rfl⟩

/-- What is ingested was fresh when it was received, and so is what is handed
over with it. -/
theorem ingest_receivedFresh
    {client : MeetClient} {receipts : List Receipt}
    (holds : client.router.Holds
      (ReceivedFresh serde client.freshnessSecs receipts))
    (receipt : Receipt) :
    (∀ env ∈ (client.ingest serde receipt).1,
        ReceivedFresh serde client.freshnessSecs
          (receipts ++ [receipt]) env) ∧
      (client.ingest serde receipt).2.router.Holds
        (ReceivedFresh serde client.freshnessSecs (receipts ++ [receipt])) := by
  refine ingest_holds (holds.mono ?_) receipt ?_
  · rintro env ⟨received, member, fresh, parsed⟩
    exact ⟨received, List.mem_append_left _ member, fresh, parsed⟩
  · intro env vetted fresh
    obtain ⟨received, member, _, parsed⟩ := vetted.decoded
    cases List.mem_singleton.mp member
    exact ⟨receipt, by simp, fresh, parsed⟩

/-- A call leaves the filters alone, and what it leaves in the buffers was fresh
when it was received. -/
theorem Reception.after_holds
    {client : MeetClient} {earlier : List (Reception Token)}
    (holds : client.router.Holds (ReceivedFresh serde client.freshnessSecs
      (earlier.filterMap ingested)))
    (call : Reception Token) :
    SameFilters client (call.after serde client) ∧
      (call.after serde client).router.Holds
        (ReceivedFresh serde client.freshnessSecs
          ((earlier ++ [call]).filterMap ingested)) := by
  rw [List.filterMap_append]
  cases call with
  | poll arrivals =>
      simp only [after, pollAll_eq_pollFrom, pollFrom_router, ingested,
        List.filterMap_cons, List.filterMap_nil, List.append_nil]
      exact ⟨pollFrom_filters .., holds⟩
  | eventLoop arrivals =>
      obtain ⟨messages, same⟩ := eventLoopFrom_eq_pollFrom serde
        (roomTopic client.room.roomId) client.room.me client
        (arrivals.map Prod.snd)
      simp only [after, MeetClient.eventLoop, same, pollFrom_router, ingested,
        List.filterMap_cons, List.filterMap_nil, List.append_nil]
      exact ⟨pollFrom_filters .., holds⟩
  | ingestOrdered receipt =>
      exact ⟨(ingest_cases client receipt).1,
        (ingest_receivedFresh holds receipt).2⟩

theorem afterCalls_concat
    (client : MeetClient) (calls : List (Reception Token))
    (call : Reception Token) :
    afterCalls serde client (calls ++ [call]) =
      call.after serde (afterCalls serde client calls) :=
  List.foldl_concat ..

variable (serde) in
/-- After every run, the buffers hold only what was fresh when it was
received. -/
theorem afterCalls_holds
    (client : MeetClient) (empty : client.router = .new)
    (calls : List (Reception Token)) :
    SameFilters client (afterCalls serde client calls) ∧
      (afterCalls serde client calls).router.Holds
        (ReceivedFresh serde client.freshnessSecs
          (calls.filterMap Reception.ingested)) := by
  induction calls using List.reverseRecOn with
  | nil =>
      refine ⟨⟨rfl, rfl, rfl⟩, ?_⟩
      rw [afterCalls, List.foldl_nil, empty]
      exact SignalRouter.Holds.empty defaultWindow
  | append_singleton calls call inductionHypothesis =>
      obtain ⟨same, holds⟩ := inductionHypothesis
      rw [← same.freshnessSecs] at holds ⊢
      obtain ⟨kept, holdsNext⟩ := Reception.after_holds holds call
      rw [afterCalls_concat]
      exact ⟨⟨kept.roomId.trans same.roomId, kept.me.trans same.me,
        kept.freshnessSecs.trans same.freshnessSecs⟩, holdsNext⟩

/-- A call surfaces nothing stale exactly when it brings nothing stale to the
roster through a loop. -/
theorem Reception.surfacesFresh_iff
    {client : MeetClient} {earlier : List (Reception Token)}
    (holds : client.router.Holds (ReceivedFresh serde client.freshnessSecs
      (earlier.filterMap ingested)))
    (call : Reception Token) :
    call.SurfacesFresh serde client earlier ↔
      call.BringsFresh serde client.room.roomId client.room.me
        client.freshnessSecs := by
  cases call with
  | poll arrivals => exact addsFresh_poll_iff
  | eventLoop arrivals => exact addsFresh_eventLoop_iff
  | ingestOrdered receipt =>
      exact iff_of_true (ingest_receivedFresh holds receipt).1 trivial

variable (serde) in
/-- In every run of a client whose buffers are empty at the start, no call of a
receive path surfaces a directed signal that was stale when it was received,
exactly when none reaches the roster through a loop. -/
theorem surfaces_fresh_iff
    (room : Room) (secs : UInt64) (calls : List (Reception Token)) :
    let client : MeetClient := { room, router := .new, freshnessSecs := secs }
    (∀ done call rest, calls = done ++ call :: rest →
        call.SurfacesFresh serde (afterCalls serde client done) done) ↔
      ∀ call ∈ calls, call.BringsFresh serde room.roomId room.me secs := by
  intro client
  have surfaces : ∀ done (call : Reception Token),
      call.SurfacesFresh serde (afterCalls serde client done) done ↔
        call.BringsFresh serde room.roomId room.me secs := by
    intro done call
    obtain ⟨same, holds⟩ :=
      afterCalls_holds serde client rfl done
    rw [← same.freshnessSecs] at holds
    rw [Reception.surfacesFresh_iff holds, same.roomId, same.me,
      same.freshnessSecs]
  simp only [surfaces]
  constructor
  · intro brings call member
    obtain ⟨done, rest, split⟩ := List.append_of_mem member
    exact brings done call rest split
  · rintro brings done call rest rfl
    exact brings call (by simp)

/-- A stale candidate on the topic of the room. -/
def staleMessage : AppMessage Nat :=
  { topic := roomTopic "r"
    sender := "ann"
    payload := .ok (candidateArrival 0 2000).payload
    replyToken := none }

theorem not_carriesFresh_staleMessage :
    ¬CarriesFresh candidateSerde "r" "me" 30 2000 (.ok staleMessage) := by
  intro carries
  have remote : "ann" ≠ "me" := by decide
  have frame : frameOf (roomTopic "r") "me" (.ok staleMessage) =
      some ("ann", (candidateArrival 0 2000).payload) := by
    simp [frameOf, staleMessage, remote, Except.toOption]
  have authenticated : "ann" ≠ "" := by decide
  have fresh := carries _ _ frame
    ((candidateArrival 0 2000).directs authenticated rfl rfl)
  revert fresh
  decide

/-- Both loops surface a stale candidate. -/
theorem loops_surface_stale :
    ¬(Reception.poll [(2000, staleMessage)]).SurfacesFresh candidateSerde
        ((new "r" "me").withFreshness 30) [] ∧
      ¬(Reception.eventLoop [(2000, .ok staleMessage)]).SurfacesFresh
        candidateSerde ((new "r" "me").withFreshness 30) [] := by
  constructor
  · intro surfaces
    exact not_carriesFresh_staleMessage
      (addsFresh_poll_iff.mp surfaces [] 2000 staleMessage [] rfl)
  · intro surfaces
    exact not_carriesFresh_staleMessage
      (addsFresh_eventLoop_iff.mp surfaces [] 2000 (.ok staleMessage) [] rfl
        (by simp))

end MeetClient
end CeMeet
