import CeMeet.Admission
import CeMeet.Client.LoopAgreement
import CeMeet.Client.Refusals
import CeMeet.Meeting.Participant

/-!
# The `join` command

A run of the command asks the host for admission, announces the participant,
watches the room, and announces that the participant leaves.  When it watches by
polling it publishes a keepalive in every round, and leaves after a number of
rounds or is killed; on the push stream it publishes nothing until it leaves.
-/

namespace CeMeet

/-- A short tag of a signal for the log. -/
def Signal.tag : Signal → String
  | .join _ => "join"
  | .leave => "leave"
  | .keepalive => "keepalive"
  | .offer _ => "offer"
  | .answer _ => "answer"
  | .iceCandidate .. => "ice"
  | .iceEnd => "ice_end"
  | .media .. => "media"
  | .screenShare _ => "screenshare"
  | .raiseHand _ => "raisehand"
  | .reaction _ => "reaction"
  | .chat _ => "chat"
  | .recording _ => "recording"
  | .kick _ => "kick"
  | .forceMute _ => "forcemute"
  | .endRoom _ => "endroom"

/-- The line that is printed for an effect. -/
def renderEffect : Effect → String
  | .joined node => s!"+ {node} joined"
  | .left node => s!"- {node} left"
  | .refreshed node => s!". {node} present"
  | .mediaChanged node => s!"~ {node} media changed"
  | .reaction sender emoji => s!"* {sender} reacted {emoji}"
  | .chat sender body => s!"[chat] {sender}: {body}"
  | .recording sender active =>
      let what := if active then "started" else "stopped"
      s!"! {sender} {what} recording"
  | .roomEnded sender reason =>
      let suffix := (reason.map fun reason => s!": {reason}").getD ""
      s!"# room ended by {sender}{suffix}"
  | .directed env =>
      let recipient := env.recipient.getD "?"
      s!"> {env.sender} -> {recipient} ({env.signal.tag})"
  | .noChange => ""

/-- The freshness window of a client of the command. -/
def defaultFreshnessSecs : UInt64 := 30

/-- One round of polling. -/
structure Round (Token : Type) where
  /-- The clock when the keepalive is published. -/
  keepaliveAt : UInt64
  /-- What the inbox holds. -/
  inbox : Except String (List (AppMessage Token))

/-- How a run watches the room, and what it receives. -/
inductive Watch (Token : Type)
  /-- On the push stream, until it ends or is interrupted. -/
  | stream (items : Except String (List (Except String (AppMessage Token))))
      (interrupted : Bool)
  /-- By polling, until it is killed or for a number of rounds unless that is
  zero. -/
  | poll (pollMs cycles : UInt64) (rounds : List (Round Token))

/-- A run of the command: its options, and what its surroundings answer. -/
structure Attendance (Token : Type) where
  /-- The display name. -/
  name : Option String
  /-- The host of a gated room. -/
  host : Option String
  /-- The capability chain of the command line. -/
  caps : Option String
  /-- The variable `CE_MEET_CAPS`. -/
  capsVar : Option String
  /-- The file of the capability chain. -/
  capsFile : Option (String × String)
  /-- The contents of a file. -/
  readToString : String × String → Option String
  /-- The node id, as the node reports it. -/
  status : Except String String
  /-- The reply of a host to a request. -/
  request : String → Bytes → Except String Bytes
  /-- Whether the node subscribes to the topic. -/
  subscribed : Except String Unit
  /-- The clock when the join is announced. -/
  joinAt : UInt64
  /-- Whether the node publishes the join. -/
  joinSent : Except String Unit
  /-- How the run watches the room. -/
  watch : Watch Token
  /-- The clock when the leave is announced. -/
  leaveAt : UInt64

/-- What watching leads to. -/
structure Watched where
  /-- What is handed to the transport. -/
  handed : List Publication
  /-- The lines that are printed. -/
  printed : List Bytes
  /-- The client, unless the process has died. -/
  client : Option MeetClient

/-- What a run leads to. -/
structure JoinRun where
  /-- What is handed to the transport. -/
  handed : List Publication
  /-- The lines that are printed. -/
  printed : List Bytes
  /-- What the command returns, unless the process has died. -/
  result : Option (Except String Unit)

variable {Token : Type}

namespace MeetClient

/-- Watch by polling. -/
def watchPoll (serde : SerdeJson) (cycles : UInt64) :
    Nat → MeetClient → List (Round Token) → Watched
  | _, _, [] => { handed := [], printed := [], client := none }
  | n, client, round :: rounds =>
      match client.keepalive serde round.keepaliveAt with
      | none => { handed := [], printed := [], client := none }
      | some (kept, client) =>
          let (effects, client) := client.poll serde round.inbox
          let handed := kept.toOption.toList
          let printed :=
            (effects.toOption.getD []).map fun effect =>
              asBytes (renderEffect effect)
          if cycles ≠ 0 ∧ cycles.toNat ≤ n + 1 then
            { handed, printed, client := some client }
          else
            let later := watchPoll serde cycles (n + 1) client rounds
            { handed := handed ++ later.handed
              printed := printed ++ later.printed
              client := later.client }

/-- Watch the room. -/
def watch (serde : SerdeJson) (client : MeetClient) :
    Watch Token → Watched
  | .stream items interrupted =>
      let (effects, client) := client.eventLoop serde (items.toOption.getD [])
      let lines := (effects.map renderEffect).filter (· ≠ "")
      { handed := []
        printed := (asBytes "streaming roster (Ctrl-C to leave)..." ::
          lines.map asBytes) ++
            if interrupted then [asBytes "interrupted"] else []
        client := some client }
  | .poll pollMs cycles rounds =>
      let watched := client.watchPoll serde cycles 0 rounds
      { watched with
        printed := asBytes
          s!"watching roster (poll every {pollMs}ms; Ctrl-C to leave)..." ::
            watched.printed }

end MeetClient

namespace Attendance

/-- Ask the host for admission, if there is one. -/
def seekAdmission (parse : Bytes → Except String Json) (room : String)
    (client : MeetClient) (session : Attendance Token) :
    Except String (List Bytes) :=
  match session.host with
  | none => .ok []
  | some host =>
      let chain := resolve session.caps session.capsVar session.capsFile
        session.readToString
      match MeetClient.sendAdmit parse (session.request host)
          (client.requestAdmission chain session.name) with
      | .error _ => .error "request admission from host"
      | .ok resp =>
          if resp.admitted then
            .ok (asBytes s!"admitted to {room}" ::
              if resp.iceServers = [] then []
              else
                [asBytes "ice servers: " ++
                  (Json.array (resp.iceServers.map IceServer.toJson)).render])
          else
            let reason := resp.reason.getD "no reason"
            .error s!"admission denied: {reason}"

/-- What comes before the join is announced: the lines that are printed, and the
client. -/
def enter (parse : Bytes → Except String Json) (room : String)
    (session : Attendance Token) : List Bytes × Except String MeetClient :=
  match session.status with
  | .error _ => ([], .error "query node status")
  | .ok me =>
      let client := (MeetClient.new room me).withFreshness defaultFreshnessSecs
      match session.seekAdmission parse room client with
      | .error e => ([], .error e)
      | .ok printed =>
          match session.subscribed with
          | .error _ => (printed, .error "subscribe to room topic")
          | .ok () => (printed, .ok client)

end Attendance

/-- Run the command. -/
def join (serde : SerdeJson) (parse : Bytes → Except String Json)
    (room : String) (session : Attendance Token) : JoinRun :=
  match session.enter parse room with
  | (printed, .error e) => { handed := [], printed, result := some (.error e) }
  | (printed, .ok client) =>
      match client.announceJoin serde session.name session.joinAt with
      | none => { handed := [], printed, result := none }
      | some (.error _, _) =>
          { handed := [], printed, result := some (.error "announce join") }
      | some (.ok frame, client) =>
          match session.joinSent with
          | .error _ =>
              { handed := [frame], printed
                result := some (.error "announce join") }
          | .ok () =>
              let watched := client.watch serde session.watch
              let handed := frame :: watched.handed
              let printed := printed ++
                asBytes s!"joined {room} as {client.room.me}" ::
                  watched.printed
              match watched.client with
              | none => { handed, printed, result := none }
              | some client =>
                  match client.announceLeave serde session.leaveAt with
                  | none => { handed, printed, result := none }
                  | some (left, _) =>
                      { handed := handed ++ left.toOption.toList
                        printed := printed ++ [asBytes s!"left {room}"]
                        result := some (.ok ()) }

/-! ## What is announced -/

/-- The clocks of the keepalives. -/
def Watch.keepalives : Watch Token → List UInt64
  | .stream .. => []
  | .poll _ cycles rounds =>
      (if cycles = 0 then rounds else rounds.take cycles.toNat).map
        Round.keepaliveAt

/-- The number of rounds before the process is killed. -/
def Watch.rounds : Watch Token → Nat
  | .stream .. => 0
  | .poll _ _ rounds => rounds.length

/-- Whether the run goes on to leave. -/
def Watch.finishes : Watch Token → Bool
  | .stream .. => true
  | .poll _ cycles rounds => cycles ≠ 0 ∧ cycles.toNat ≤ rounds.length

/-- The keepalives at given times, numbered from a first one. -/
def keepalivesFrom (room : String) (first : Nat) (times : List UInt64) :
    List SignalEnvelope :=
  times.mapIdx fun index now =>
    .broadcast room (.ofNat (first + index)) now .keepalive

@[simp] theorem keepalivesFrom_cons (room : String) (first : Nat)
    (now : UInt64) (times : List UInt64) :
    keepalivesFrom room first (now :: times) =
      .broadcast room (.ofNat first) now .keepalive ::
        keepalivesFrom room (first + 1) times := by
  simp [keepalivesFrom, List.mapIdx_cons, Nat.add_comm, Nat.add_left_comm]

namespace Attendance

/-- Whether the join is announced: the node and the host let the participant
enter, and the name is within its bound. -/
def Joins (parse : Bytes → Except String Json) (room : String)
    (session : Attendance Token) : Prop :=
  (∃ client, (session.enter parse room).2 = .ok client) ∧
    (Signal.join session.name).validate = .ok ()

/-- The clocks of the keepalives, if the node has published the join. -/
def keepalives (session : Attendance Token) : List UInt64 :=
  match session.joinSent with
  | .error _ => []
  | .ok () => session.watch.keepalives

/-- Whether the run announces that the participant leaves. -/
def leaves (session : Attendance Token) : Bool :=
  match session.joinSent with
  | .error _ => false
  | .ok () => session.watch.finishes

/-- What a run announces once it joins. -/
def announced (room : String) (session : Attendance Token) :
    List SignalEnvelope :=
  .broadcast room 0 session.joinAt (.join session.name) ::
    (keepalivesFrom room 1 session.keepalives ++
      if session.leaves then
        [.broadcast room (.ofNat (session.keepalives.length + 1))
          session.leaveAt .leave]
      else [])

end Attendance

namespace MeetClient

/-- Whether every envelope can be written. -/
def Total (serde : SerdeJson) : Prop :=
  ∀ env, ∃ bytes, serde.toVec env = .ok bytes

/-- A frame of an envelope, on the topic of its room. -/
def IsSent (serde : SerdeJson) (env : SignalEnvelope)
    (publication : Publication) : Prop :=
  publication.1 = roomTopic env.roomId ∧ IsFrameOf serde env publication

/-- A valid signal is published under the next number. -/
theorem publishNext_of_valid
    {serde : SerdeJson} (total : Total serde) {client : MeetClient}
    (available : client.room.nextSeq ≠ UInt64.maxValue)
    (build : UInt64 → SignalEnvelope)
    (sameRoom : (build client.room.nextSeq).roomId = client.room.roomId)
    (valid : (build client.room.nextSeq).signal.validate = .ok ()) :
    ∃ publication,
      client.publishNext serde build =
        some (.ok publication, client.counted) ∧
      IsSent serde (build client.room.nextSeq) publication := by
  obtain ⟨bytes, toVec⟩ := total (build client.room.nextSeq)
  have allocated := Room.nextOutboundSeq_eq_some_iff.mpr
    ⟨available, rfl, rfl⟩
  have published : client.counted.publish serde (build client.room.nextSeq) =
      .ok (roomTopic client.room.roomId, bytes) :=
    publish_eq_ok_iff.mpr ⟨valid, bytes, toVec, rfl⟩
  refine ⟨(roomTopic client.room.roomId, bytes), ?_, ?_, toVec, valid⟩
  · rw [publishNext, allocated]
    exact congrArg (fun result => some (result, client.counted)) published
  · rw [sameRoom]

/-- A signal that is not valid is refused. -/
theorem publishNext_of_invalid
    {serde : SerdeJson} {client : MeetClient}
    (available : client.room.nextSeq ≠ UInt64.maxValue)
    (build : UInt64 → SignalEnvelope)
    (invalid : (build client.room.nextSeq).signal.validate ≠ .ok ()) :
    ∃ message,
      client.publishNext serde build =
        some (.error message, client.counted) := by
  have allocated := Room.nextOutboundSeq_eq_some_iff.mpr
    ⟨available, rfl, rfl⟩
  cases refused : client.counted.publish serde
      (build client.room.nextSeq) with
  | error message =>
      refine ⟨message, ?_⟩
      rw [publishNext, allocated]
      exact congrArg (fun result => some (result, client.counted)) refused
  | ok publication => exact absurd (publish_eq_ok_iff.mp refused).1 invalid

/-- What a client publishes under does not change. -/
structure SameOutbox (client other : MeetClient) : Prop where
  /-- The room is the same. -/
  roomId : other.room.roomId = client.room.roomId
  /-- The counter is the same. -/
  nextSeq : other.room.nextSeq = client.room.nextSeq

theorem SameOutbox.trans {first second third : MeetClient}
    (left : SameOutbox first second) (right : SameOutbox second third) :
    SameOutbox first third :=
  ⟨right.roomId.trans left.roomId, right.nextSeq.trans left.nextSeq⟩

theorem receive_sameOutbox
    (serde : SerdeJson) (topic me : String) (client : MeetClient)
    (message : AppMessage Token) :
    SameOutbox client (receive serde topic me client message).2 := by
  unfold receive
  split
  case isTrue => exact ⟨rfl, rfl⟩
  case isFalse =>
    cases message.payload with
    | error e => exact ⟨rfl, rfl⟩
    | ok bytes =>
        dsimp only
        cases parsed : SignalEnvelope.fromBytes serde bytes with
        | error e =>
            rw [applyMessage_error parsed]
            exact ⟨rfl, rfl⟩
        | ok env =>
            have writes :=
              client.room.apply_writes (env.withSender message.sender)
            rw [(applyMessage_ok parsed).1]
            exact ⟨writes.roomId, writes.nextSeq⟩

theorem poll_sameOutbox
    (serde : SerdeJson) (client : MeetClient)
    (inbox : Except String (List (AppMessage Token))) :
    SameOutbox client (client.poll serde inbox).2 := by
  cases inbox with
  | error e => exact ⟨rfl, rfl⟩
  | ok messages =>
      change SameOutbox client (pollFrom serde _ _ client messages).2
      generalize roomTopic client.room.roomId = topic
      generalize client.room.me = me
      induction messages generalizing client with
      | nil => exact ⟨rfl, rfl⟩
      | cons message messages inductionHypothesis =>
          exact (receive_sameOutbox serde topic me client message).trans
            (inductionHypothesis _)

theorem eventLoop_sameOutbox
    (serde : SerdeJson) (client : MeetClient)
    (items : List (Except String (AppMessage Token))) :
    SameOutbox client (client.eventLoop serde items).2 := by
  unfold eventLoop
  generalize roomTopic client.room.roomId = topic
  generalize client.room.me = me
  induction items generalizing client with
  | nil => exact ⟨rfl, rfl⟩
  | cons item items inductionHypothesis =>
      cases item with
      | error e => exact inductionHypothesis client
      | ok message =>
          have now := receive_sameOutbox serde topic me client message
          rw [eventLoopFrom_ok]
          dsimp only
          split
          case isTrue => exact now
          case isFalse => exact now.trans (inductionHypothesis _)

theorem counted_nextSeq {client : MeetClient}
    (available : client.room.nextSeq ≠ UInt64.maxValue) :
    client.counted.room.nextSeq.toNat = client.room.nextSeq.toNat + 1 :=
  UInt64.toNat_add_one_of_ne available

/-- What polling for some rounds leads to: a keepalive for each, and a client
that goes on only if the rounds have come to their end. -/
structure Polls (serde : SerdeJson) (client : MeetClient)
    (ran : List (Round Token)) (finished : Prop) (watched : Watched) :
    Prop where
  /-- The keepalives are published. -/
  handed : List.Forall₂ (IsSent serde)
    (keepalivesFrom client.room.roomId client.room.nextSeq.toNat
      (ran.map Round.keepaliveAt)) watched.handed
  /-- Their numbers are taken. -/
  goesOn : finished → ∃ last, watched.client = some last ∧
    last.room.roomId = client.room.roomId ∧
      last.room.nextSeq.toNat = client.room.nextSeq.toNat + ran.length
  /-- Otherwise the process has died. -/
  dies : ¬finished → watched.client = none

/-- One round publishes a keepalive. -/
theorem watchPoll_cons
    {serde : SerdeJson} (total : Total serde) {client : MeetClient}
    (available : client.room.nextSeq ≠ UInt64.maxValue) (cycles : UInt64)
    (n : Nat) (round : Round Token) (rounds : List (Round Token)) :
    ∃ publication printed polled,
      IsSent serde (.broadcast client.room.roomId
          (.ofNat client.room.nextSeq.toNat) round.keepaliveAt .keepalive)
          publication ∧
        polled.room.roomId = client.room.roomId ∧
        polled.room.nextSeq.toNat = client.room.nextSeq.toNat + 1 ∧
        client.watchPoll serde cycles n (round :: rounds) =
          if cycles ≠ 0 ∧ cycles.toNat ≤ n + 1 then
            { handed := [publication], printed, client := some polled }
          else
            let later := watchPoll serde cycles (n + 1) polled rounds
            { handed := publication :: later.handed
              printed := printed ++ later.printed
              client := later.client } := by
  obtain ⟨publication, sent, isSent⟩ := publishNext_of_valid total available
    (fun seq =>
      .broadcast client.room.roomId seq round.keepaliveAt .keepalive) rfl rfl
  have kept : client.keepalive serde round.keepaliveAt =
      some (.ok publication, client.counted) := sent
  have outbox := poll_sameOutbox serde client.counted round.inbox
  let polled := client.counted.poll serde round.inbox
  refine ⟨publication, (polled.1.toOption.getD []).map fun effect =>
    asBytes (renderEffect effect), polled.2, ?_, outbox.roomId, ?_, ?_⟩
  · rw [UInt64.ofNat_toNat]
    exact isSent
  · rw [outbox.nextSeq, counted_nextSeq available]
  · rw [watchPoll, kept]
    rfl

/-- Polling publishes a keepalive in every round. -/
theorem watchPoll_polls
    {serde : SerdeJson} (total : Total serde) {cycles : UInt64} {n : Nat}
    (continues : cycles ≠ 0 → n < cycles.toNat) {client : MeetClient}
    {rounds : List (Round Token)}
    (short : client.room.nextSeq.toNat + rounds.length <
      UInt64.maxValue.toNat) :
    Polls serde client
      (if cycles = 0 then rounds else rounds.take (cycles.toNat - n))
      (cycles ≠ 0 ∧ cycles.toNat - n ≤ rounds.length)
      (client.watchPoll serde cycles n rounds) := by
  induction rounds generalizing n client with
  | nil =>
      rw [List.take_nil, ite_self]
      refine ⟨.nil, fun finished => ?_, fun _ => rfl⟩
      have inside := continues finished.1
      have few : cycles.toNat - n ≤ 0 := finished.2
      omega
  | cons round rounds inductionHypothesis =>
      rw [List.length_cons] at short
      have available : client.room.nextSeq ≠ UInt64.maxValue := by
        intro atTop
        rw [atTop] at short
        omega
      obtain ⟨publication, printed, polled, isSent, sameRoom, next, watched⟩ :=
        watchPoll_cons total available cycles n round rounds
      have later (further : cycles ≠ 0 → n + 1 < cycles.toNat) :=
        inductionHypothesis further
          (show polled.room.nextSeq.toNat + rounds.length < _ by omega)
      rw [watched]
      by_cases stops : cycles ≠ 0 ∧ cycles.toNat ≤ n + 1
      · have inside := continues stops.1
        obtain last : cycles.toNat - n = 0 + 1 := by omega
        rw [if_pos stops, if_neg stops.1, last, List.take_succ_cons,
          List.take_zero]
        refine ⟨?_, fun _ => ⟨polled, rfl, sameRoom, next⟩, fun unfinished => ?_⟩
        · exact .cons isSent .nil
        · exact absurd ⟨stops.1, by simp⟩ unfinished
      · rw [if_neg stops]
        have further : cycles ≠ 0 → n + 1 < cycles.toNat := fun bounded =>
          not_le.mp fun few => stops ⟨bounded, few⟩
        obtain ⟨handed, goesOn, dies⟩ := later further
        have ran : (if cycles = 0 then round :: rounds
            else (round :: rounds).take (cycles.toNat - n)) =
              round :: if cycles = 0 then rounds
                else rounds.take (cycles.toNat - (n + 1)) := by
          split
          case isTrue => rfl
          case isFalse bounded =>
            have inside := further bounded
            obtain ⟨left, more⟩ : ∃ left, cycles.toNat - n = left + 1 :=
              ⟨cycles.toNat - n - 1, by omega⟩
            rw [more, List.take_succ_cons,
              show cycles.toNat - (n + 1) = left by omega]
        have same : (cycles ≠ 0 ∧ cycles.toNat - n ≤ rounds.length + 1) ↔
            cycles ≠ 0 ∧ cycles.toNat - (n + 1) ≤ rounds.length :=
          and_congr_right fun _ => by omega
        rw [ran, List.length_cons]
        refine ⟨?_, fun finished => ?_, fun unfinished => ?_⟩
        · rw [sameRoom, next] at handed
          rw [List.map_cons, keepalivesFrom_cons]
          exact .cons isSent handed
        · obtain ⟨last, found, room, taken⟩ := goesOn (same.mp finished)
          refine ⟨last, found, room.trans sameRoom, ?_⟩
          rw [taken, next, List.length_cons]
          omega
        · exact dies fun finished => unfinished (same.mpr finished)

/-- The counter has numbers left for a list of keepalives and a leave. -/
theorem watch_announces
    {serde : SerdeJson} (total : Total serde) {client : MeetClient}
    {watch : Watch Token}
    (short : client.room.nextSeq.toNat + watch.rounds < UInt64.maxValue.toNat) :
    let watched := client.watch serde watch
    List.Forall₂ (IsSent serde)
        (keepalivesFrom client.room.roomId client.room.nextSeq.toNat
          watch.keepalives) watched.handed ∧
      (watch.finishes = true → ∃ last, watched.client = some last ∧
        last.room.roomId = client.room.roomId ∧
        last.room.nextSeq.toNat =
          client.room.nextSeq.toNat + watch.keepalives.length) ∧
      (watch.finishes = false → watched.client = none) := by
  cases watch with
  | stream items interrupted =>
      have outbox :=
        eventLoop_sameOutbox serde client (items.toOption.getD [])
      refine ⟨.nil, fun _ => ⟨_, rfl, outbox.roomId, ?_⟩, fun dies => ?_⟩
      · exact congrArg UInt64.toNat outbox.nextSeq
      · cases dies
  | poll pollMs cycles rounds =>
      have started : cycles ≠ 0 → 0 < cycles.toNat := fun bounded =>
        Nat.pos_of_ne_zero fun zero => bounded (UInt64.toNat_inj.mp zero)
      obtain ⟨handed, goesOn, dies⟩ := watchPoll_polls total started short
      rw [Nat.sub_zero] at handed goesOn dies
      refine ⟨handed, fun finishes => ?_, fun unfinished => ?_⟩
      · obtain ⟨last, found, sameRoom, taken⟩ :=
          goesOn (of_decide_eq_true finishes)
        refine ⟨last, found, sameRoom, ?_⟩
        rw [taken, Watch.keepalives, List.length_map]
      · exact dies (of_decide_eq_false unfinished)

end MeetClient

theorem Watch.length_keepalives_le (watch : Watch Token) :
    watch.keepalives.length ≤ watch.rounds := by
  cases watch with
  | stream items interrupted => exact Nat.le_refl 0
  | poll pollMs cycles rounds =>
      rw [keepalives, List.length_map]
      split
      case isTrue => exact Nat.le_refl _
      case isFalse => exact List.length_take_le' cycles.toNat rounds

/-- A client that has entered is new. -/
theorem Attendance.enter_eq_ok
    {parse : Bytes → Except String Json} {room : String}
    {session : Attendance Token} {client : MeetClient}
    (entered : (session.enter parse room).2 = .ok client) :
    client.room.roomId = room ∧ client.room.nextSeq = 0 ∧
      session.status = .ok client.room.me := by
  unfold enter at entered
  split at entered
  case h_1 => cases entered
  case h_2 me reported =>
    dsimp only at entered
    split at entered
    case h_1 => cases entered
    case h_2 =>
      split at entered
      case h_1 => cases entered
      case h_2 =>
        cases entered
        exact ⟨rfl, rfl, reported⟩

/-- What a run does once it has entered. -/
theorem join_of_enter
    (serde : SerdeJson) {parse : Bytes → Except String Json} {room : String}
    {session : Attendance Token} {client : MeetClient}
    (entered : (session.enter parse room).2 = .ok client) :
    (join serde parse room session).handed =
      match client.announceJoin serde session.name session.joinAt with
      | some (.ok frame, client) =>
          frame ::
            match session.joinSent with
            | .error _ => []
            | .ok () =>
                let watched := client.watch serde session.watch
                watched.handed ++
                  match watched.client with
                  | none => []
                  | some client =>
                      match client.announceLeave serde session.leaveAt with
                      | none => []
                      | some (left, _) => left.toOption.toList
      | _ => [] := by
  unfold join
  generalize session.enter parse room = before at entered ⊢
  obtain ⟨printed, result⟩ := before
  cases entered
  dsimp only
  cases client.announceJoin serde session.name session.joinAt with
  | none => rfl
  | some joined =>
      obtain ⟨_ | frame, client⟩ := joined
      · rfl
      · cases session.joinSent with
        | error e => rfl
        | ok sent =>
            dsimp only
            cases (client.watch serde session.watch).client with
            | none => simp
            | some last =>
                dsimp only
                cases last.announceLeave serde session.leaveAt <;> simp

/-- A run that does not join publishes nothing. -/
theorem handed_of_not_joins
    (serde : SerdeJson) {parse : Bytes → Except String Json} {room : String}
    {session : Attendance Token} (absent : ¬session.Joins parse room) :
    (join serde parse room session).handed = [] := by
  cases entered : (session.enter parse room).2 with
  | error e =>
      unfold join
      generalize session.enter parse room = before at entered ⊢
      obtain ⟨printed, result⟩ := before
      cases entered
      rfl
  | ok client =>
      obtain ⟨rfl, fresh, _⟩ := Attendance.enter_eq_ok entered
      have available : client.room.nextSeq ≠ UInt64.maxValue := by
        rw [fresh]
        decide
      have invalid : (Signal.join session.name).validate ≠ .ok () :=
        fun valid => absent ⟨⟨client, entered⟩, valid⟩
      obtain ⟨message, refused⟩ : ∃ message,
          client.announceJoin serde session.name session.joinAt =
            some (.error message, client.counted) :=
        MeetClient.publishNext_of_invalid available _ invalid
      rw [join_of_enter serde entered, refused]

/-- A run that joins publishes its announcements. -/
theorem handed_of_joins
    {serde : SerdeJson} (total : MeetClient.Total serde)
    {parse : Bytes → Except String Json} {room : String}
    {session : Attendance Token}
    (short : session.watch.rounds + 1 < UInt64.maxValue.toNat)
    (joins : session.Joins parse room) :
    List.Forall₂ (MeetClient.IsSent serde) (session.announced room)
      (join serde parse room session).handed := by
  obtain ⟨⟨client, entered⟩, valid⟩ := joins
  obtain ⟨rfl, fresh, _⟩ := Attendance.enter_eq_ok entered
  have available : client.room.nextSeq ≠ UInt64.maxValue := by
    rw [fresh]
    decide
  obtain ⟨frame, sent, isSent⟩ :=
    MeetClient.publishNext_of_valid total available
      (fun seq => .broadcast client.room.roomId seq session.joinAt
        (.join session.name)) rfl valid
  have joining : client.announceJoin serde session.name session.joinAt =
      some (.ok frame, client.counted) := sent
  rw [fresh] at isSent
  rw [join_of_enter serde entered, joining]
  refine .cons isSent ?_
  rw [Attendance.keepalives, Attendance.leaves]
  cases session.joinSent with
  | error e => exact .nil
  | ok published =>
      have numbered : client.counted.room.nextSeq.toNat = 1 := by
        rw [MeetClient.counted_nextSeq available, fresh]
        rfl
      obtain ⟨kept, goesOn, dies⟩ := MeetClient.watch_announces total
        (show client.counted.room.nextSeq.toNat +
          session.watch.rounds < _ by omega)
      rw [numbered] at kept goesOn
      dsimp only
      cases ended : session.watch.finishes with
      | false =>
          rw [dies ended, if_neg Bool.false_ne_true, List.append_nil,
            List.append_nil]
          exact kept
      | true =>
          obtain ⟨last, found, sameRoom, taken⟩ := goesOn ended
          have few := session.watch.length_keepalives_le
          have more : last.room.nextSeq ≠ UInt64.maxValue := by
            intro atTop
            rw [atTop] at taken
            omega
          obtain ⟨left, leaves, isLeave⟩ :=
            MeetClient.publishNext_of_valid total more
              (fun seq => .broadcast last.room.roomId seq session.leaveAt
                .leave) rfl rfl
          have leaving : last.announceLeave serde session.leaveAt =
              some (.ok left, last.counted) := leaves
          have number : last.room.nextSeq =
              .ofNat (session.watch.keepalives.length + 1) := by
            rw [Nat.add_comm, ← taken, UInt64.ofNat_toNat]
          rw [sameRoom, number] at isLeave
          rw [found, if_pos rfl]
          dsimp only
          rw [leaving]
          exact List.rel_append kept (.cons isLeave .nil)

/-- A run hands to the transport, on the topic of the room, a join under number
zero, then a keepalive for every round that it polls under the numbers from one
on, and a leave under the next number if it comes to its end.  It publishes
nothing if the node or the host does not let the participant enter or the name
is too long. -/
theorem join_announces
    (serde : SerdeJson) (total : MeetClient.Total serde)
    (parse : Bytes → Except String Json) (room : String)
    (session : Attendance Token)
    (short : session.watch.rounds + 1 < UInt64.maxValue.toNat) :
    (session.Joins parse room →
        List.Forall₂ (MeetClient.IsSent serde) (session.announced room)
          (join serde parse room session).handed) ∧
      (¬session.Joins parse room →
        (join serde parse room session).handed = []) :=
  ⟨handed_of_joins total short, handed_of_not_joins serde⟩

theorem MeetClient.total_compact : Total .compact :=
  fun env => ⟨env.toJson.render, rfl⟩

/-- A run that polls for so many rounds. -/
def annAttends (cycles : UInt64) (rounds : List (Round Nat)) :
    Attendance Nat where
  name := some "Ann"
  host := none
  caps := none
  capsVar := none
  capsFile := none
  readToString _ := none
  status := .ok "ann"
  request _ _ := .error "unreachable"
  subscribed := .ok ()
  joinAt := 1000
  joinSent := .ok ()
  watch := .poll 1000 cycles rounds
  leaveAt := 1010

/-- The node does not answer one of two polls. -/
theorem join_announces_two_rounds :
    let session := annAttends 2
      [⟨1001, .error "busy"⟩, ⟨1002, .ok []⟩, ⟨1003, .ok []⟩]
    List.Forall₂ (MeetClient.IsSent .compact) (session.announced "r")
      (join .compact Json.read "r" session).handed :=
  (join_announces .compact MeetClient.total_compact Json.read "r" _
    (by decide)).1 ⟨⟨_, rfl⟩, rfl⟩

end CeMeet
