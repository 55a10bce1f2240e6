import CeMeet.Meeting.Basic
import CeMeet.Order.Backlog
import CeMeet.Room.Testimony

/-!
# The rosters of a meeting

What a client shows of a participant is made of what the participant has
published and of nothing else, whatever the network does and whatever strangers
publish.  Once everything has arrived the participant's last publications are
shown, so that any two clients agree.  The one exception is a participant whose
only assertion of presence has the number zero, which a media signal that
overtakes it defeats.
-/

namespace CeMeet

namespace Room

theorem events_append (peer : String) (done rest : List SignalEnvelope) :
    events peer (done ++ rest) = events peer done ++ events peer rest := by
  rw [events, List.filter_append, List.filterMap_append, ← events, ← events]

/-- A local operation feeds the presence register of a peer with the event of
its envelope. -/
theorem register_operate
    {room : Room} {operation : Operation}
    (isLocal : operation.isLocal = true)
    (slot : ∀ env, operation = .apply env →
      env.roomId = room.roomId → env.sender ≠ "" → room.HasSlot env.sender)
    {peer : String} (named : peer ≠ "") :
    (room.operate operation).2.register peer =
      (events peer (accepted room.roomId [operation])).foldl
        (fun register event => event.apply register) (room.register peer) := by
  cases operation with
  | apply env =>
      change (room.apply env).2.register peer = _
      by_cases ours : env.roomId = room.roomId ∧ env.sender ≠ ""
      · have taken : accepted room.roomId [.apply env] = [env] := by
          simp [accepted, Operation.accepted, ours]
        rw [taken, events_cons]
        by_cases fromPeer : env.sender = peer
        · subst fromPeer
          rw [register_apply ours.1 named (slot env rfl ours.1 named),
            if_pos rfl, List.foldl_append]
          rfl
        · rw [(apply_writes room env).register_of_ne (Ne.symm fromPeer),
            if_neg fromPeer]
          rfl
      · rw [apply_ignored (by tauto)]
        simp [accepted, Operation.accepted, ours, events]
  | nextOutboundSeq =>
      obtain ⟨seq, nextSeq, allocated⟩ := operate_nextOutboundSeq room
      rw [allocated]
      rfl
  | resumeOutboundFrom floor => rfl
  | pruneStale now staleSecs => cases isLocal
  | mergeSnapshot snap => cases isLocal

/-- Along a run without sweeps and merges the presence register of a peer takes
the events of the accepted envelopes. -/
theorem register_after
    {start : Room} {operations : List Operation}
    (isLocal : ∀ operation ∈ operations, operation.isLocal = true)
    (belowCap : StaysBelowCap start operations)
    {peer : String} (named : peer ≠ "") :
    (start.after operations).register peer =
      (events peer (accepted start.roomId operations)).foldl
        (fun register event => event.apply register)
        (start.register peer) := by
  refine Transducer.history_induction
    (motive := fun done _ (room : Room) =>
      room.register peer =
        (events peer (accepted start.roomId done)).foldl
          (fun register event => event.apply register) (start.register peer))
    operations rfl ?_
  intro done operation rest split sameSoFar
  have sameRoom : (start.after done).roomId = start.roomId :=
    after_roomId start done
  have slot : ∀ env, operation = .apply env →
      env.roomId = (start.after done).roomId → env.sender ≠ "" →
      (start.after done).HasSlot env.sender := by
    rintro env rfl ours
    exact belowCap done env rest split (ours.trans sameRoom)
  rw [register_operate (isLocal operation (by simp [split])) slot named,
    sameSoFar, sameRoom, ← List.foldl_append, ← events_append, accepted,
    accepted, accepted, ← List.filterMap_append]

end Room

namespace Meeting

variable {meeting : Meeting}

/-- The operations that a client has performed on its roster. -/
def operations (meeting : Meeting) (node : String) : List Room.Operation :=
  (meeting.inputs node).filterMap
    ((meeting.opening node).operation meeting.serde)

/-- The envelopes that a client's roster has taken notice of. -/
def heardBy (meeting : Meeting) (node : String) : List SignalEnvelope :=
  Room.accepted meeting.roomId (meeting.operations node)

theorem client_room (node : String) :
    (meeting.client node).room =
      (Room.new meeting.roomId node).after (meeting.operations node) := by
  rw [client_eq, MeetClient.afterInputs_room]
  rfl

/-- A client's roster is neither swept nor merged. -/
theorem isLocal_operations (node : String) :
    ∀ operation ∈ meeting.operations node, operation.isLocal = true := by
  intro operation member
  obtain ⟨input, _, operated⟩ := List.mem_filterMap.mp member
  cases input with
  | command command =>
      cases command with
      | call call now | resumeOutboundFrom floor =>
          cases operated
          rfl
      | skipPeerTo peer seq => cases operated
  | arrival sender publication reading =>
      obtain ⟨env, _, rfl⟩ := Option.map_eq_some_iff.mp operated
      rfl

theorem noMerge_operations (node : String) (snap : RoomSnapshot) :
    .mergeSnapshot snap ∉ meeting.operations node := fun member => by
  have isLocal := isLocal_operations node _ member
  cases isLocal

/-! ## What is heard -/

/-- Whatever is heard was decoded from a message that arrived. -/
theorem arrival_of_mem_heardBy
    {node : String} {env : SignalEnvelope}
    (member : env ∈ meeting.heardBy node) :
    env.roomId = meeting.roomId ∧ env.sender ≠ "" ∧
      ∃ publication reading parsed,
        Mesh.Input.arrival env.sender publication reading ∈
          meeting.inputs node ∧
        SignalEnvelope.fromBytes meeting.serde publication.2 = .ok parsed ∧
        env = parsed.withSender env.sender := by
  obtain ⟨applied, sameRoom, authenticated⟩ := Room.mem_accepted_iff.mp member
  refine ⟨sameRoom, authenticated, ?_⟩
  obtain ⟨input, present, operated⟩ := List.mem_filterMap.mp applied
  cases input with
  | command command => cases command <;> cases operated
  | arrival sender publication reading =>
      obtain ⟨other, heard, same⟩ := Option.map_eq_some_iff.mp operated
      cases same
      obtain ⟨parsed, decoded, rfl⟩ := MeetClient.decoded_of_heard heard
      exact ⟨publication, reading, parsed, present, decoded, rfl⟩

/-- Whatever is heard of a participant was published by it. -/
theorem mem_sentBy_of_mem_heardBy
    {node sender : String} {env : SignalEnvelope}
    (participates : sender ∈ meeting.participants)
    (member : env ∈ meeting.heardBy node) (fromSender : env.sender = sender) :
    env ∈ meeting.sentBy sender := by
  subst fromSender
  obtain ⟨_, _, publication, reading, parsed, arrival, decoded, same⟩ :=
    arrival_of_mem_heardBy member
  rw [same]
  exact mem_sentBy_of_decoded (published_of_arrival participates arrival)
    decoded

/-- Everything that a participant has published has arrived at a client and was
small enough to be read, and the client has not met more senders than it
tracks. -/
structure CaughtUp (meeting : Meeting) (node sender : String) : Prop where
  /-- Everything has arrived. -/
  delivered : ∀ publication ∈ meeting.published sender, ∃ reading,
    Mesh.Input.arrival sender publication reading ∈ meeting.inputs node
  /-- Every frame can be read. -/
  small : ∀ publication ∈ meeting.published sender,
    publication.2.length ≤ maxEnvelopeBytes
  /-- There is a slot for everybody. -/
  capacity : (Room.noticed meeting.roomId (meeting.operations node)).card ≤
    defaultMaxMembers

theorem heardBy_of_caughtUp
    {node sender : String} {env : SignalEnvelope}
    (caughtUp : meeting.CaughtUp node sender)
    (another : sender ≠ node) (named : sender ≠ "")
    (member : env ∈ meeting.sentBy sender)
    (forRoom : env.signal.isBroadcast = true) :
    env ∈ meeting.heardBy node := by
  obtain ⟨publication, present, bare, isWritten, rfl⟩ :=
    mem_sentBy_iff.mp member
  obtain ⟨other, otherWritten, frame, topic, sameRoom, _⟩ :=
    (meeting.numbered sender).frames publication present
  cases isWritten.symm.trans otherWritten
  obtain ⟨reading, arrival⟩ := caughtUp.delivered publication present
  have decoded := SignalEnvelope.fromBytes_eq_ok_iff.mpr
    ⟨caughtUp.small publication present,
      meeting.serde.fromSlice_toVec _ _ frame.1, frame.2⟩
  have heard : (meeting.opening node).heard meeting.serde sender publication
      reading = some (bare.withSender sender) := by
    cases reading with
    | roster =>
        have accepted : ¬(publication.1 ≠ roomTopic meeting.roomId ∨
            sender = node) := by
          rw [not_or, not_not]
          exact ⟨topic, another⟩
        rw [MeetClient.heard, decoded]
        exact if_neg accepted
    | ordered now =>
        have broadcasts : bare.signal.isBroadcast = true := forRoom
        rw [MeetClient.heard, decoded]
        simp only [broadcasts]
        exact if_neg (by tauto)
  have operated : (meeting.opening node).operation meeting.serde
      (.arrival sender publication reading) =
        some (.apply (bare.withSender sender)) := by
    rw [MeetClient.operation, heard, Option.map_some]
  exact Room.mem_accepted_iff.mpr
    ⟨List.mem_filterMap.mpr ⟨_, arrival, operated⟩, sameRoom, named⟩

theorem staysBelowCap
    {node : String}
    (capacity : (Room.noticed meeting.roomId (meeting.operations node)).card ≤
      defaultMaxMembers) :
    Room.StaysBelowCap (Room.new meeting.roomId node)
      (meeting.operations node) := by
  refine Room.staysBelowCap_of_noticed (noMerge_operations node) ?_
  refine le_trans ?_ capacity
  simp [Room.new]

theorem register_client
    {node sender : String} (named : sender ≠ "")
    (capacity : (Room.noticed meeting.roomId (meeting.operations node)).card ≤
      defaultMaxMembers) :
    (meeting.client node).room.register sender =
      Register.settle (Room.events sender (meeting.heardBy node)) := by
  rw [client_room,
    Room.register_after (isLocal_operations node) (staysBelowCap capacity) named]
  rfl

/-! ## The last publications -/

/-- The last envelope of a kind in a log. -/
def lastOf (kind : SignalEnvelope → Bool) (log : List SignalEnvelope) :
    Option SignalEnvelope :=
  (log.filter kind).getLast?

theorem greatest_of_lastOf
    {kind : SignalEnvelope → Bool} {log : List SignalEnvelope}
    (ascending : log.Pairwise fun earlier later => earlier.seq < later.seq)
    {env : SignalEnvelope} (last : lastOf kind log = some env) :
    env ∈ log ∧ kind env = true ∧
      ∀ other ∈ log, kind other = true → other = env ∨ other.seq < env.seq := by
  obtain ⟨initial, split⟩ := List.getLast?_eq_some_iff.mp last
  have member : env ∈ log.filter kind := by
    rw [split]
    exact List.mem_append_right _ (List.mem_singleton_self env)
  refine ⟨(List.mem_filter.mp member).1, (List.mem_filter.mp member).2, ?_⟩
  intro other present isKind
  have among := List.mem_filter.mpr ⟨present, isKind⟩
  have ordered := ascending.filter kind
  rw [split] at among ordered
  rcases List.mem_append.mp among with earlier | same
  · exact Or.inr ((List.pairwise_append.mp ordered).2.2 other earlier env
      (List.mem_singleton_self env))
  · exact Or.inl (List.mem_singleton.mp same)

theorem forall_not_of_lastOf
    {kind : SignalEnvelope → Bool} {log : List SignalEnvelope}
    (last : lastOf kind log = none) :
    ∀ env ∈ log, kind env = false := by
  intro env member
  rw [lastOf, List.getLast?_eq_none_iff, List.filter_eq_nil_iff] at last
  exact (Bool.not_eq_true _).mp (last env member)

/-- Whether a signal asserts presence or absence. -/
def assertsPresence (env : SignalEnvelope) : Bool :=
  env.signal.isPresence

/-- Whether a signal sets a media dimension. -/
def setsMedia (dimension : MediaDimension) (env : SignalEnvelope) : Bool :=
  env.signal.mediaUpdate.any fun update => update.dimension = dimension

/-- The media register that a log of publications leaves behind. -/
def mediaOf (dimension : MediaDimension) (log : List SignalEnvelope) :
    MediaRegister :=
  match lastOf (setsMedia dimension) log with
  | none => (0, dimension.initial)
  | some env =>
      (env.seq.saturatingAdd 1,
        env.signal.mediaUpdate.getD dimension.initial)

theorem isBroadcast_of_assertsPresence
    {env : SignalEnvelope} (asserts : assertsPresence env = true) :
    env.signal.isBroadcast = true := by
  unfold assertsPresence at asserts
  cases signal : env.signal <;> rw [signal] at asserts <;>
    first | rfl | cases asserts

theorem isBroadcast_of_setsMedia
    {dimension : MediaDimension} {env : SignalEnvelope}
    (sets : setsMedia dimension env = true) :
    env.signal.isBroadcast = true := by
  unfold setsMedia at sets
  cases signal : env.signal <;> rw [signal] at sets <;>
    first | rfl | cases sets

/-- What has been heard of a participant and asserts presence is what it has
published of that kind; likewise for every kind that is for the whole room. -/
theorem mem_heardBy_iff
    {node sender : String}
    (participates : sender ∈ meeting.participants)
    (caughtUp : meeting.CaughtUp node sender)
    (another : sender ≠ node) (named : sender ≠ "")
    {env : SignalEnvelope} (forRoom : env.signal.isBroadcast = true) :
    (env ∈ meeting.heardBy node ∧ env.sender = sender) ↔
      env ∈ meeting.sentBy sender :=
  ⟨fun heard => mem_sentBy_of_mem_heardBy participates heard.1 heard.2,
    fun sent => ⟨heardBy_of_caughtUp caughtUp another named sent forRoom,
      (facts_of_mem_sentBy sent).2.1⟩⟩

theorem setsMedia_iff {dimension : MediaDimension} {env : SignalEnvelope} :
    setsMedia dimension env = true ↔
      ∃ update, env.signal.mediaUpdate = some update ∧
        update.dimension = dimension := by
  cases carried : env.signal.mediaUpdate <;> simp [setsMedia, carried]

/-- What a caught-up client has heard of a participant in a media dimension is
what the participant has published in it. -/
theorem mem_mediaEntries_iff
    {node sender : String}
    (participates : sender ∈ meeting.participants)
    (caughtUp : meeting.CaughtUp node sender)
    (another : sender ≠ node) (named : sender ≠ "")
    (dimension : MediaDimension) (entry : MediaRegister) :
    entry ∈ (meeting.heardBy node).filterMap
        (SignalEnvelope.mediaEntry sender dimension) ↔
      ∃ env ∈ meeting.sentBy sender, setsMedia dimension env = true ∧
        env.signal.mediaUpdate = some entry.2 ∧ entry.1 = env.seq := by
  rw [List.mem_filterMap]
  constructor
  · rintro ⟨env, heard, isWritten⟩
    obtain ⟨fromSender, carries, sameDimension, seq⟩ :=
      SignalEnvelope.mediaEntry_eq_some_iff.mp isWritten
    exact ⟨env, mem_sentBy_of_mem_heardBy participates heard fromSender,
      setsMedia_iff.mpr ⟨entry.2, carries, sameDimension⟩, carries, seq⟩
  · rintro ⟨env, sent, sets, carries, seq⟩
    obtain ⟨heard, fromSender⟩ :=
      (mem_heardBy_iff participates caughtUp another named
        (isBroadcast_of_setsMedia sets)).mpr sent
    obtain ⟨update, otherCarries, sameDimension⟩ := setsMedia_iff.mp sets
    cases carries.symm.trans otherCarries
    exact ⟨env, heard, SignalEnvelope.mediaEntry_eq_some_iff.mpr
      ⟨fromSender, carries, sameDimension, seq⟩⟩

/-- The stamps that a caught-up client has heard of a participant have the one
of the participant's last presence signal as their maximum. -/
theorem maximum_heard
    {node sender : String}
    (participates : sender ∈ meeting.participants)
    (caughtUp : meeting.CaughtUp node sender)
    (another : sender ≠ node) (named : sender ≠ "")
    {env : SignalEnvelope}
    (last : lastOf assertsPresence (meeting.sentBy sender) = some env) :
    (Register.written (Room.events sender (meeting.heardBy node))).maximum =
      (env.stamp : Register UInt64) := by
  obtain ⟨sent, asserts, greatest⟩ :=
    greatest_of_lastOf (meeting.sentBy_ascending sender) last
  have heard := (mem_heardBy_iff participates caughtUp another named
    (isBroadcast_of_assertsPresence asserts)).mpr sent
  refine List.maximum_eq_coe_iff.mpr ⟨?_, fun stamp member => ?_⟩
  · exact Room.mem_written_events_iff.mpr
      ⟨env, heard.1, heard.2, asserts, rfl⟩
  · obtain ⟨other, otherHeard, fromSender, otherAsserts, rfl⟩ :=
      Room.mem_written_events_iff.mp member
    have otherSent :=
      mem_sentBy_of_mem_heardBy participates otherHeard fromSender
    rcases greatest other otherSent otherAsserts with rfl | earlier
    · exact le_rfl
    · exact Register.stamp_le_stamp_iff.mpr (Or.inl earlier)

theorem register_eq_stamp_iff
    {room : Room} {peer : String} {env : SignalEnvelope} :
    room.register peer = (env.stamp : Register UInt64) ↔
      ∃ m, room.member peer = some m ∧ m.lastSeq = env.seq ∧
        m.present = !env.signal.isLeave := by
  cases found : room.members.lookup peer with
  | none =>
      rw [Room.register_of_unknown found, Room.member, found]
      simp
  | some m =>
      rw [Room.register_of_lookup found, WithBot.coe_inj, Member.stamp,
        SignalEnvelope.stamp, Register.stamp_inj, Room.member, found]
      simp

/-! ## Main results -/

/-- What a participant publishes in a short meeting. -/
def overtakenEnvelopes : List SignalEnvelope :=
  [.broadcast "r" 0 1000 (.join (some "Ann")),
    .broadcast "r" 1 1001 (.media true false),
    .broadcast "r" 2 1002 .keepalive]

/-- A meeting in which everything arrives, the join last, and a stranger repeats
a frame. -/
def overtaken : Meeting where
  serde :=
    .ofTable (overtakenEnvelopes.zip [[0], [1], [2]]) (by decide)
  roomId := "r"
  participants := {"ann", "bob"}
  freshnessSecs := fun _ => 30
  actions :=
    [.command "ann" (.call (.announceJoin (some "Ann")) 1000),
      .command "ann" (.call (.setMedia true false) 1001),
      .command "ann" (.call .keepalive 1002),
      .inject "eve" (roomTopic "r", [1]),
      .deliver "bob" 1 .roster,
      .deliver "bob" 3 (.ordered 1003),
      .deliver "bob" 2 (.ordered 1003),
      .deliver "bob" 0 .roster,
      .deliver "bob" 1 (.ordered 1004)]

theorem overtaken_caughtUp : overtaken.CaughtUp "bob" "ann" := by
  have published : overtaken.published "ann" =
      [(roomTopic "r", [0]), (roomTopic "r", [1]), (roomTopic "r", [2])] := by
    decide
  have inputs : overtaken.inputs "bob" =
      [.arrival "ann" (roomTopic "r", [1]) .roster,
        .arrival "eve" (roomTopic "r", [1]) (.ordered 1003),
        .arrival "ann" (roomTopic "r", [2]) (.ordered 1003),
        .arrival "ann" (roomTopic "r", [0]) .roster,
        .arrival "ann" (roomTopic "r", [1]) (.ordered 1004)] := rfl
  refine { delivered := ?delivered, small := ?small, capacity := by decide }
  case delivered =>
    rw [published, inputs]
    simp only [List.mem_cons, List.not_mem_nil, or_false]
    rintro publication (rfl | rfl | rfl)
    · exact ⟨.roster, by simp⟩
    · exact ⟨.roster, by simp⟩
    · exact ⟨.ordered 1003, by simp⟩
  case small =>
    rw [published]
    decide

/-- In every meeting, every field of every record that a client holds of a
participant comes from an envelope that the participant has published. -/
theorem records_attested
    (meeting : Meeting) (node sender : String)
    (participates : sender ∈ meeting.participants)
    (m : Member)
    (held : (meeting.client node).room.member sender = some m) :
    m.Attested (meeting.sentBy sender) := by
  rw [client_room] at held
  have attests := Room.attests_after meeting.roomId node
    (isLocal_operations node) sender m held
  refine attests.mono fun env member => ?_
  obtain ⟨heard, fromSender⟩ := List.mem_filter.mp member
  exact mem_sentBy_of_mem_heardBy participates heard
    (of_decide_eq_true fromSender)

/-- The record that the short meeting leaves behind. -/
theorem overtaken_record_attested :
    ({ nodeId := "ann"
       displayName := none
       present := true
       lastSeq := 2
       lastSeen := 1002
       audioMuted := true
       mediaSeq := 2 } : Member).Attested (overtaken.sentBy "ann") :=
  records_attested overtaken "bob" "ann" (by decide) _ (by decide)

/-- A client that has caught up with a participant shows the participant's last
presence signal, with its number, exactly if this is not a presence with the
number zero that a media signal of the participant has overtaken. -/
theorem shows_last_presence_iff
    (meeting : Meeting) (node sender : String)
    (participates : sender ∈ meeting.participants)
    (another : sender ≠ node) (named : sender ≠ "")
    (caughtUp : meeting.CaughtUp node sender)
    (env : SignalEnvelope)
    (last : lastOf assertsPresence (meeting.sentBy sender) = some env) :
    (∃ m, (meeting.client node).room.member sender = some m ∧
        m.lastSeq = env.seq ∧ m.present = !env.signal.isLeave) ↔
      (env.seq ≠ 0 ∨ env.signal.isLeave = true ∨
        ¬Room.MediaFirst sender (meeting.heardBy node)) := by
  rw [← register_eq_stamp_iff, register_client named caughtUp.capacity]
  have maximum := maximum_heard participates caughtUp another named last
  by_cases opens : Register.OpensVacant
      (Room.events sender (meeting.heardBy node))
  · have mediaFirst := Room.opensVacant_events_iff.mp opens
    rw [Register.settle_of_opensVacant opens, maximum,
      Register.max_vacant_eq_self_iff WithBot.coe_ne_bot, ne_eq,
      WithBot.coe_inj, Room.stamp_eq_first_iff]
    simp only [mediaFirst, not_true, or_false]
    tauto
  · have inOrder : ¬Room.MediaFirst sender (meeting.heardBy node) :=
      fun mediaFirst => opens (Room.opensVacant_events_iff.mpr mediaFirst)
    rw [Register.settle_of_not_opensVacant opens, maximum]
    simp [inOrder]

/-- The keepalive is shown, although a media signal was the first to arrive. -/
theorem overtaken_shows_keepalive :
    ∃ m, (overtaken.client "bob").room.member "ann" = some m ∧
      m.lastSeq = 2 ∧ m.present = true :=
  (shows_last_presence_iff overtaken "bob" "ann" (by decide) (by decide)
    (by decide) overtaken_caughtUp
    ((SignalEnvelope.broadcast "r" 2 1002 .keepalive).withSender "ann")
    (by decide)).mpr (Or.inl (by decide))

/-- A client that has caught up with a participant holds the participant's last
publication in each of the three media dimensions. -/
theorem shows_last_media
    (meeting : Meeting) (node sender : String)
    (participates : sender ∈ meeting.participants)
    (another : sender ≠ node) (named : sender ≠ "")
    (caughtUp : meeting.CaughtUp node sender)
    (dimension : MediaDimension) :
    (meeting.client node).room.mediaAt sender dimension =
      mediaOf dimension (meeting.sentBy sender) := by
  have settled := Room.mediaAt_after (noMerge_operations node)
    (staysBelowCap caughtUp.capacity) sender dimension
  rw [client_room, settled]
  change LastWrite.writeAll (0, dimension.initial)
    ((meeting.heardBy node).filterMap _) = _
  have entries :=
    mem_mediaEntries_iff participates caughtUp another named dimension
  unfold mediaOf
  cases last : lastOf (setsMedia dimension) (meeting.sentBy sender) with
  | none =>
      have silent := forall_not_of_lastOf last
      have nothing : (meeting.heardBy node).filterMap
          (SignalEnvelope.mediaEntry sender dimension) = [] := by
        refine List.eq_nil_iff_forall_not_mem.mpr fun entry member => ?_
        obtain ⟨env, sent, sets, _⟩ := (entries _).mp member
        rw [silent env sent] at sets
        cases sets
      rw [nothing]
      rfl
  | some env =>
      obtain ⟨sent, sets, greatest⟩ :=
        greatest_of_lastOf (meeting.sentBy_ascending sender) last
      obtain ⟨update, carries, _⟩ := setsMedia_iff.mp sets
      dsimp only
      rw [carries, Option.getD_some]
      have written := (entries (env.seq, update)).mpr
        ⟨env, sent, sets, carries, rfl⟩
      refine LastWrite.writeAll_eq_of_greatest (fun _ => UInt64.zero_le) ?_
        written ?_
      · intro entry member other otherMember sameNumber
        obtain ⟨left, leftSent, _, leftCarries, leftSeq⟩ := (entries _).mp member
        obtain ⟨right, rightSent, _, rightCarries, rightSeq⟩ :=
          (entries _).mp otherMember
        have same : left = right := SignalEnvelope.eq_of_seq_eq
          (meeting.sentBy_ascending sender) leftSent rightSent
          (leftSeq.symm.trans (sameNumber.trans rightSeq))
        rw [same, rightCarries] at leftCarries
        exact Prod.ext sameNumber (Option.some.inj leftCarries).symm
      · intro entry member
        obtain ⟨other, otherSent, otherSets, _, otherSeq⟩ := (entries _).mp member
        rw [otherSeq]
        rcases greatest other otherSent otherSets with rfl | earlier
        · exact le_rfl
        · exact earlier.le

theorem overtaken_shows_mute :
    (overtaken.client "bob").room.mediaAt "ann" .av =
      mediaOf .av (overtaken.sentBy "ann") :=
  shows_last_media overtaken "bob" "ann" (by decide) (by decide) (by decide)
    overtaken_caughtUp .av

end Meeting
end CeMeet
