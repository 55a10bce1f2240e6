import CeMeet.Join
import CeMeet.Room.ChangeLog
import CeMeet.Room.Convergence

/-!
# Participants that come and go

Every run of the `join` command starts to count at zero.  So what the others see
of a participant depends on how long each of its visits was: one that is over
hides a later one until the later one has sent more, and one that was cut off
without a leave may outlast the leave of a later one.
-/

namespace CeMeet

variable {Token : Type}

/-- What the others hear of a run of a node. -/
def Attendance.heard (serde : SerdeJson) (parse : Bytes → Except String Json)
    (room node : String) (session : Attendance Token) : List SignalEnvelope :=
  (join serde parse room session).handed.filterMap fun publication =>
    (SignalEnvelope.fromBytes serde publication.2).toOption.map fun env =>
      env.withSender node

/-- The frames of what a run announces are not too large. -/
def Attendance.Fits (serde : SerdeJson) (room : String)
    (session : Attendance Token) : Prop :=
  ∀ env ∈ session.announced room, ∀ bytes, serde.toVec env = .ok bytes →
    bytes.length ≤ maxEnvelopeBytes

/-- Frames that are not too large are heard. -/
theorem filterMap_fromBytes_of_sent
    {serde : SerdeJson} {envs : List SignalEnvelope}
    {publications : List Publication}
    (sent : List.Forall₂ (MeetClient.IsSent serde) envs publications)
    (fits : ∀ env ∈ envs, ∀ bytes, serde.toVec env = .ok bytes →
      bytes.length ≤ maxEnvelopeBytes)
    (node : String) :
    (publications.filterMap fun publication =>
      (SignalEnvelope.fromBytes serde publication.2).toOption.map fun env =>
        env.withSender node) = envs.map fun env => env.withSender node := by
  induction sent with
  | nil => rfl
  | @cons env publication envs publications isSent _ inductionHypothesis =>
      rw [List.forall_mem_cons] at fits
      obtain ⟨_, toVec, valid⟩ := isSent
      have reads : SignalEnvelope.fromBytes serde publication.2 = .ok env :=
        (MeetClient.fromBytes_of_toVec toVec).mpr
          ⟨fits.1 _ toVec, valid⟩
      rw [List.filterMap_cons, reads, inductionHypothesis fits.2]
      rfl

/-- What is heard of a run is what it announces, if it joins. -/
theorem Attendance.heard_eq
    {serde : SerdeJson} (total : MeetClient.Total serde)
    {parse : Bytes → Except String Json} {room : String} (node : String)
    {session : Attendance Token}
    (short : session.watch.rounds + 1 < UInt64.maxValue.toNat)
    (fits : session.Fits serde room) (joins : session.Joins parse room) :
    session.heard serde parse room node =
      (session.announced room).map fun env => env.withSender node :=
  filterMap_fromBytes_of_sent (handed_of_joins total short joins) fits node

theorem Attendance.heard_of_not_joins
    (serde : SerdeJson) {parse : Bytes → Except String Json} {room : String}
    (node : String) {session : Attendance Token}
    (absent : ¬session.Joins parse room) :
    session.heard serde parse room node = [] := by
  rw [heard, handed_of_not_joins serde absent, List.filterMap_nil]

/-! ## The stamps of a run -/

theorem mem_keepalivesFrom_iff {room : String} {first : Nat}
    {times : List UInt64} {env : SignalEnvelope} :
    env ∈ keepalivesFrom room first times ↔
      ∃ index, ∃ inside : index < times.length,
        .broadcast room (.ofNat (first + index)) times[index] .keepalive =
          env := by
  simp only [keepalivesFrom, List.mem_mapIdx]

/-- A run asserts presence under every number from zero to the number of its
keepalives. -/
theorem Attendance.exists_present_iff
    {room : String} {session : Attendance Token} {number : UInt64} :
    (∃ env ∈ session.announced room, env.stamp = Register.stamp number true) ↔
      ∃ count ≤ session.keepalives.length, number = .ofNat count := by
  constructor
  · rintro ⟨env, member, same⟩
    obtain ⟨rfl, present⟩ := Register.stamp_inj.mp same
    rw [announced, List.mem_cons, List.mem_append] at member
    rcases member with rfl | kept | left
    · exact ⟨0, Nat.zero_le _, rfl⟩
    · obtain ⟨index, inside, rfl⟩ := mem_keepalivesFrom_iff.mp kept
      exact ⟨1 + index, by omega, rfl⟩
    · split at left
      case isFalse => cases left
      case isTrue =>
        rw [List.mem_singleton.mp left] at present
        cases present
  · rintro ⟨count, within, rfl⟩
    cases count with
    | zero => exact ⟨_, List.mem_cons_self, rfl⟩
    | succ index =>
        refine ⟨_, List.mem_cons_of_mem _ (List.mem_append_left _
          (mem_keepalivesFrom_iff.mpr ⟨index, within, rfl⟩)), ?_⟩
        rw [Nat.add_comm]
        rfl

/-- It asserts absence under the number after that, if it comes to its end. -/
theorem Attendance.exists_removed_iff
    {room : String} {session : Attendance Token} {number : UInt64} :
    (∃ env ∈ session.announced room, env.stamp = Register.stamp number false) ↔
      session.leaves = true ∧
        number = .ofNat (session.keepalives.length + 1) := by
  constructor
  · rintro ⟨env, member, same⟩
    obtain ⟨rfl, absent⟩ := Register.stamp_inj.mp same
    rw [announced, List.mem_cons, List.mem_append] at member
    rcases member with rfl | kept | left
    · cases absent
    · obtain ⟨index, inside, rfl⟩ := mem_keepalivesFrom_iff.mp kept
      cases absent
    · split at left
      case isFalse => cases left
      case isTrue ends =>
        rw [List.mem_singleton.mp left]
        exact ⟨ends, rfl⟩
  · rintro ⟨ends, rfl⟩
    refine ⟨.broadcast room _ session.leaveAt .leave,
      List.mem_cons_of_mem _ (List.mem_append_right _ ?_), rfl⟩
    rw [if_pos ends]
    exact List.mem_singleton_self _

theorem Attendance.isPresence_of_announced
    {room : String} {session : Attendance Token} {env : SignalEnvelope}
    (member : env ∈ session.announced room) :
    env.signal.isPresence = true := by
  rw [announced, List.mem_cons, List.mem_append] at member
  rcases member with rfl | kept | left
  · rfl
  · obtain ⟨index, inside, rfl⟩ := mem_keepalivesFrom_iff.mp kept
    rfl
  · split at left
    case isFalse => cases left
    case isTrue =>
      rw [List.mem_singleton.mp left]
      rfl

theorem Attendance.length_keepalives_lt (session : Attendance Token)
    (short : session.watch.rounds + 1 < UInt64.maxValue.toNat) :
    session.keepalives.length + 1 < UInt64.size := by
  have few := session.watch.length_keepalives_le
  have top : UInt64.maxValue.toNat < UInt64.size := UInt64.toNat_lt_size _
  unfold keepalives
  cases session.joinSent with
  | error e =>
      dsimp only [List.length_nil]
      omega
  | ok published =>
      dsimp only
      omega

/-! ## What the others see -/

theorem Room.mem_present_iff {room : Room} {peer : String} :
    peer ∈ room.present ↔
      ∃ number, room.register peer =
        ((Register.stamp number true : Stamp UInt64) : Register UInt64) := by
  rw [Room.present_eq_sort_presentSet, Finset.mem_sort, Room.mem_presentSet,
    ← Room.isPresentAt_register]
  cases room.register peer with
  | none => exact iff_of_false Bool.false_ne_true fun ⟨_, held⟩ => by cases held
  | some held =>
      constructor
      · intro present
        have remains : (ofLex held).2 = false := by
          simpa [Room.isPresentAt] using present
        exact ⟨(ofLex held).1, congrArg some (Prod.ext rfl remains)⟩
      · rintro ⟨number, same⟩
        cases same
        rfl

/-- Someone who has received everything that a node has published in its runs of
the command. -/
structure Attended (serde : SerdeJson) (parse : Bytes → Except String Json)
    (roomId node : String) (sessions : List (Attendance Token))
    (envs : List SignalEnvelope) : Prop where
  /-- Everything is of the room. -/
  sameRoom : ∀ env ∈ envs, env.roomId = roomId
  /-- What is received from the node is what is heard of its runs. -/
  complete : ∀ env, env.sender = node →
    (env ∈ envs ↔ ∃ session ∈ sessions,
      env ∈ session.heard serde parse roomId node)

/-- What is received from the node are the announcements of the runs that
join. -/
theorem Attended.mem_iff
    {serde : SerdeJson} (total : MeetClient.Total serde)
    {parse : Bytes → Except String Json} {roomId node : String}
    {sessions : List (Attendance Token)} {envs : List SignalEnvelope}
    (attended : Attended serde parse roomId node sessions envs)
    (short : ∀ session ∈ sessions,
      session.watch.rounds + 1 < UInt64.maxValue.toNat)
    (fits : ∀ session ∈ sessions, session.Fits serde roomId)
    {env : SignalEnvelope} (fromNode : env.sender = node) :
    env ∈ envs ↔ ∃ session ∈ sessions, session.Joins parse roomId ∧
      ∃ bare ∈ session.announced roomId, bare.withSender node = env := by
  rw [attended.complete env fromNode]
  refine exists_congr fun session => and_congr_right fun member => ?_
  by_cases joins : session.Joins parse roomId
  · rw [Attendance.heard_eq total node (short session member)
      (fits session member) joins, and_iff_right joins, List.mem_map]
  · rw [Attendance.heard_of_not_joins serde node joins]
    exact iff_of_false List.not_mem_nil fun both => joins both.1

/-- The stamps that the runs write. -/
theorem Attended.mem_written_iff
    {serde : SerdeJson} (total : MeetClient.Total serde)
    {parse : Bytes → Except String Json} {roomId node : String}
    {sessions : List (Attendance Token)} {envs : List SignalEnvelope}
    (attended : Attended serde parse roomId node sessions envs)
    (short : ∀ session ∈ sessions,
      session.watch.rounds + 1 < UInt64.maxValue.toNat)
    (fits : ∀ session ∈ sessions, session.Fits serde roomId)
    {stamp : Stamp UInt64} :
    stamp ∈ Register.written (Room.events node envs) ↔
      ∃ session ∈ sessions, session.Joins parse roomId ∧
        ∃ env ∈ session.announced roomId, env.stamp = stamp := by
  rw [Room.mem_written_events_iff]
  constructor
  · rintro ⟨env, member, fromNode, _, rfl⟩
    obtain ⟨session, own, joins, bare, announces, rfl⟩ :=
      (attended.mem_iff total short fits fromNode).mp member
    exact ⟨session, own, joins, bare, announces, rfl⟩
  · rintro ⟨session, own, joins, bare, announces, rfl⟩
    have presence := Attendance.isPresence_of_announced announces
    exact ⟨bare.withSender node,
      (attended.mem_iff total short fits rfl).mpr
        ⟨session, own, joins, bare, announces, rfl⟩, rfl, presence, rfl⟩

/-- Someone who has received everything that a node has published in any number
of runs of the command, in any order and any number of times, and anything of
other nodes, sees the node exactly if some run has sent more keepalives than
every run that came to its end has sent keepalives and its leave. -/
theorem shows_attendance_iff
    (serde : SerdeJson) (total : MeetClient.Total serde)
    (parse : Bytes → Except String Json) (roomId watcher : String) (cap : Nat)
    (node : String) (named : node ≠ "")
    (sessions : List (Attendance Token))
    (short : ∀ session ∈ sessions,
      session.watch.rounds + 1 < UInt64.maxValue.toNat)
    (fits : ∀ session ∈ sessions, session.Fits serde roomId)
    (envs : List SignalEnvelope)
    (attended : Attended serde parse roomId node sessions envs)
    (capacity : (envs.map SignalEnvelope.sender).toFinset.card ≤ cap) :
    node ∈ (((Room.new roomId watcher).withMaxMembers cap).applyAll
        envs).present ↔
      ∃ session ∈ sessions, session.Joins parse roomId ∧
        ∀ other ∈ sessions, other.Joins parse roomId → other.leaves = true →
          other.keepalives.length + 1 < session.keepalives.length := by
  have opens : ¬Register.OpensVacant (Room.events node envs) := by
    intro vacant
    obtain ⟨env, member, fromNode, event⟩ := Room.mem_events_iff.mp
      (List.mem_of_mem_head? (Option.mem_def.mpr vacant))
    obtain ⟨session, own, joins, bare, announces, rfl⟩ :=
      (attended.mem_iff total short fits fromNode).mp member
    have presence := Attendance.isPresence_of_announced announces
    rw [SignalEnvelope.event, if_pos (show (bare.withSender
      node).signal.isPresence = true from presence)] at event
    cases event
  rw [Room.mem_present_iff,
    Room.register_new_applyAll attended.sameRoom capacity named,
    Register.settle_of_not_opensVacant opens,
    Register.exists_maximum_eq_present_iff]
  simp only [attended.mem_written_iff total short fits]
  constructor
  · rintro ⟨number, ⟨session, own, joins, present⟩, newer⟩
    obtain ⟨count, within, rfl⟩ := Attendance.exists_present_iff.mp present
    refine ⟨session, own, joins, fun other member otherJoins leaves => ?_⟩
    have older := newer _ ⟨other, member, otherJoins,
      Attendance.exists_removed_iff.mpr ⟨leaves, rfl⟩⟩
    have otherFew := other.length_keepalives_lt (short other member)
    have few := session.length_keepalives_lt (short session own)
    rw [UInt64.lt_iff_toNat_lt, UInt64.toNat_ofNat_of_lt' otherFew,
      UInt64.toNat_ofNat_of_lt' (by omega)] at older
    omega
  · rintro ⟨session, own, joins, longest⟩
    refine ⟨.ofNat session.keepalives.length, ⟨session, own, joins,
      Attendance.exists_present_iff.mpr ⟨_, le_rfl, rfl⟩⟩, ?_⟩
    rintro removed ⟨other, member, otherJoins, left⟩
    obtain ⟨leaves, rfl⟩ := Attendance.exists_removed_iff.mp left
    have otherFew := other.length_keepalives_lt (short other member)
    have few := session.length_keepalives_lt (short session own)
    rw [UInt64.lt_iff_toNat_lt, UInt64.toNat_ofNat_of_lt' otherFew,
      UInt64.toNat_ofNat_of_lt' (by omega)]
    exact longest other member otherJoins leaves

/-! ## A participant that comes back -/

theorem Attendance.of_mem_heard
    {serde : SerdeJson} (total : MeetClient.Total serde)
    {parse : Bytes → Except String Json} {roomId node : String}
    {session : Attendance Token}
    (short : session.watch.rounds + 1 < UInt64.maxValue.toNat)
    (fits : session.Fits serde roomId) {env : SignalEnvelope}
    (member : env ∈ session.heard serde parse roomId node) :
    env.roomId = roomId ∧ env.sender = node := by
  by_cases joins : session.Joins parse roomId
  · rw [heard_eq total node short fits joins, announced] at member
    obtain ⟨bare, announces, rfl⟩ := List.mem_map.mp member
    refine ⟨?_, rfl⟩
    rw [List.mem_cons, List.mem_append] at announces
    rcases announces with rfl | kept | left
    · rfl
    · obtain ⟨index, inside, rfl⟩ := mem_keepalivesFrom_iff.mp kept
      rfl
    · split at left
      case isFalse => cases left
      case isTrue =>
        rw [List.mem_singleton.mp left]
        rfl
  · rw [heard_of_not_joins serde node joins] at member
    cases member

/-- Ann stays for two rounds. -/
def annFirst : Attendance Nat :=
  annAttends 2 [⟨1001, .ok []⟩, ⟨1002, .ok []⟩]

/-- She comes back and stays for three rounds so far. -/
def annAgain : Attendance Nat :=
  annAttends 0 [⟨1021, .ok []⟩, ⟨1022, .ok []⟩, ⟨1023, .ok []⟩]

theorem fits_ann :
    ∀ session ∈ [annFirst, annAgain], session.Fits .compact "r" := by
  intro session member env announces bytes written
  have sizes : ∀ session ∈ [annFirst, annAgain],
      ∀ env ∈ session.announced "r", env.wireSize ≤ maxEnvelopeBytes := by
    decide
  obtain rfl : env.toJson.render = bytes := Except.ok.inj written
  exact (SignalEnvelope.length_render_toJson env).trans_le
    (sizes session member env announces)

/-- The others do not see her yet. -/
theorem shows_attendance_iff_again :
    "ann" ∉ (((Room.new "r" "bob").withMaxMembers 1).applyAll
      ([annFirst, annAgain].flatMap
        (Attendance.heard .compact Json.read "r" "ann"))).present := by
  have short : ∀ session ∈ [annFirst, annAgain],
      session.watch.rounds + 1 < UInt64.maxValue.toNat := by decide
  have own : ∀ env ∈ [annFirst, annAgain].flatMap
      (Attendance.heard .compact Json.read "r" "ann"),
      env.roomId = "r" ∧ env.sender = "ann" := by
    intro env member
    obtain ⟨session, attends, heard⟩ := List.mem_flatMap.mp member
    exact Attendance.of_mem_heard MeetClient.total_compact
      (short session attends) (fits_ann session attends) heard
  have attended : Attended .compact Json.read "r" "ann" [annFirst, annAgain]
      ([annFirst, annAgain].flatMap
        (Attendance.heard .compact Json.read "r" "ann")) :=
    ⟨fun env member => (own env member).1, fun _ _ => List.mem_flatMap⟩
  have alone : (([annFirst, annAgain].flatMap
      (Attendance.heard .compact Json.read "r" "ann")).map
        SignalEnvelope.sender).toFinset.card ≤ 1 := by
    refine Finset.card_le_one_iff_subset_singleton.mpr ⟨"ann", ?_⟩
    intro sender member
    obtain ⟨env, heard, rfl⟩ := List.mem_map.mp (List.mem_toFinset.mp member)
    exact Finset.mem_singleton.mpr (own env heard).2
  intro shown
  obtain ⟨session, attends, _, longest⟩ :=
    (shows_attendance_iff .compact MeetClient.total_compact Json.read "r" "bob"
      1 "ann" (by decide) _ short fits_ann _ attended alone).mp shown
  have longer := longest annFirst (by simp) ⟨⟨_, rfl⟩, rfl⟩ rfl
  have none_longer : ∀ session ∈ [annFirst, annAgain],
      ¬annFirst.keepalives.length + 1 < session.keepalives.length := by decide
  exact none_longer session attends longer

end CeMeet
