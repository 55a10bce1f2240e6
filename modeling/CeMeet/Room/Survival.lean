import CeMeet.Room.ChangeLog
import CeMeet.Room.Sweeping

/-!
# Whom the liveness sweep spares

Keepalives, media signals, reactions and chat messages advance the last sign of
life of a present member, in whatever order they arrive.  A present member that
neither leaves nor joins again is therefore spared by every sweep that comes
within its stale window after one of them, and taken by any other.
-/

namespace CeMeet

/-- Whether a signal is a sign of life of a present member. -/
def Signal.isSignOfLife : Signal → Bool
  | .keepalive | .media .. | .screenShare _ | .raiseHand _ | .reaction _
  | .chat _ => true
  | _ => false

namespace Room

/-- A member is present, and its last sign of life is known. -/
def SeenAt (room : Room) (peer : String) (seen : UInt64) : Prop :=
  ∃ m, room.member peer = some m ∧ m.present = true ∧ m.lastSeen = seen

theorem SeenAt.isPresent {room : Room} {peer : String} {seen : UInt64}
    (seenAt : room.SeenAt peer seen) : room.isPresent peer = true := by
  obtain ⟨m, found, present, _⟩ := seenAt
  rw [isPresent_of_lookup found, present]

theorem seenAt_store
    {room : Room} {m : Member} {peer : String} {seen : UInt64}
    (atPeer : m.nodeId = peer) (present : m.present = true)
    (same : m.lastSeen = seen) :
    (room.store m).SeenAt peer seen :=
  ⟨m, member_store atPeer, present, same⟩

/-- A refresh of a present member takes the later of both times. -/
theorem SeenAt.touch
    {room : Room} {peer : String} {seen : UInt64}
    (seenAt : room.SeenAt peer seen) (sentAt : UInt64)
    {eligible : Member → Bool}
    (eligiblePresent : ∀ m, m.present = true → eligible m = true) :
    (room.touch peer sentAt eligible).SeenAt peer (max sentAt seen) := by
  obtain ⟨m, found, present, rfl⟩ := seenAt
  have result := touch_cases room peer sentAt eligible
  generalize room.touch peer sentAt eligible = next at result ⊢
  cases result with
  | unknown unknown => cases found.symm.trans unknown
  | kept known refused =>
      cases found.symm.trans known
      have notLater : sentAt ≤ m.lastSeen := by
        by_contra later
        exact refused ⟨eligiblePresent m present, not_le.mp later⟩
      exact ⟨m, found, present, (max_eq_right notLater).symm⟩
  | seen known atNode accepted later =>
      cases found.symm.trans known
      exact seenAt_store atNode present (max_eq_left later.le).symm

/-- An assertion of presence by a present member keeps it present; it is a sign
of life unless it is an old one. -/
theorem SeenAt.lww
    {room : Room} {peer : String} {seen : UInt64}
    (seenAt : room.SeenAt peer seen) (seq sentAt : UInt64)
    (displayName : Option String) :
    (room.lww peer seq sentAt true displayName).1 = .noChange ∧
      ((room.lww peer seq sentAt true displayName).2.SeenAt peer seen ∨
        (room.lww peer seq sentAt true displayName).2.SeenAt peer
          (max sentAt seen)) := by
  obtain ⟨m, found, present, rfl⟩ := seenAt
  have result := lww_cases room peer seq sentAt true displayName
  generalize room.lww peer seq sentAt true displayName = next at result ⊢
  cases result with
  | full unknown | creates unknown => cases found.symm.trans unknown
  | older => exact ⟨rfl, Or.inl ⟨m, found, present, rfl⟩⟩
  | removes known atNode same asserted => cases asserted
  | keeps known atNode =>
      cases found.symm.trans known
      exact ⟨rfl, Or.inr (seenAt_store atNode present rfl)⟩
  | newer known atNode =>
      cases found.symm.trans known
      rw [present]
      exact ⟨rfl, Or.inr (seenAt_store atNode rfl rfl)⟩

theorem SeenAt.mediaLww
    {room : Room} {peer : String} {seen : UInt64}
    (seenAt : room.SeenAt peer seen) (seq sentAt : UInt64)
    (update : MediaUpdate) :
    (room.mediaLww peer seq sentAt update).2.SeenAt peer (max sentAt seen) := by
  obtain ⟨m, found, present, rfl⟩ := seenAt
  have kept : ∀ m : Member, (update.applyTo seq m).lastSeen = m.lastSeen := by
    intro m
    cases update <;> rfl
  have result := mediaLww_cases room peer seq sentAt update
  generalize room.mediaLww peer seq sentAt update = next at result ⊢
  cases result with
  | full unknown | creates unknown => cases found.symm.trans unknown
  | older known older refreshed atNode =>
      cases found.symm.trans known
      exact seenAt_store atNode (refreshed ▸ present) (refreshed ▸ rfl)
  | newer known newer refreshed atNode =>
      cases found.symm.trans known
      refine seenAt_store atNode ?_ ((kept _).trans (refreshed ▸ rfl))
      rw [MediaUpdate.applyTo_present, refreshed]
      exact present

/-- What an envelope of a present member does to its last sign of life, unless
it joins or leaves. -/
theorem SeenAt.apply
    {room : Room} {env : SignalEnvelope} {seen : UInt64}
    (seenAt : room.SeenAt env.sender seen)
    (sameRoom : env.roomId = room.roomId) (named : env.sender ≠ "")
    (steady : ∀ name, env.signal ≠ .join name) (stays : env.signal ≠ .leave) :
    (room.apply env).2.SeenAt env.sender
      (if env.signal.isSignOfLife then max env.sentAt seen else seen) := by
  unfold Room.apply
  rw [if_neg (by tauto)]
  cases signal : env.signal with
  | offer | answer | iceCandidate | iceEnd | kick | forceMute | recording
  | endRoom => exact seenAt
  | media | screenShare | raiseHand => exact seenAt.mediaLww _ _ _
  | reaction | chat => exact seenAt.touch _ fun _ _ => rfl
  | join name => exact absurd signal (steady name)
  | leave => exact absurd signal stays
  | keepalive =>
      obtain ⟨unchanged, kept⟩ := seenAt.lww env.seq env.sentAt none
      generalize room.lww env.sender env.seq env.sentAt true none = result
        at unchanged kept
      obtain ⟨effect, next⟩ := result
      cases unchanged
      have eligible : ∀ m : Member, m.present = true → m.present = true :=
        fun _ => id
      rcases kept with same | later
      · exact same.touch _ eligible
      · have twice := later.touch env.sentAt eligible
        rw [max_eq_right (le_max_left _ _)] at twice
        exact twice

/-! ## Runs -/

/-- The signs of life of a peer in a run. -/
def signsOfLife (roomId peer : String) (operations : List Operation) :
    List UInt64 :=
  ((accepted roomId operations).filter fun env =>
    env.sender = peer ∧ env.signal.isSignOfLife).map SignalEnvelope.sentAt

/-- An operation with which a peer neither joins nor leaves, and no snapshot is
merged. -/
def Operation.Steady (roomId peer : String) : Operation → Prop
  | .apply env => env.roomId = roomId → env.sender = peer →
      (∀ name, env.signal ≠ .join name) ∧ env.signal ≠ .leave
  | .mergeSnapshot _ => False
  | .pruneStale .. | .nextOutboundSeq | .resumeOutboundFrom _ => True

/-- The latest of some times. -/
def latest (seen : UInt64) (times : List UInt64) : UInt64 :=
  times.foldl (fun seen sentAt => max sentAt seen) seen

theorem le_latest_iff {seen bound : UInt64} {times : List UInt64} :
    bound ≤ latest seen times ↔ bound ≤ seen ∨ ∃ sentAt ∈ times, bound ≤ sentAt := by
  induction times generalizing seen with
  | nil => simp [latest]
  | cons sentAt times inductionHypothesis =>
      rw [latest, List.foldl_cons, ← latest, inductionHypothesis, le_max_iff,
        List.exists_mem_cons_iff]
      tauto

/-- Whether an operation spares a member that was seen at a time. -/
def Operation.Spares (seen : UInt64) (operation : Operation) : Prop :=
  ∀ now staleSecs, operation = .pruneStale now staleSecs →
    now.toNat ≤ seen.toNat + staleSecs.toNat

theorem lastSeen_expire (now staleSecs : UInt64) (m : Member) :
    (expire now staleSecs m).lastSeen = m.lastSeen := by
  unfold expire
  split <;> rfl

/-- A sweep leaves a present member present exactly if it spares it. -/
theorem SeenAt.pruneStale_iff
    {room : Room} {peer : String} {seen : UInt64}
    (seenAt : room.SeenAt peer seen) (now staleSecs : UInt64) :
    (room.pruneStale now staleSecs).2.isPresent peer = true ↔
      now.toNat ≤ seen.toNat + staleSecs.toNat := by
  obtain ⟨m, found, present, rfl⟩ := seenAt
  have swept := member_pruneStale room now staleSecs peer
  rw [found, Option.map_some] at swept
  rw [isPresent_of_lookup swept, ← Bool.not_eq_false,
    present_expire_eq_false_iff, Classical.not_imp, not_lt]
  exact and_iff_right present

/-- An operation that spares a member keeps it present and advances its last
sign of life. -/
theorem SeenAt.operate
    {room : Room} {peer : String} {seen : UInt64}
    (seenAt : room.SeenAt peer seen) (named : peer ≠ "")
    {operation : Operation} (steady : operation.Steady room.roomId peer)
    (spares : operation.Spares seen) :
    (room.operate operation).2.SeenAt peer
      (latest seen (signsOfLife room.roomId peer [operation])) := by
  cases operation with
  | apply env =>
      change (room.apply env).2.SeenAt peer _
      by_cases ours : env.roomId = room.roomId ∧ env.sender = peer
      · obtain ⟨sameRoom, rfl⟩ := ours
        obtain ⟨joins, leaves⟩ := steady sameRoom rfl
        have applied := seenAt.apply sameRoom named joins leaves
        by_cases alive : env.signal.isSignOfLife = true
        · simpa [signsOfLife, accepted, Operation.accepted, sameRoom, named,
            alive, latest] using applied
        · simpa [signsOfLife, accepted, Operation.accepted, sameRoom, named,
            alive, latest] using applied
      · have silent : signsOfLife room.roomId peer [.apply env] = [] := by
          simp only [signsOfLife, List.map_eq_nil_iff, List.filter_eq_nil_iff]
          intro sent member
          obtain ⟨applied, sameRoom, _⟩ := mem_accepted_iff.mp member
          cases List.mem_singleton.mp applied
          simp only [decide_eq_true_eq, not_and]
          exact fun fromPeer => absurd ⟨sameRoom, fromPeer⟩ ours
        obtain ⟨m, found, present, same⟩ := seenAt
        refine ⟨m, ?_, present, by rw [silent]; exact same⟩
        by_cases fromPeer : env.sender = peer
        · rw [apply_ignored (Or.inl fun sameRoom => ours ⟨sameRoom, fromPeer⟩)]
          exact found
        · exact ((apply_writes room env).lookup_of_ne
            (Ne.symm fromPeer)).trans found
  | pruneStale now staleSecs =>
      have spared := (seenAt.pruneStale_iff now staleSecs).mpr
        (spares now staleSecs rfl)
      obtain ⟨m, found, present, same⟩ := seenAt
      have swept := member_pruneStale room now staleSecs peer
      rw [found, Option.map_some] at swept
      rw [isPresent_of_lookup swept] at spared
      refine ⟨_, swept, spared, ?_⟩
      exact (lastSeen_expire now staleSecs m).trans same
  | mergeSnapshot snap => exact steady.elim
  | nextOutboundSeq =>
      obtain ⟨seq, nextSeq, allocated⟩ := operate_nextOutboundSeq room
      rw [allocated]
      exact seenAt
  | resumeOutboundFrom floor => exact seenAt

theorem latest_signsOfLife_concat
    (roomId peer : String) (seen : UInt64) (done : List Operation)
    (operation : Operation) :
    latest seen (signsOfLife roomId peer (done ++ [operation])) =
      latest (latest seen (signsOfLife roomId peer done))
        (signsOfLife roomId peer [operation]) := by
  simp [latest, signsOfLife, accepted, List.filterMap_append]

/-- A member that every sweep of a run spares is seen whenever it gives a sign
of life. -/
theorem SeenAt.after
    {room : Room} {peer : String} {seen : UInt64}
    (seenAt : room.SeenAt peer seen) (named : peer ≠ "")
    {operations : List Operation}
    (steady : ∀ operation ∈ operations, operation.Steady room.roomId peer)
    (spares : ∀ done operation rest, operations = done ++ operation :: rest →
      (room.after done).SeenAt peer
        (latest seen (signsOfLife room.roomId peer done)) →
      operation.Spares (latest seen (signsOfLife room.roomId peer done))) :
    (room.after operations).SeenAt peer
      (latest seen (signsOfLife room.roomId peer operations)) := by
  induction operations using List.reverseRecOn with
  | nil => exact seenAt
  | append_singleton done operation inductionHypothesis =>
      have before := inductionHypothesis
        (fun earlier member => steady earlier (List.mem_append_left _ member))
        fun earlier next rest split => spares earlier next
          (rest ++ [operation]) (by simp [split])
      rw [after_append, latest_signsOfLife_concat, after_cons, after_nil]
      have sameRoom := after_roomId room done
      rw [← sameRoom] at before ⊢
      refine before.operate named ?_ ?_
      · rw [sameRoom]
        exact steady operation (by simp)
      · rw [sameRoom] at before ⊢
        exact spares done operation [] rfl before

theorem saturatingSub_le_iff {now staleSecs seen : UInt64} :
    now.saturatingSub staleSecs ≤ seen ↔
      now.toNat ≤ seen.toNat + staleSecs.toNat := by
  rw [UInt64.le_iff_toNat_le, UInt64.toNat_saturatingSub, Nat.sub_le_iff_le_add]

theorem le_latest_signsOfLife_iff
    {roomId peer : String} {seen bound : UInt64} {done : List Operation} :
    bound ≤ latest seen (signsOfLife roomId peer done) ↔
      bound ≤ seen ∨ ∃ env ∈ accepted roomId done,
        env.sender = peer ∧ env.signal.isSignOfLife = true ∧
          bound ≤ env.sentAt := by
  rw [le_latest_iff, signsOfLife]
  refine or_congr Iff.rfl ⟨?_, ?_⟩
  · rintro ⟨sentAt, member, atMost⟩
    obtain ⟨env, kept, rfl⟩ := List.mem_map.mp member
    obtain ⟨present, alive⟩ := List.mem_filter.mp kept
    obtain ⟨fromPeer, isSign⟩ := of_decide_eq_true alive
    exact ⟨env, present, fromPeer, isSign, atMost⟩
  · rintro ⟨env, present, fromPeer, isSign, atMost⟩
    refine ⟨env.sentAt, List.mem_map_of_mem ?_, atMost⟩
    exact List.mem_filter.mpr ⟨present, decide_eq_true ⟨fromPeer, isSign⟩⟩

/-- A present member that neither joins again nor leaves stays present along a
run exactly if every sweep comes within its stale window after the time at which
the member was last seen, or after one of the keepalives, media signals,
reactions and chat messages of the member that were applied before the sweep, in
whatever order. -/
theorem survives_sweeps_iff
    (room : Room) (peer : String) (m : Member)
    (known : room.member peer = some m)
    (present : m.present = true)
    (named : peer ≠ "")
    (operations : List Operation)
    (steady : ∀ operation ∈ operations, operation.Steady room.roomId peer) :
    (∀ done rest, operations = done ++ rest →
        (room.after done).isPresent peer = true) ↔
      ∀ done now staleSecs rest,
        operations = done ++ .pruneStale now staleSecs :: rest →
        now.toNat ≤ m.lastSeen.toNat + staleSecs.toNat ∨
          ∃ env ∈ accepted room.roomId done,
            env.sender = peer ∧ env.signal.isSignOfLife = true ∧
              now.toNat ≤ env.sentAt.toNat + staleSecs.toNat := by
  have seenAt : room.SeenAt peer m.lastSeen := ⟨m, known, present, rfl⟩
  have inTime : ∀ done (now staleSecs : UInt64),
      now.toNat ≤ (latest m.lastSeen
          (signsOfLife room.roomId peer done)).toNat + staleSecs.toNat ↔
        now.toNat ≤ m.lastSeen.toNat + staleSecs.toNat ∨
          ∃ env ∈ accepted room.roomId done,
            env.sender = peer ∧ env.signal.isSignOfLife = true ∧
              now.toNat ≤ env.sentAt.toNat + staleSecs.toNat := by
    intro done now staleSecs
    rw [← saturatingSub_le_iff, le_latest_signsOfLife_iff]
    simp only [saturatingSub_le_iff]
  constructor
  · intro stays done now staleSecs rest split
    have sparesAt : ∀ earlier operation later,
        operations = earlier ++ operation :: later →
        (room.after earlier).SeenAt peer
          (latest m.lastSeen (signsOfLife room.roomId peer earlier)) →
        operation.Spares
          (latest m.lastSeen (signsOfLife room.roomId peer earlier)) := by
      rintro earlier operation later inner before now staleSecs rfl
      have after := stays (earlier ++ [.pruneStale now staleSecs]) later
        (by simp [inner])
      rw [after_append] at after
      exact (before.pruneStale_iff now staleSecs).mp after
    have steadyBefore : ∀ operation ∈ done,
        operation.Steady room.roomId peer := fun operation member =>
      steady operation (by simp [split, member])
    have before := seenAt.after named steadyBefore
      fun earlier operation later inner =>
        sparesAt earlier operation (later ++ .pruneStale now staleSecs :: rest)
          (by simp [split, inner])
    exact (inTime done now staleSecs).mp
      (sparesAt done _ rest split before now staleSecs rfl)
  · intro sparing done rest split
    have steadyBefore : ∀ operation ∈ done,
        operation.Steady room.roomId peer := fun operation member =>
      steady operation (by simp [split, member])
    refine SeenAt.isPresent (seenAt.after named steadyBefore ?_)
    rintro earlier operation later inner _ now staleSecs rfl
    exact (inTime earlier now staleSecs).mpr
      (sparing earlier now staleSecs (later ++ rest) (by simp [split, inner]))

/-- A room that a member has joined. -/
def annJoined : Room :=
  (new "r" "me").after
    [.apply ((SignalEnvelope.broadcast "r" 0 1000 (.join none)).withSender
      "ann")]

/-- Two keepalives in the wrong order, and a sweep. -/
def annLingers : List Operation :=
  [.apply ((SignalEnvelope.broadcast "r" 2 1020 .keepalive).withSender "ann"),
    .apply ((SignalEnvelope.broadcast "r" 1 1010 .keepalive).withSender "ann"),
    .pruneStale 1050 30]

theorem annLingers_survives :
    (∀ done rest, annLingers = done ++ rest →
        (annJoined.after done).isPresent "ann" = true) ↔
      ∀ done now staleSecs rest,
        annLingers = done ++ .pruneStale now staleSecs :: rest →
        now.toNat ≤ (1000 : UInt64).toNat + staleSecs.toNat ∨
          ∃ env ∈ accepted annJoined.roomId done,
            env.sender = "ann" ∧ env.signal.isSignOfLife = true ∧
              now.toNat ≤ env.sentAt.toNat + staleSecs.toNat := by
  refine survives_sweeps_iff annJoined "ann" _ rfl rfl (by decide) annLingers ?_
  intro operation member
  simp only [annLingers, List.mem_cons, List.not_mem_nil, or_false] at member
  rcases member with rfl | rfl | rfl
  · simp [Operation.Steady, SignalEnvelope.broadcast]
  · simp [Operation.Steady, SignalEnvelope.broadcast]
  · trivial

end Room
end CeMeet
