import CeMeet.Foundation.SideNote
import CeMeet.Room.MediaState
import Mathlib.Data.Set.Finite.Lemmas

/-!
# Display names

A name is written beside the presence register of its member.  A join that
arrives after a presence signal of a greater number is refused with its name,
so the name that is shown is that of the latest join among those that arrive in
time.
-/

namespace CeMeet

/-- What a presence signal writes beside the register, if it is one. -/
def Signal.presenceName : Signal → Option (Option String)
  | .join displayName => some displayName
  | .leave | .keepalive => some none
  | _ => none

namespace SignalEnvelope

/-- What an envelope writes at a peer: its number and the name it carries. -/
def nameEntry (peer : String) (env : SignalEnvelope) :
    Option (UInt64 × Option String) :=
  if env.sender = peer then
    env.signal.presenceName.map fun name => (env.seq, name)
  else
    none

/-- A join of a peer that carries a name. -/
def NamedJoin (peer name : String) (env : SignalEnvelope) : Prop :=
  env.sender = peer ∧ env.signal = .join (some name)

theorem isPresence_iff_presenceName {signal : Signal} :
    signal.isPresence = true ↔ ∃ name, signal.presenceName = some name := by
  cases signal <;> simp [Signal.isPresence, Signal.presenceName]

theorem nameEntry_eq_some_iff
    {peer : String} {env : SignalEnvelope} {entry : UInt64 × Option String} :
    env.nameEntry peer = some entry ↔
      env.sender = peer ∧ env.signal.presenceName = some entry.2 ∧
        env.seq = entry.1 := by
  obtain ⟨seq, name⟩ := entry
  by_cases fromPeer : env.sender = peer
  · rw [nameEntry, if_pos fromPeer, Option.map_eq_some_iff]
    simp [fromPeer, and_comm]
  · simp [nameEntry, fromPeer]

theorem nameEntry_eq_some_named_iff
    {peer : String} {env : SignalEnvelope} {seq : UInt64} {name : String} :
    env.nameEntry peer = some (seq, some name) ↔
      NamedJoin peer name env ∧ env.seq = seq := by
  have carries : env.signal.presenceName = some (some name) ↔
      env.signal = .join (some name) := by
    cases env.signal <;> simp [Signal.presenceName]
  rw [nameEntry_eq_some_iff, carries, NamedJoin, and_assoc]

end SignalEnvelope

namespace Room

open SignalEnvelope

/-- The number and the name a peer's presence was last written with, as they
are or would be created. -/
def nameAt (room : Room) (peer : String) : UInt64 × Option String :=
  match room.members.lookup peer with
  | some m => (m.lastSeq, m.displayName)
  | none => (0, none)

theorem nameAt_of_lookup
    {room : Room} {peer : String} {m : Member}
    (found : room.members.lookup peer = some m) :
    room.nameAt peer = (m.lastSeq, m.displayName) := by
  rw [nameAt, found]

theorem nameAt_of_unknown
    {room : Room} {peer : String}
    (unknown : room.members.lookup peer = none) :
    room.nameAt peer = (0, none) := by
  rw [nameAt, unknown]

theorem nameAt_congr
    {left right : Room} {peer : String}
    (same : left.members.lookup peer = right.members.lookup peer) :
    left.nameAt peer = right.nameAt peer := by
  rw [nameAt, nameAt, same]

theorem nameAt_store
    {room : Room} {m : Member} {peer : String}
    (atPeer : m.nodeId = peer) :
    (room.store m).nameAt peer = (m.lastSeq, m.displayName) :=
  nameAt_of_lookup (member_store atPeer)

/-- Refreshing liveness keeps the name. -/
theorem nameAt_touch
    (room : Room) (nodeId : String) (sentAt : UInt64)
    (eligible : Member → Bool) :
    (room.touch nodeId sentAt eligible).nameAt nodeId = room.nameAt nodeId := by
  have result := touch_cases room nodeId sentAt eligible
  generalize room.touch nodeId sentAt eligible = next at result ⊢
  cases result with
  | unknown | kept => rfl
  | seen found atNode =>
      rw [nameAt_of_lookup found]
      exact nameAt_store atNode

/-- A presence signal is a write beside the register. -/
theorem nameAt_lww
    {room : Room} {nodeId : String}
    (slot : room.HasSlot nodeId)
    (seq sentAt : UInt64) (present : Bool) (displayName : Option String) :
    (room.lww nodeId seq sentAt present displayName).2.nameAt nodeId =
      SideNote.write (room.nameAt nodeId) (seq, displayName) := by
  have result := lww_cases room nodeId seq sentAt present displayName
  generalize room.lww nodeId seq sentAt present displayName = next at result ⊢
  cases result with
  | full unknown full =>
      exact absurd full ((hasSlot_iff_of_unknown unknown).mp slot)
  | creates unknown =>
      rw [nameAt_of_unknown unknown, SideNote.write,
        if_neg UInt64.not_lt_zero, Option.or_none]
      exact nameAt_store rfl
  | older found older =>
      rw [nameAt_of_lookup found, SideNote.write, if_pos older]
  | removes found atNode same | keeps found atNode same =>
      rw [nameAt_of_lookup found, SideNote.write, if_neg (not_lt.mpr same.ge),
        same]
      exact nameAt_store atNode
  | newer found atNode newer =>
      rw [nameAt_of_lookup found, SideNote.write, if_neg newer.not_gt]
      exact nameAt_store atNode

/-- Media signals keep the name. -/
theorem nameAt_mediaLww
    (room : Room) (nodeId : String) (seq sentAt : UInt64)
    (update : MediaUpdate) :
    (room.mediaLww nodeId seq sentAt update).2.nameAt nodeId =
      room.nameAt nodeId := by
  have result := mediaLww_cases room nodeId seq sentAt update
  generalize room.mediaLww nodeId seq sentAt update = next at result ⊢
  have named : ∀ m : Member,
      ((update.applyTo seq m).lastSeq, (update.applyTo seq m).displayName) =
        (m.lastSeq, m.displayName) := by
    intro m
    cases update <;> rfl
  cases result with
  | full => rfl
  | creates unknown free blank atNode =>
      rw [nameAt_of_unknown unknown, nameAt_store atNode, named, blank]
  | older found older refreshed atNode =>
      rw [nameAt_of_lookup found, nameAt_store atNode, refreshed]
  | newer found newer refreshed atNode =>
      rw [nameAt_of_lookup found, nameAt_store atNode, named, refreshed]

/-- An envelope of this room writes its entry. -/
theorem nameAt_apply
    {room : Room} {env : SignalEnvelope}
    (sameRoom : env.roomId = room.roomId)
    (authenticated : env.sender ≠ "")
    (slot : room.HasSlot env.sender)
    (peer : String) :
    (room.apply env).2.nameAt peer =
      SideNote.writeAll (room.nameAt peer) (env.nameEntry peer).toList := by
  by_cases fromPeer : env.sender = peer
  · subst fromPeer
    unfold apply nameEntry
    rw [if_neg (by simp [sameRoom, authenticated]), if_pos rfl]
    cases env.signal with
    | offer | answer | iceCandidate | iceEnd | kick | forceMute | recording
    | endRoom => rfl
    | reaction | chat => exact nameAt_touch _ _ _ _
    | media | screenShare | raiseHand => exact nameAt_mediaLww _ _ _ _ _
    | join | leave => exact nameAt_lww slot _ _ _ _
    | keepalive =>
        have written := nameAt_lww slot env.seq env.sentAt true none
        dsimp only
        split
        next result => exact result ▸ written
        next result =>
          rw [result] at written
          rw [nameAt_touch]
          exact written
        next result => exact result ▸ written
  · rw [nameEntry, if_neg fromPeer]
    exact nameAt_congr
      ((apply_writes room env).lookup_of_ne (Ne.symm fromPeer))

/-- The stale members of a room keep their names. -/
theorem nameAt_pruneStale
    (room : Room) (now staleSecs : UInt64) (peer : String) :
    (room.pruneStale now staleSecs).2.nameAt peer = room.nameAt peer := by
  have pruned : (room.pruneStale now staleSecs).2.members.lookup peer =
      (room.members.lookup peer).map (expire now staleSecs) :=
    Indexed.lookup_map _ (expire_nodeId now staleSecs) _ _
  cases found : room.members.lookup peer with
  | none =>
      rw [found, Option.map_none] at pruned
      rw [nameAt_of_unknown found, nameAt_of_unknown pruned]
  | some m =>
      rw [found, Option.map_some] at pruned
      rw [nameAt_of_lookup found, nameAt_of_lookup pruned, expire]
      split <;> rfl

theorem nameAt_writtenBy (peer : String) :
    WrittenBy (fun room => room.nameAt peer) SideNote.write
      (nameEntry peer) where
  apply := fun sameRoom authenticated slot =>
    nameAt_apply sameRoom authenticated slot peer
  pruneStale := fun room now staleSecs =>
    nameAt_pruneStale room now staleSecs peer
  nextSeq := fun _ _ => rfl

/-! ## The latest join -/

/-- The named join of a peer with the greatest number. -/
structure LatestJoin (envs : List SignalEnvelope) (peer name : String)
    (env : SignalEnvelope) : Prop where
  /-- It was delivered. -/
  member : env ∈ envs
  /-- It carries the name. -/
  named : NamedJoin peer name env
  /-- No named join has a greater number. -/
  greatest : ∀ other ∈ envs, ∀ otherName,
    NamedJoin peer otherName other → other.seq ≤ env.seq

/-- A member shows the name of its latest named join, and none without one. -/
structure ShowsLatestName (envs : List SignalEnvelope) (peer : String)
    (shown : Option String) : Prop where
  /-- The name of the latest named join is shown. -/
  named : ∀ env name, LatestJoin envs peer name env → shown = some name
  /-- Without a named join no name is shown. -/
  unnamed : (∀ env ∈ envs, ∀ name, ¬NamedJoin peer name env) → shown = none

/-- An envelope comes before the presence signals of its sender that have a
greater number. -/
def InTime (envs : List SignalEnvelope) (env : SignalEnvelope) : Prop :=
  ∃ done rest, envs = done ++ env :: rest ∧
    ∀ earlier ∈ done, earlier.sender = env.sender →
      earlier.signal.isPresence = true → earlier.seq ≤ env.seq

/-- The latest of the named joins that come in time carries the name of the
latest named join. -/
def LatestNameInTime (envs : List SignalEnvelope) (peer : String) : Prop :=
  ∀ env name, LatestJoin envs peer name env →
    ∃ kept, InTime envs kept ∧ NamedJoin peer name kept ∧
      ∀ other otherName, InTime envs other → NamedJoin peer otherName other →
        other.seq ≤ kept.seq

/-- Every sender uses a number for one envelope. -/
def OneEnvelopePerSeq (envs : List SignalEnvelope) : Prop :=
  ∀ env ∈ envs, ∀ other ∈ envs,
    env.sender = other.sender → env.seq = other.seq → env = other

theorem InTime.mem
    {envs : List SignalEnvelope} {env : SignalEnvelope}
    (inTime : InTime envs env) : env ∈ envs := by
  obtain ⟨done, rest, rfl, _⟩ := inTime
  exact List.mem_append_right _ List.mem_cons_self

/-- The names that come in time are the timely notes beside the register. -/
theorem timely_nameEntries_iff
    {envs : List SignalEnvelope} {peer name : String} {seq : UInt64} :
    SideNote.Timely (envs.filterMap (nameEntry peer)) (seq, some name) ↔
      ∃ env, InTime envs env ∧ NamedJoin peer name env ∧ env.seq = seq := by
  constructor
  · rintro ⟨doneEntries, restEntries, split, before⟩
    obtain ⟨done, tail, rfl, rfl, tailEntries⟩ :=
      List.filterMap_eq_append_iff.mp split
    obtain ⟨skipped, env, rest, rfl, skips, written, _⟩ :=
      List.filterMap_eq_cons_iff.mp tailEntries
    obtain ⟨named, rfl⟩ := nameEntry_eq_some_named_iff.mp written
    refine ⟨env, ⟨done ++ skipped, rest, by simp, ?_⟩, named, rfl⟩
    intro earlier member sameSender presence
    obtain ⟨carried, carries⟩ := isPresence_iff_presenceName.mp presence
    have entry : earlier.nameEntry peer = some (earlier.seq, carried) :=
      nameEntry_eq_some_iff.mpr ⟨sameSender.trans named.1, carries, rfl⟩
    rcases List.mem_append.mp member with early | skip
    · exact before _ (List.mem_filterMap.mpr ⟨earlier, early, entry⟩)
    · rw [skips earlier skip] at entry
      cases entry
  · rintro ⟨env, ⟨done, rest, rfl, before⟩, named, rfl⟩
    have written : env.nameEntry peer = some (env.seq, some name) :=
      nameEntry_eq_some_named_iff.mpr ⟨named, rfl⟩
    refine ⟨done.filterMap (nameEntry peer), rest.filterMap (nameEntry peer),
      by simp [written], ?_⟩
    intro entry member
    obtain ⟨earlier, early, carries⟩ := List.mem_filterMap.mp member
    obtain ⟨fromPeer, presence, seq⟩ := nameEntry_eq_some_iff.mp carries
    rw [← seq]
    exact before earlier early (fromPeer.trans named.1.symm)
      (isPresence_iff_presenceName.mpr ⟨_, presence⟩)

theorem consistent_nameEntries
    {envs : List SignalEnvelope}
    (oneEnvelope : OneEnvelopePerSeq envs) (peer : String) :
    ∀ entry ∈ envs.filterMap (nameEntry peer),
      ∀ other ∈ envs.filterMap (nameEntry peer),
        entry.1 = other.1 → entry = other := by
  intro entry member other otherMember sameSeq
  obtain ⟨env, envMember, written⟩ := List.mem_filterMap.mp member
  obtain ⟨otherEnv, otherEnvMember, otherWritten⟩ :=
    List.mem_filterMap.mp otherMember
  obtain ⟨fromPeer, _, seq⟩ := nameEntry_eq_some_iff.mp written
  obtain ⟨otherFromPeer, _, otherSeq⟩ := nameEntry_eq_some_iff.mp otherWritten
  have same := oneEnvelope env envMember otherEnv otherEnvMember
    (fromPeer.trans otherFromPeer.symm)
    (seq.trans (sameSeq.trans otherSeq.symm))
  rw [same, otherWritten] at written
  exact (Option.some.inj written).symm

/-- A member that joined with a name has a latest named join. -/
theorem exists_latestJoin
    {envs : List SignalEnvelope} {peer name : String} {env : SignalEnvelope}
    (member : env ∈ envs) (named : NamedJoin peer name env) :
    ∃ latest latestName, LatestJoin envs peer latestName latest := by
  let namedJoins : Set SignalEnvelope :=
    {join | join ∈ envs ∧ ∃ name, NamedJoin peer name join}
  have finite : namedJoins.Finite :=
    (List.finite_toSet envs).subset fun _ join => join.1
  obtain ⟨latest, ⟨latestMember, latestName, latestNamed⟩, greatest⟩ :=
    Set.exists_max_image namedJoins SignalEnvelope.seq finite
      ⟨env, member, name, named⟩
  refine ⟨latest, latestName, latestMember, latestNamed, ?_⟩
  intro other otherMember otherName otherNamed
  exact greatest other ⟨otherMember, otherName, otherNamed⟩

/-! ## What is shown -/

/-- After a run without merges the name of a member is that of the latest named
join that came in time. -/
theorem displayName_after_eq_some_iff
    {roomId me : String} {cap : Nat} {operations : List Operation}
    (noMerge : ∀ snap, .mergeSnapshot snap ∉ operations)
    (belowCap :
      StaysBelowCap ((new roomId me).withMaxMembers cap) operations)
    (oneEnvelope : OneEnvelopePerSeq (accepted roomId operations))
    {peer : String} {m : Member}
    (known : (((new roomId me).withMaxMembers cap).after
      operations).member peer = some m)
    {name : String} :
    m.displayName = some name ↔
      ∃ kept, InTime (accepted roomId operations) kept ∧
        NamedJoin peer name kept ∧
        ∀ other otherName, InTime (accepted roomId operations) other →
          NamedJoin peer otherName other → other.seq ≤ kept.seq := by
  have settled : (m.lastSeq, m.displayName) =
      SideNote.writeAll (0, none)
        ((accepted roomId operations).filterMap (nameEntry peer)) :=
    (nameAt_of_lookup known).symm.trans
      ((nameAt_writtenBy peer).after noMerge belowCap)
  have shown : m.displayName = _ := congrArg Prod.snd settled
  rw [shown, SideNote.note_writeAll_eq_some_iff (fun _ => UInt64.zero_le)
    (consistent_nameEntries oneEnvelope peer)]
  constructor
  · rintro ⟨seq, timely, greatest⟩
    obtain ⟨kept, inTime, named, rfl⟩ := timely_nameEntries_iff.mp timely
    refine ⟨kept, inTime, named, fun other otherName otherInTime otherNamed => ?_⟩
    exact greatest _ _
      (timely_nameEntries_iff.mpr ⟨other, otherInTime, otherNamed, rfl⟩)
  · rintro ⟨kept, inTime, named, greatest⟩
    refine ⟨kept.seq, timely_nameEntries_iff.mpr ⟨kept, inTime, named, rfl⟩, ?_⟩
    intro seq otherName timely
    obtain ⟨other, otherInTime, otherNamed, rfl⟩ :=
      timely_nameEntries_iff.mp timely
    exact greatest other otherName otherInTime otherNamed

/-- A member without a named join shows no name. -/
theorem displayName_after_of_unnamed
    {roomId me : String} {cap : Nat} {operations : List Operation}
    (noMerge : ∀ snap, .mergeSnapshot snap ∉ operations)
    (belowCap :
      StaysBelowCap ((new roomId me).withMaxMembers cap) operations)
    (oneEnvelope : OneEnvelopePerSeq (accepted roomId operations))
    {peer : String} {m : Member}
    (known : (((new roomId me).withMaxMembers cap).after
      operations).member peer = some m)
    (unnamed : ∀ env ∈ accepted roomId operations, ∀ name,
      ¬NamedJoin peer name env) :
    m.displayName = none := by
  rw [Option.eq_none_iff_forall_ne_some]
  intro name shown
  obtain ⟨kept, inTime, named, _⟩ :=
    (displayName_after_eq_some_iff noMerge belowCap oneEnvelope known).mp shown
  exact unnamed kept inTime.mem name named

/-- A member shows the name of its latest named join exactly if the latest of
those that came in time carries it. -/
theorem showsLatestName_after_iff
    {roomId me : String} {cap : Nat} {operations : List Operation}
    (noMerge : ∀ snap, .mergeSnapshot snap ∉ operations)
    (belowCap :
      StaysBelowCap ((new roomId me).withMaxMembers cap) operations)
    (oneEnvelope : OneEnvelopePerSeq (accepted roomId operations))
    {peer : String} {m : Member}
    (known : (((new roomId me).withMaxMembers cap).after
      operations).member peer = some m) :
    ShowsLatestName (accepted roomId operations) peer m.displayName ↔
      LatestNameInTime (accepted roomId operations) peer := by
  constructor
  · intro shows env name latest
    exact (displayName_after_eq_some_iff noMerge belowCap oneEnvelope known).mp
      (shows.named env name latest)
  · intro inTime
    refine ⟨fun env name latest => ?_,
      displayName_after_of_unnamed noMerge belowCap oneEnvelope known⟩
    exact (displayName_after_eq_some_iff noMerge belowCap oneEnvelope known).mpr
      (inTime env name latest)

/-- Members that show the latest name of the same envelopes show the same
name. -/
theorem ShowsLatestName.unique
    {left right : List SignalEnvelope} {peer : String}
    {shown otherShown : Option String}
    (shows : ShowsLatestName left peer shown)
    (otherShows : ShowsLatestName right peer otherShown)
    (same : ∀ env, env ∈ left ↔ env ∈ right) :
    shown = otherShown := by
  by_cases someName : ∃ env ∈ left, ∃ name, NamedJoin peer name env
  · obtain ⟨env, member, name, named⟩ := someName
    obtain ⟨latest, latestName, holds⟩ := exists_latestJoin member named
    rw [shows.named latest latestName holds,
      otherShows.named latest latestName
        ⟨(same latest).mp holds.member, holds.named, fun other otherMember =>
          holds.greatest other ((same other).mpr otherMember)⟩]
  · have unnamed : ∀ env ∈ left, ∀ name, ¬NamedJoin peer name env :=
      fun env member name named => someName ⟨env, member, name, named⟩
    rw [shows.unnamed unnamed,
      otherShows.unnamed fun env member =>
        unnamed env ((same env).mpr member)]

/-- In a run that stays below the cap and where every sender uses a number for
one envelope, a member shows the name of its latest named join, or none, exactly
if the latest of its named joins that came in time carries that name; two
participants who both saw the same envelopes in such an order show the same
name. -/
theorem names_follow_latest_join
    (roomId me : String) (cap : Nat) (operations : List Operation)
    (noMerge : ∀ snap, .mergeSnapshot snap ∉ operations)
    (belowCap :
      StaysBelowCap ((new roomId me).withMaxMembers cap) operations)
    (oneEnvelope : OneEnvelopePerSeq (accepted roomId operations))
    {peer : String} {m : Member}
    (known : (((new roomId me).withMaxMembers cap).after
      operations).member peer = some m) :
    (ShowsLatestName (accepted roomId operations) peer m.displayName ↔
        LatestNameInTime (accepted roomId operations) peer) ∧
      ∀ otherMe otherCap otherOperations other,
        (∀ snap, .mergeSnapshot snap ∉ otherOperations) →
        StaysBelowCap ((new roomId otherMe).withMaxMembers otherCap)
          otherOperations →
        (((new roomId otherMe).withMaxMembers otherCap).after
          otherOperations).member peer = some other →
        (∀ env, env ∈ accepted roomId operations ↔
          env ∈ accepted roomId otherOperations) →
        LatestNameInTime (accepted roomId operations) peer →
        LatestNameInTime (accepted roomId otherOperations) peer →
        m.displayName = other.displayName := by
  have shows := showsLatestName_after_iff noMerge belowCap oneEnvelope known
  refine ⟨shows, ?_⟩
  intro otherMe otherCap otherOperations other otherNoMerge otherBelowCap
    otherKnown same inTime otherInTime
  have otherOneEnvelope : OneEnvelopePerSeq (accepted roomId otherOperations) :=
    fun env member later laterMember =>
      oneEnvelope env ((same env).mpr member) later ((same later).mpr laterMember)
  have otherShows := showsLatestName_after_iff otherNoMerge otherBelowCap
    otherOneEnvelope otherKnown
  exact (shows.mpr inTime).unique (otherShows.mpr otherInTime) same

/-- A member joins with a name. -/
def bobJoinsAs (name : String) (seq : UInt64) : SignalEnvelope :=
  (SignalEnvelope.broadcast "r" seq 10 (.join (some name))).withSender "bob"

/-- A member sends a keepalive. -/
def bobIsAlive (seq : UInt64) : SignalEnvelope :=
  (SignalEnvelope.broadcast "r" seq 20 .keepalive).withSender "bob"

/-- A join that arrives before the keepalives that follow it. -/
def joinInTime : List Operation :=
  [.apply (bobJoinsAs "Bob" 0), .apply (bobIsAlive 1)]

/-- The same envelopes in the other order. -/
def joinTooLate : List Operation :=
  [.apply (bobIsAlive 1), .apply (bobJoinsAs "Bob" 0)]

/-- In the right order the name is shown. -/
theorem names_follow_latest_join_in_time :
    ∃ m, (((new "r" "me").withMaxMembers 1).after joinInTime).member "bob" =
        some m ∧
      ShowsLatestName (accepted "r" joinInTime) "bob" m.displayName := by
  have noMerge : ∀ snap, .mergeSnapshot snap ∉ joinInTime := by
    simp [joinInTime]
  have envs : accepted "r" joinInTime = [bobJoinsAs "Bob" 0, bobIsAlive 1] := by
    decide
  refine ⟨_, rfl, (names_follow_latest_join "r" "me" 1 joinInTime noMerge
    (staysBelowCap_of_noticed noMerge (by decide)) ?_ rfl).1.mpr ?_⟩
  · rw [envs]
    unfold OneEnvelopePerSeq
    decide
  · intro env name latest
    have first : InTime (accepted "r" joinInTime) (bobJoinsAs "Bob" 0) :=
      ⟨[], [bobIsAlive 1], envs, by simp⟩
    have onlyName : ∀ other otherName, other ∈ accepted "r" joinInTime →
        NamedJoin "bob" otherName other →
        other = bobJoinsAs "Bob" 0 ∧ otherName = "Bob" := by
      intro other otherName member named
      rw [envs] at member
      simp only [List.mem_cons, List.not_mem_nil, or_false] at member
      rcases member with rfl | rfl
      · exact ⟨rfl, (Option.some.inj (Signal.join.inj named.2)).symm⟩
      · cases named.2
    obtain ⟨rfl, rfl⟩ := onlyName env name latest.member latest.named
    refine ⟨_, first, latest.named, fun other otherName inTime named => ?_⟩
    rw [(onlyName other otherName inTime.mem named).1]

/-- In the other order the name is lost: the member shows none, although all
that was delivered is the same. -/
theorem late_join_loses_name :
    StaysBelowCap ((new "r" "me").withMaxMembers 1) joinTooLate ∧
      OneEnvelopePerSeq (accepted "r" joinTooLate) ∧
      (∀ env, env ∈ accepted "r" joinTooLate ↔
        env ∈ accepted "r" joinInTime) ∧
      ((((new "r" "me").withMaxMembers 1).after joinInTime).member "bob").map
        Member.displayName = some (some "Bob") ∧
      ∃ m, (((new "r" "me").withMaxMembers 1).after joinTooLate).member
          "bob" = some m ∧
        m.displayName = none ∧
        ¬ShowsLatestName (accepted "r" joinTooLate) "bob" m.displayName := by
  have noMerge : ∀ snap, .mergeSnapshot snap ∉ joinTooLate := by
    simp [joinTooLate]
  have envs : accepted "r" joinTooLate = [bobIsAlive 1, bobJoinsAs "Bob" 0] := by
    decide
  have inTimeEnvs :
      accepted "r" joinInTime = [bobJoinsAs "Bob" 0, bobIsAlive 1] := by
    decide
  refine ⟨staysBelowCap_of_noticed noMerge (by decide), ?_, ?_, rfl, _, rfl,
    rfl, ?_⟩
  · rw [envs]
    unfold OneEnvelopePerSeq
    decide
  · rw [envs, inTimeEnvs]
    simp [or_comm]
  · intro shows
    have latest : LatestJoin (accepted "r" joinTooLate) "bob" "Bob"
        (bobJoinsAs "Bob" 0) := by
      rw [envs]
      refine ⟨by simp, ⟨rfl, rfl⟩, fun other member otherName named => ?_⟩
      simp only [List.mem_cons, List.not_mem_nil, or_false] at member
      rcases member with rfl | rfl
      · cases named.2
      · exact le_refl _
    cases shows.named _ _ latest

end Room
end CeMeet
