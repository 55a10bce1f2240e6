import CeMeet.Foundation.Mirror
import CeMeet.Room.Operation

/-!
# The answers of a room as a change log

Whoever follows the answers of a room can keep a copy of its set of present
members without looking at it: an effect names the flip of one member, a sweep
lists the members it removed, and a merge lists the members it flipped.
-/

namespace CeMeet

/-- Whether an effect names the flip of a member's presence. -/
def Effect.Reports (effect : Effect) (peer : String) (before after : Bool) :
    Prop :=
  match effect with
  | .joined nodeId => nodeId = peer ∧ before = false ∧ after = true
  | .left nodeId => nodeId = peer ∧ before = true ∧ after = false
  | _ => before = after

namespace Room

/-- Whether a member is present. -/
def isPresent (room : Room) (peer : String) : Bool :=
  (room.member peer).any Member.present

/-- The set of present members. -/
def presentSet (room : Room) : Finset String :=
  room.members.keys.filter fun peer => room.isPresent peer

/-- Follow an answer with a copy of the set of present members. -/
def Answer.follow (copy : Finset String) : Answer → Finset String
  | .effect (.joined nodeId) => insert nodeId copy
  | .effect (.left nodeId) => copy.erase nodeId
  | .pruned nodeIds => Mirror.remove copy nodeIds
  | .changed nodeIds => Mirror.toggleAll copy nodeIds
  | .effect _ | .allocated _ | .resumed _ => copy

/-- The members that an answer reports a change of. -/
def Answer.named : Answer → List String
  | .effect (.joined nodeId) | .effect (.left nodeId) => [nodeId]
  | .pruned nodeIds | .changed nodeIds => nodeIds
  | .effect _ | .allocated _ | .resumed _ => []

/-- An answer accounts for the change of the list of present members in a step:
it announces as new only members missing from the copy and as gone only members
in the copy, and names every member whose presence changed. -/
structure Answer.AccountsFor (answer : Answer) (copy : Finset String)
    (before after : List String) : Prop where
  /-- Only a missing member joins. -/
  joined : ∀ nodeId, answer = .effect (.joined nodeId) → nodeId ∉ copy
  /-- Only a member in the copy leaves. -/
  left : ∀ nodeId, answer = .effect (.left nodeId) → nodeId ∈ copy
  /-- No member's presence changes unless the answer names it. -/
  unnamed : ∀ nodeId, nodeId ∉ answer.named →
    (nodeId ∈ after ↔ nodeId ∈ before)

/-- The copy kept by someone who follows a list of answers. -/
def mirror (start : Finset String) (answers : List Answer) : Finset String :=
  answers.foldl Answer.follow start

/-! ## Presence of one member -/

theorem isPresent_of_lookup
    {room : Room} {peer : String} {m : Member}
    (found : room.members.lookup peer = some m) :
    room.isPresent peer = m.present := by
  rw [isPresent, member, found]
  rfl

theorem isPresent_of_unknown
    {room : Room} {peer : String}
    (unknown : room.members.lookup peer = none) :
    room.isPresent peer = false := by
  rw [isPresent, member, unknown]
  rfl

theorem isPresent_congr
    {left right : Room} {peer : String}
    (same : left.members.lookup peer = right.members.lookup peer) :
    left.isPresent peer = right.isPresent peer := by
  rw [isPresent, isPresent, member, member, same]

theorem isPresent_store
    (room : Room) {m : Member} {peer : String}
    (atPeer : m.nodeId = peer) :
    (room.store m).isPresent peer = m.present := by
  subst atPeer
  exact isPresent_of_lookup (Indexed.lookup_insert_self m room.members)

/-- Presence is what the register asserts. -/
theorem isPresentAt_register (room : Room) (peer : String) :
    isPresentAt (room.register peer) = room.isPresent peer := by
  cases found : room.members.lookup peer with
  | none =>
      rw [register_of_unknown found, isPresent_of_unknown found]
      rfl
  | some m =>
      rw [register_of_lookup found, isPresent_of_lookup found]
      exact Bool.not_not m.present

theorem mem_presentSet {room : Room} {peer : String} :
    peer ∈ room.presentSet ↔ room.isPresent peer = true := by
  rw [presentSet, Finset.mem_filter, and_iff_right_iff_imp]
  intro present
  by_contra unknown
  rw [isPresent_of_unknown (Indexed.notMem_keys_iff.mp unknown)] at present
  cases present

/-- The list of present members is the sorted set of present members. -/
theorem present_eq_sort_presentSet (room : Room) :
    room.present = room.presentSet.sort (· ≤ ·) := by
  rw [present_eq_sort]
  simp only [isPresentAt_register]
  rfl

/-! ## Effects -/

theorem touch_isPresent
    (room : Room) (nodeId : String) (sentAt : UInt64)
    (eligible : Member → Bool) (peer : String) :
    (room.touch nodeId sentAt eligible).isPresent peer =
      room.isPresent peer := by
  rw [← isPresentAt_register, ← isPresentAt_register, register_touch]

theorem reports_store
    {effect : Effect} {before : Bool} {m : Member} {peer : String}
    (room : Room)
    (atPeer : m.nodeId = peer)
    (reports : effect.Reports peer before m.present) :
    effect.Reports peer before ((room.store m).isPresent peer) := by
  rwa [isPresent_store room atPeer]

theorem lww_reports
    (room : Room) (nodeId : String) (seq sentAt : UInt64) (present : Bool)
    (displayName : Option String) :
    (room.lww nodeId seq sentAt present displayName).1.Reports nodeId
      (room.isPresent nodeId)
      ((room.lww nodeId seq sentAt present displayName).2.isPresent nodeId) := by
  have result := lww_cases room nodeId seq sentAt present displayName
  generalize room.lww nodeId seq sentAt present displayName = next at result ⊢
  cases result with
  | full | older => exact rfl
  | creates unknown =>
      rw [isPresent_of_unknown unknown]
      refine reports_store room rfl ?_
      cases present
      · exact rfl
      · exact ⟨rfl, rfl, rfl⟩
  | removes found atNode same asserted wasPresent =>
      rw [isPresent_of_lookup found]
      exact reports_store room atNode ⟨rfl, wasPresent, rfl⟩
  | keeps found atNode =>
      rw [isPresent_of_lookup found]
      exact reports_store room atNode rfl
  | @newer m found atNode =>
      rw [isPresent_of_lookup found]
      refine reports_store room atNode ?_
      cases m.present <;> cases present
      · exact rfl
      · exact ⟨rfl, rfl, rfl⟩
      · exact ⟨rfl, rfl, rfl⟩
      · exact rfl

theorem mediaLww_reports
    (room : Room) (nodeId : String) (seq sentAt : UInt64)
    (update : MediaUpdate) :
    (room.mediaLww nodeId seq sentAt update).1.Reports nodeId
      (room.isPresent nodeId)
      ((room.mediaLww nodeId seq sentAt update).2.isPresent nodeId) := by
  have result := mediaLww_cases room nodeId seq sentAt update
  generalize room.mediaLww nodeId seq sentAt update = next at result ⊢
  cases result with
  | full => exact rfl
  | creates unknown free blank atNode =>
      rw [isPresent_of_unknown unknown]
      refine reports_store room atNode ?_
      rw [MediaUpdate.applyTo_present, blank]
      rfl
  | older found older refreshed atNode =>
      rw [isPresent_of_lookup found]
      refine reports_store room atNode ?_
      rw [refreshed]
      rfl
  | newer found newer refreshed atNode =>
      rw [isPresent_of_lookup found]
      refine reports_store room atNode ?_
      rw [MediaUpdate.applyTo_present, refreshed]
      rfl

/-- The effect of an envelope names the flip of its sender's presence. -/
theorem apply_reports (room : Room) (env : SignalEnvelope) :
    (room.apply env).1.Reports env.sender (room.isPresent env.sender)
      ((room.apply env).2.isPresent env.sender) := by
  unfold apply
  split
  case isTrue => exact rfl
  case isFalse =>
    cases env.signal with
    | offer | answer | iceCandidate | iceEnd | kick | forceMute | recording
    | endRoom => exact rfl
    | reaction | chat => exact (touch_isPresent _ _ _ _ _).symm
    | media | screenShare | raiseHand => exact mediaLww_reports _ _ _ _ _
    | join | leave => exact lww_reports _ _ _ _ _ _
    | keepalive =>
        have reports := lww_reports room env.sender env.seq env.sentAt true none
        dsimp only
        split
        next result => exact result ▸ reports
        next result =>
          rw [result] at reports
          exact reports.trans (touch_isPresent _ _ _ _ _).symm
        next result => exact result ▸ reports

theorem presentSet_apply (room : Room) (env : SignalEnvelope) :
    (room.apply env).2.presentSet =
      Answer.follow room.presentSet (.effect (room.apply env).1) := by
  have others : ∀ peer ≠ env.sender,
      (room.apply env).2.isPresent peer = room.isPresent peer :=
    fun peer different =>
      isPresent_congr ((apply_writes room env).lookup_of_ne different)
  have reports := apply_reports room env
  generalize (room.apply env).1 = effect at reports
  ext peer
  by_cases atSender : peer = env.sender
  · subst atSender
    cases effect with
    | joined nodeId =>
        obtain ⟨rfl, _, present⟩ := reports
        simp [Answer.follow, mem_presentSet, present]
    | left nodeId =>
        obtain ⟨rfl, _, absent⟩ := reports
        simp [Answer.follow, mem_presentSet, absent]
    | directed | refreshed | mediaChanged | reaction | chat | recording
    | roomEnded | noChange =>
        rw [mem_presentSet, ← reports]
        exact mem_presentSet.symm
  · rw [mem_presentSet, others peer atSender, ← mem_presentSet]
    cases effect with
    | joined nodeId =>
        obtain ⟨rfl, _, _⟩ := reports
        simp [Answer.follow, atSender]
    | left nodeId =>
        obtain ⟨rfl, _, _⟩ := reports
        simp [Answer.follow, atSender]
    | directed | refreshed | mediaChanged | reaction | chat | recording
    | roomEnded | noChange => exact Iff.rfl

/-! ## Sweeps -/

theorem isPresent_expire (now staleSecs : UInt64) (m : Member) :
    (expire now staleSecs m).present = (m.present && !isStale now staleSecs m) := by
  unfold expire
  cases stale : isStale now staleSecs m <;> simp

/-- A sweep lists the stale members. -/
theorem mem_pruneStale {room : Room} {now staleSecs : UInt64} {peer : String} :
    peer ∈ (room.pruneStale now staleSecs).1 ↔
      ∃ m, room.members.lookup peer = some m ∧
        isStale now staleSecs m = true := by
  unfold pruneStale
  rw [Multiset.mem_sort, Multiset.mem_map]
  constructor
  · rintro ⟨m, swept, rfl⟩
    obtain ⟨member, stale⟩ := Multiset.mem_filter.mp swept
    exact ⟨m, Indexed.mem_values_iff.mp member, stale⟩
  · rintro ⟨m, found, stale⟩
    have atPeer : m.nodeId = peer := Indexed.key_of_lookup found
    refine ⟨m, Multiset.mem_filter.mpr ⟨?_, stale⟩, atPeer⟩
    exact Indexed.mem_values_iff.mpr (atPeer.symm ▸ found)

theorem presentSet_pruneStale (room : Room) (now staleSecs : UInt64) :
    (room.pruneStale now staleSecs).2.presentSet =
      Answer.follow room.presentSet
        (.pruned (room.pruneStale now staleSecs).1) := by
  ext peer
  rw [Answer.follow, Mirror.mem_remove, mem_pruneStale, mem_presentSet,
    mem_presentSet]
  have swept : (room.pruneStale now staleSecs).2.members.lookup peer =
      (room.members.lookup peer).map (expire now staleSecs) :=
    Indexed.lookup_map _ (expire_nodeId now staleSecs) _ _
  cases found : room.members.lookup peer with
  | none =>
      rw [isPresent_of_unknown (by rw [swept, found]; rfl),
        isPresent_of_unknown found]
      simp
  | some m =>
      rw [isPresent_of_lookup (by rw [swept, found]; rfl),
        isPresent_of_lookup found, isPresent_expire]
      simp

/-! ## Merges -/

/-- From one room to another exactly the listed members flipped. -/
structure Flips (room next : Room) (flipped : List String) : Prop where
  /-- No member is listed twice. -/
  nodup : flipped.Nodup
  /-- The listed members are those whose presence differs. -/
  mem_iff : ∀ peer, peer ∈ flipped ↔ next.isPresent peer ≠ room.isPresent peer

/-- What merging the record of a member adds to the list of changes. -/
def Adds (changed : List String) (room : Room) (peer : String)
    (merged : List String × Room) : Prop :=
  merged.1 =
    if merged.2.isPresent peer = room.isPresent peer then changed
    else changed ++ [peer]

theorem adds_store
    {changed added : List String} {room : Room} {m : Member} {peer : String}
    (atPeer : m.nodeId = peer)
    (listed : added =
      if m.present = room.isPresent peer then changed else changed ++ [peer]) :
    Adds changed room peer (added, room.store m) := by
  unfold Adds
  rwa [isPresent_store room atPeer]

theorem mergeMember_adds
    (changed : List String) (room : Room) (om : Member) :
    Adds changed room om.nodeId (mergeMember (changed, room) om) := by
  have merges := mergeMember_cases changed room om
  generalize mergeMember (changed, room) om = merged at merges ⊢
  cases merges with
  | unknown unknown =>
      refine adds_store rfl ?_
      rw [isPresent_of_unknown unknown]
      cases om.present <;> rfl
  | newer found atNode newer =>
      refine adds_store atNode ?_
      rw [isPresent_of_lookup found, atNode]
      simp only [ne_eq, ite_not, eq_comm]
  | removes found atNode same absent present =>
      refine adds_store atNode ?_
      rw [isPresent_of_lookup found, present, atNode]
      rfl
  | keeps found atNode =>
      refine adds_store atNode ?_
      rw [isPresent_of_lookup found, if_pos rfl]
  | older => exact (if_pos rfl).symm

theorem mergeMember_isPresent_of_ne
    (changed : List String) (room : Room) {om : Member} {peer : String}
    (different : peer ≠ om.nodeId) :
    (mergeMember (changed, room) om).2.isPresent peer = room.isPresent peer :=
  isPresent_congr (mergeMember_lookup_of_ne changed room different)

theorem foldl_mergeMember_isPresent
    {oms : List Member} {peer : String}
    (unlisted : peer ∉ oms.map Member.nodeId)
    (changed : List String) (room : Room) :
    (oms.foldl mergeMember (changed, room)).2.isPresent peer =
      room.isPresent peer := by
  induction oms generalizing changed room with
  | nil => rfl
  | cons om oms inductionHypothesis =>
      rw [List.map_cons, List.mem_cons, not_or] at unlisted
      rw [List.foldl_cons, inductionHypothesis unlisted.2,
        mergeMember_isPresent_of_ne changed room unlisted.1]

/-- The members that flip from a room that differs in one more member. -/
theorem Flips.cons
    {room middle next : Room} {peer : String} {flipped : List String}
    (flips : Flips middle next flipped)
    (untouched : next.isPresent peer = middle.isPresent peer)
    (others : ∀ other ≠ peer, middle.isPresent other = room.isPresent other)
    (flip : middle.isPresent peer ≠ room.isPresent peer) :
    Flips room next (peer :: flipped) where
  nodup := by
    refine List.nodup_cons.mpr ⟨?_, flips.nodup⟩
    rw [flips.mem_iff, untouched]
    exact not_not.mpr rfl
  mem_iff := by
    intro other
    rw [List.mem_cons]
    by_cases here : other = peer
    · subst here
      exact iff_of_true (Or.inl rfl) (untouched.symm ▸ flip)
    · rw [or_iff_right here, flips.mem_iff, others other here]

/-- The members that flip are the same from a room with the same members
present. -/
theorem Flips.of_same
    {room middle next : Room} {flipped : List String}
    (flips : Flips middle next flipped)
    (same : ∀ peer, middle.isPresent peer = room.isPresent peer) :
    Flips room next flipped where
  nodup := flips.nodup
  mem_iff := fun peer => by rw [flips.mem_iff, same]

/-- Merging records of distinct members lists the members it flipped. -/
theorem foldl_mergeMember_flips
    {oms : List Member}
    (distinct : (oms.map Member.nodeId).Nodup)
    (changed : List String) (room : Room) :
    ∃ flipped, (oms.foldl mergeMember (changed, room)).1 = changed ++ flipped ∧
      Flips room (oms.foldl mergeMember (changed, room)).2 flipped := by
  induction oms generalizing changed room with
  | nil => exact ⟨[], by simp, .nil, by simp⟩
  | cons om oms inductionHypothesis =>
      rw [List.map_cons, List.nodup_cons] at distinct
      obtain ⟨fresh, distinct⟩ := distinct
      have adds := mergeMember_adds changed room om
      have others := fun peer (different : peer ≠ om.nodeId) =>
        mergeMember_isPresent_of_ne changed room different
      rw [List.foldl_cons]
      generalize mergeMember (changed, room) om = merged at adds others ⊢
      obtain ⟨flipped, listed, flips⟩ :=
        inductionHypothesis distinct merged.1 merged.2
      have untouched := foldl_mergeMember_isPresent fresh merged.1 merged.2
      unfold Adds at adds
      split at adds
      case isTrue same =>
        refine ⟨flipped, adds ▸ listed, flips.of_same fun peer => ?_⟩
        by_cases here : peer = om.nodeId
        · exact here ▸ same
        · exact others peer here
      case isFalse flip =>
        refine ⟨om.nodeId :: flipped, ?_, flips.cons untouched others flip⟩
        rw [List.append_cons, ← adds]
        exact listed

theorem presentSet_mergeSnapshot
    (room : Room) {other : RoomSnapshot}
    (distinct : (other.members.map Member.nodeId).Nodup) :
    (room.mergeSnapshot other).2.presentSet =
      Answer.follow room.presentSet (.changed (room.mergeSnapshot other).1) := by
  unfold mergeSnapshot
  split
  case isTrue => rfl
  case isFalse =>
    obtain ⟨flipped, listed, flips⟩ :=
      foldl_mergeMember_flips distinct [] room
    rw [List.nil_append] at listed
    ext peer
    dsimp only
    rw [Answer.follow, listed,
      Mirror.mem_toggleAll ((flipped.mergeSort_perm _).nodup_iff.mpr flips.nodup),
      List.mem_mergeSort, flips.mem_iff, mem_presentSet, mem_presentSet]
    generalize room.isPresent peer = before
    generalize Room.isPresent _ peer = after
    cases before <;> cases after <;> simp

/-! ## Main result -/

/-- Whether a step merges only a snapshot of distinct members. -/
def Operation.Distinct : Operation → Prop
  | .mergeSnapshot other => (other.members.map Member.nodeId).Nodup
  | _ => True

/-- Following the answer to one step keeps the copy. -/
theorem presentSet_operate
    (room : Room) {operation : Operation}
    (distinct : operation.Distinct) :
    (room.operate operation).2.presentSet =
      Answer.follow room.presentSet (room.operate operation).1 := by
  cases operation with
  | apply env => exact presentSet_apply room env
  | pruneStale now staleSecs => exact presentSet_pruneStale room now staleSecs
  | mergeSnapshot other => exact presentSet_mergeSnapshot room distinct
  | nextOutboundSeq =>
      obtain ⟨seq, nextSeq, allocated⟩ := operate_nextOutboundSeq room
      rw [allocated]
      rfl
  | resumeOutboundFrom floor => rfl

/-- An answer moves only the members it names. -/
theorem mem_follow_of_unnamed
    {answer : Answer} {copy : Finset String} {nodeId : String}
    (unnamed : nodeId ∉ answer.named) :
    nodeId ∈ answer.follow copy ↔ nodeId ∈ copy := by
  cases answer with
  | effect effect =>
      cases effect with
      | joined other =>
          have different := List.mem_singleton.not.mp unnamed
          simp [Answer.follow, different]
      | left other =>
          have different := List.mem_singleton.not.mp unnamed
          simp [Answer.follow, different]
      | directed | refreshed | mediaChanged | reaction | chat | recording
      | roomEnded | noChange => exact Iff.rfl
  | pruned nodeIds =>
      rw [Answer.follow, Mirror.mem_remove]
      exact and_iff_left unnamed
  | changed nodeIds => exact Mirror.mem_toggleAll_of_notMem unnamed
  | allocated | resumed => exact Iff.rfl

theorem accountsFor_operate
    (room : Room) {operation : Operation}
    (distinct : operation.Distinct) :
    (room.operate operation).1.AccountsFor room.presentSet room.present
      (room.operate operation).2.present where
  joined := by
    intro nodeId joined
    cases operation with
    | apply env =>
        have joins : (room.apply env).1 = .joined nodeId :=
          Answer.effect.inj joined
        have reports := apply_reports room env
        rw [joins] at reports
        obtain ⟨rfl, absent, _⟩ := reports
        rw [mem_presentSet, absent]
        exact Bool.false_ne_true
    | nextOutboundSeq =>
        obtain ⟨seq, nextSeq, allocated⟩ := operate_nextOutboundSeq room
        rw [allocated] at joined
        cases joined
    | pruneStale | mergeSnapshot | resumeOutboundFrom => cases joined
  left := by
    intro nodeId left
    cases operation with
    | apply env =>
        have leaves : (room.apply env).1 = .left nodeId :=
          Answer.effect.inj left
        have reports := apply_reports room env
        rw [leaves] at reports
        obtain ⟨rfl, present, _⟩ := reports
        exact mem_presentSet.mpr present
    | nextOutboundSeq =>
        obtain ⟨seq, nextSeq, allocated⟩ := operate_nextOutboundSeq room
        rw [allocated] at left
        cases left
    | pruneStale | mergeSnapshot | resumeOutboundFrom => cases left
  unnamed := by
    intro nodeId unnamed
    rw [present_eq_sort_presentSet, present_eq_sort_presentSet,
      Finset.mem_sort, Finset.mem_sort, presentSet_operate room distinct]
    exact mem_follow_of_unnamed unnamed

/-- The copy kept along a run with distinct members in every merged snapshot is
the set of present members. -/
theorem mirror_answers
    (room : Room) {operations : List Operation}
    (distinct : ∀ operation ∈ operations, operation.Distinct) :
    mirror room.presentSet (room.answers operations) =
      (room.after operations).presentSet :=
  (Transducer.view_final presentSet Answer.follow operations
    fun current operation member =>
      presentSet_operate current (distinct operation member)).symm

theorem toFinset_present (room : Room) :
    room.present.toFinset = room.presentSet := by
  rw [present_eq_sort_presentSet, Finset.sort_toFinset]

/-- Along every run the copy kept from the answers is the set of present
members, and every answer accounts for the change of its step. -/
theorem answers_account_for_present
    (room : Room) (operations : List Operation)
    (distinct : ∀ other, .mergeSnapshot other ∈ operations →
      (other.members.map Member.nodeId).Nodup) :
    (∀ done rest, operations = done ++ rest →
        (room.after done).present =
          (mirror room.present.toFinset (room.answers done)).sort (· ≤ ·)) ∧
      ∀ done operation rest, operations = done ++ operation :: rest →
        ((room.after done).operate operation).1.AccountsFor
          (mirror room.present.toFinset (room.answers done))
          (room.after done).present
          ((room.after done).operate operation).2.present := by
  have distinctSteps : ∀ operation ∈ operations, operation.Distinct := by
    intro operation member
    cases operation with
    | mergeSnapshot other => exact distinct other member
    | apply | pruneStale | nextOutboundSeq | resumeOutboundFrom => trivial
  have copied : ∀ done rest, operations = done ++ rest →
      mirror room.present.toFinset (room.answers done) =
        (room.after done).presentSet := by
    intro done rest split
    rw [toFinset_present]
    apply mirror_answers
    intro operation member
    exact distinctSteps operation (split ▸ List.mem_append_left rest member)
  constructor
  · intro done rest split
    rw [copied done rest split, present_eq_sort_presentSet]
  · intro done operation rest split
    rw [copied done _ split]
    apply accountsFor_operate
    exact distinctSteps operation (by simp [split])

/-- A member joins, a merge brings another one, and a sweep removes both. -/
def annVisits : List Operation :=
  [.apply ((SignalEnvelope.broadcast "r" 0 10 (.join none)).withSender "ann"),
    .mergeSnapshot
      { roomId := "r"
        me := "host"
        nextSeq := 0
        members :=
          [{ nodeId := "ann", displayName := none, present := true,
             lastSeq := 0, lastSeen := 10 },
            { nodeId := "bob", displayName := none, present := true,
              lastSeq := 4, lastSeen := 12 }] },
    .pruneStale 100 30]

/-- The copy kept of the visits agrees with the room at the end. -/
theorem annVisits_accounted_for :
    ((new "r" "me").after annVisits).present =
      (mirror (new "r" "me").present.toFinset
        ((new "r" "me").answers annVisits)).sort (· ≤ ·) :=
  (answers_account_for_present (new "r" "me") annVisits
    (by simp [annVisits])).1 annVisits [] rfl

end Room
end CeMeet
