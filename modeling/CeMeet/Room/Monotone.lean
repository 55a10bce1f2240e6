import CeMeet.Room.Operation

/-!
# Registers only ascend

No operation forgets a member or takes one of its sequence numbers or its
liveness back.  An absent member comes back only by an assertion of presence,
or a merged record, that is newer than the absence.
-/

namespace CeMeet

/-- The numbers of one record are all at most those of another. -/
structure Member.Advances (m next : Member) : Prop where
  lastSeq : m.lastSeq ≤ next.lastSeq
  mediaSeq : m.mediaSeq ≤ next.mediaSeq
  shareSeq : m.shareSeq ≤ next.shareSeq
  handSeq : m.handSeq ≤ next.handSeq
  lastSeen : m.lastSeen ≤ next.lastSeen

namespace Member.Advances

theorem refl (m : Member) : m.Advances m where
  lastSeq := le_rfl
  mediaSeq := le_rfl
  shareSeq := le_rfl
  handSeq := le_rfl
  lastSeen := le_rfl

theorem trans
    {m next last : Member}
    (first : m.Advances next)
    (second : next.Advances last) :
    m.Advances last where
  lastSeq := first.lastSeq.trans second.lastSeq
  mediaSeq := first.mediaSeq.trans second.mediaSeq
  shareSeq := first.shareSeq.trans second.shareSeq
  handSeq := first.handSeq.trans second.handSeq
  lastSeen := first.lastSeen.trans second.lastSeen

end Member.Advances

/-- An accepted media update raises the floor of its dimension. -/
theorem MediaUpdate.advances_applyTo
    {update : MediaUpdate} {seq : UInt64} {m : Member}
    (accepted : update.seqFloor m ≤ seq) :
    m.Advances (update.applyTo seq m) := by
  have raised := accepted.trans (UInt64.le_saturatingAdd seq 1)
  cases update with
  | av => exact { Member.Advances.refl m with mediaSeq := raised }
  | sharing => exact { Member.Advances.refl m with shareSeq := raised }
  | hand => exact { Member.Advances.refl m with handSeq := raised }

/-- A presence signal that is not a leave asserts presence. -/
theorem Signal.asserts_of_isPresence
    {signal : Signal}
    (presence : signal.isPresence = true)
    (stays : signal.isLeave = false) :
    signal = .keepalive ∨ ∃ displayName, signal = .join displayName := by
  cases signal with
  | join displayName => exact Or.inr ⟨displayName, rfl⟩
  | keepalive => exact Or.inl rfl
  | leave => cases stays
  | offer | answer | iceCandidate | iceEnd | media | screenShare | raiseHand
  | reaction | chat | recording | kick | forceMute | endRoom => cases presence

namespace Room

/-- Every member stays known, with numbers that only ascend. -/
def Advances (room next : Room) : Prop :=
  ∀ peer m, room.members.lookup peer = some m →
    ∃ later, next.members.lookup peer = some later ∧ m.Advances later

namespace Advances

variable {room next last : Room}

theorem refl (room : Room) : Advances room room :=
  fun _ m found => ⟨m, found, .refl m⟩

theorem trans (first : Advances room next) (second : Advances next last) :
    Advances room last := by
  intro peer m found
  obtain ⟨later, nextFound, advances⟩ := first peer m found
  obtain ⟨latest, lastFound, further⟩ := second peer later nextFound
  exact ⟨latest, lastFound, advances.trans further⟩

/-- Writing back an advanced record. -/
theorem store
    {m written : Member} {peer : String}
    (found : room.members.lookup peer = some m)
    (atPeer : written.nodeId = peer)
    (advances : m.Advances written) :
    Advances room (room.store written) := by
  intro other held otherFound
  by_cases here : other = peer
  · subst here
    cases found.symm.trans otherFound
    exact ⟨written, atPeer ▸ Indexed.lookup_insert_self written room.members,
      advances⟩
  · refine ⟨held, ?_, .refl held⟩
    exact (Indexed.lookup_insert_of_ne _ (atPeer.symm ▸ here)).trans otherFound

/-- Writing the record of an unknown member. -/
theorem store_unknown
    {written : Member} {peer : String}
    (unknown : room.members.lookup peer = none)
    (atPeer : written.nodeId = peer) :
    Advances room (room.store written) := by
  intro other held otherFound
  refine ⟨held, ?_, .refl held⟩
  have elsewhere : other ≠ written.nodeId := by
    rintro rfl
    rw [atPeer, unknown] at otherFound
    cases otherFound
  exact (Indexed.lookup_insert_of_ne _ elsewhere).trans otherFound

end Advances

theorem touch_advances
    (room : Room) (nodeId : String) (sentAt : UInt64)
    (eligible : Member → Bool) :
    Advances room (room.touch nodeId sentAt eligible) := by
  have result := touch_cases room nodeId sentAt eligible
  generalize room.touch nodeId sentAt eligible = next at result ⊢
  cases result with
  | unknown | kept => exact .refl room
  | seen found atNode accepted later =>
      exact .store found atNode
        { Member.Advances.refl _ with lastSeen := later.le }

theorem lww_advances
    (room : Room) (nodeId : String) (seq sentAt : UInt64) (present : Bool)
    (displayName : Option String) :
    Advances room (room.lww nodeId seq sentAt present displayName).2 := by
  have result := lww_cases room nodeId seq sentAt present displayName
  generalize room.lww nodeId seq sentAt present displayName = next at result ⊢
  have seen : ∀ m : Member, m.lastSeen ≤ max sentAt m.lastSeen :=
    fun m => le_max_right _ _
  cases result with
  | full | older => exact .refl room
  | creates unknown => exact .store_unknown unknown rfl
  | removes found atNode | keeps found atNode =>
      exact .store found atNode
        { Member.Advances.refl _ with lastSeen := seen _ }
  | newer found atNode newer =>
      exact .store found atNode
        { Member.Advances.refl _ with
          lastSeq := newer.le
          lastSeen := seen _ }

theorem mediaLww_advances
    (room : Room) (nodeId : String) (seq sentAt : UInt64)
    (update : MediaUpdate) :
    Advances room (room.mediaLww nodeId seq sentAt update).2 := by
  have result := mediaLww_cases room nodeId seq sentAt update
  generalize room.mediaLww nodeId seq sentAt update = next at result ⊢
  have seen : ∀ m : Member,
      m.Advances { m with lastSeen := max sentAt m.lastSeen } :=
    fun m => { Member.Advances.refl m with lastSeen := le_max_right _ _ }
  cases result with
  | full => exact .refl room
  | creates unknown free blank atNode => exact .store_unknown unknown atNode
  | older found older refreshed atNode =>
      exact .store found atNode (refreshed ▸ seen _)
  | newer found newer refreshed atNode =>
      refine .store found atNode ((refreshed ▸ seen _).trans ?_)
      apply MediaUpdate.advances_applyTo
      subst refreshed
      cases update <;> exact not_lt.mp newer

theorem apply_advances (room : Room) (env : SignalEnvelope) :
    Advances room (room.apply env).2 := by
  unfold apply
  split
  · exact .refl room
  · cases env.signal with
    | offer | answer | iceCandidate | iceEnd | kick | forceMute | recording
    | endRoom => exact .refl room
    | reaction | chat => exact touch_advances _ _ _ _
    | media | screenShare | raiseHand => exact mediaLww_advances _ _ _ _ _
    | join | leave => exact lww_advances _ _ _ _ _ _
    | keepalive =>
        have written := lww_advances room env.sender env.seq env.sentAt true
          none
        dsimp only
        split
        next result => exact result ▸ written
        next result => exact (result ▸ written).trans (touch_advances _ _ _ _)
        next result => exact result ▸ written

theorem expire_advances (now staleSecs : UInt64) (m : Member) :
    m.Advances (expire now staleSecs m) := by
  unfold expire
  split
  · exact { Member.Advances.refl m with }
  · exact .refl m

theorem pruneStale_advances (room : Room) (now staleSecs : UInt64) :
    Advances room (room.pruneStale now staleSecs).2 := by
  intro peer m found
  refine ⟨expire now staleSecs m, ?_, expire_advances now staleSecs m⟩
  exact (Indexed.lookup_map _ (expire_nodeId now staleSecs) _ _).trans
    (by rw [found]; rfl)

theorem mergeMember_advances
    (changed : List String) (room : Room) (om : Member) :
    Advances room (mergeMember (changed, room) om).2 := by
  have merges := mergeMember_cases changed room om
  generalize mergeMember (changed, room) om = merged at merges ⊢
  have seen : ∀ m : Member, m.lastSeen ≤ max om.lastSeen m.lastSeen :=
    fun m => le_max_right _ _
  cases merges with
  | unknown unknown => exact .store_unknown unknown rfl
  | @newer m found atNode newer =>
      exact .store found atNode
        { Member.Advances.refl m with
          lastSeq := newer.le
          lastSeen := seen m }
  | @removes m found atNode | @keeps m found atNode =>
      exact .store found atNode
        { Member.Advances.refl m with lastSeen := seen m }
  | older => exact .refl room

theorem mergeSnapshot_advances (room : Room) (other : RoomSnapshot) :
    Advances room (room.mergeSnapshot other).2 :=
  mergeSnapshot_invariant (motive := Advances room) (.refl room)
    fun changed current om _ advances =>
      advances.trans (mergeMember_advances changed current om)

theorem operate_advances (room : Room) (operation : Operation) :
    Advances room (room.operate operation).2 := by
  cases operation with
  | apply env => exact apply_advances room env
  | pruneStale now staleSecs => exact pruneStale_advances room now staleSecs
  | mergeSnapshot other => exact mergeSnapshot_advances room other
  | nextOutboundSeq =>
      obtain ⟨seq, nextSeq, allocated⟩ := operate_nextOutboundSeq room
      rw [allocated]
      exact fun _ m found => ⟨m, found, .refl m⟩
  | resumeOutboundFrom floor => exact fun _ m found => ⟨m, found, .refl m⟩

/-- Registers only ascend along a run. -/
theorem after_advances (room : Room) (operations : List Operation) :
    Advances room (room.after operations) :=
  Transducer.invariant (motive := fun current => Advances room current)
    (.refl room)
    (fun current operation advances =>
      advances.trans (operate_advances current operation))
    operations

/-! ## Absence -/

/-- Whether an operation brings news of a member's presence past a sequence
number: a join or keepalive of the member, or a merged record, with a greater
number. -/
def Operation.Revives (peer : String) (seq : UInt64) : Operation → Prop
  | .apply env =>
      env.sender = peer ∧ seq < env.seq ∧
        (env.signal = .keepalive ∨ ∃ displayName, env.signal = .join displayName)
  | .mergeSnapshot other =>
      ∃ om ∈ other.members, om.nodeId = peer ∧ seq < om.lastSeq
  | .pruneStale .. | .nextOutboundSeq | .resumeOutboundFrom _ => False

/-- A member is absent with at least a given sequence number. -/
def AbsentSince (room : Room) (peer : String) (seq : UInt64) : Prop :=
  ∃ held, seq ≤ held ∧
    room.register peer = (Register.stamp held false : Register UInt64)

theorem absentSince_of_member
    {room : Room} {peer : String} {m : Member}
    (found : room.member peer = some m)
    (absent : m.present = false) :
    room.AbsentSince peer m.lastSeq := by
  refine ⟨m.lastSeq, le_rfl, ?_⟩
  rw [register_of_lookup found, Member.stamp, absent]

theorem AbsentSince.member
    {room : Room} {peer : String} {seq : UInt64}
    (since : room.AbsentSince peer seq) :
    ∃ m, room.member peer = some m ∧ m.present = false := by
  obtain ⟨held, _, absent⟩ := since
  cases found : room.members.lookup peer with
  | none =>
      rw [register_of_unknown found] at absent
      exact absurd absent WithBot.bot_ne_coe
  | some m =>
      rw [register_of_lookup found, WithBot.coe_inj, Member.stamp,
        Register.stamp_inj] at absent
      exact ⟨m, found, absent.2⟩

/-- An absence outlasts every stamp that is not a newer assertion. -/
theorem AbsentSince.write
    {room next : Room} {peer : String} {seq number : UInt64} {present : Bool}
    (since : room.AbsentSince peer seq)
    (joined : next.register peer =
      max (room.register peer) (Register.stamp number present))
    (old : number ≤ seq ∨ present = false) :
    next.AbsentSince peer seq := by
  obtain ⟨held, seqLe, absent⟩ := since
  refine ⟨max held number, le_max_of_le_left seqLe, ?_⟩
  rw [joined, absent, ← WithBot.coe_max, Register.max_stamp_removed]
  exact old.imp_left fun numberLe => numberLe.trans seqLe

theorem AbsentSince.congr
    {room next : Room} {peer : String} {seq : UInt64}
    (since : room.AbsentSince peer seq)
    (same : next.register peer = room.register peer) :
    next.AbsentSince peer seq := by
  obtain ⟨held, seqLe, absent⟩ := since
  exact ⟨held, seqLe, same.trans absent⟩

theorem AbsentSince.hasSlot
    {room : Room} {peer : String} {seq : UInt64}
    (since : room.AbsentSince peer seq) :
    room.HasSlot peer := by
  obtain ⟨m, found, _⟩ := since.member
  exact hasSlot_of_lookup found

theorem AbsentSince.apply
    {room : Room} {peer : String} {seq : UInt64} {env : SignalEnvelope}
    (since : room.AbsentSince peer seq)
    (quiet : ¬Operation.Revives peer seq (.apply env)) :
    (room.apply env).2.AbsentSince peer seq := by
  by_cases ignored : env.roomId ≠ room.roomId ∨ env.sender = ""
  · rw [apply_ignored ignored]
    exact since
  · simp only [not_or, not_not] at ignored
    by_cases atSender : peer = env.sender
    · subst atSender
      have written := register_apply ignored.1 ignored.2 since.hasSlot
      unfold SignalEnvelope.event at written
      split at written
      case isTrue presence =>
        refine since.write written ?_
        cases leaves : env.signal.isLeave with
        | true => exact Or.inr rfl
        | false =>
            refine Or.inl (not_lt.mp fun newer => quiet ⟨rfl, newer, ?_⟩)
            exact Signal.asserts_of_isPresence presence leaves
      case isFalse =>
        refine since.congr (written.trans ?_)
        obtain ⟨held, _, absent⟩ := since
        rw [absent]
        split <;> rfl
    · exact since.congr ((apply_writes room env).register_of_ne atSender)

theorem AbsentSince.mergeMember
    {room : Room} {peer : String} {seq : UInt64} {om : Member}
    (since : room.AbsentSince peer seq)
    (old : om.nodeId = peer → om.lastSeq ≤ seq)
    (changed : List String) :
    (mergeMember (changed, room) om).2.AbsentSince peer seq := by
  have merges := mergeMember_merges changed room om
  by_cases here : om.nodeId = peer
  · subst here
    exact since.write merges.register_self (Or.inl (old rfl))
  · exact since.congr (merges.register_of_ne peer (Ne.symm here))

/-- An absence outlasts every operation that brings no newer presence. -/
theorem AbsentSince.operate
    {room : Room} {peer : String} {seq : UInt64} {operation : Operation}
    (since : room.AbsentSince peer seq)
    (quiet : ¬operation.Revives peer seq) :
    (room.operate operation).2.AbsentSince peer seq := by
  cases operation with
  | apply env => exact since.apply quiet
  | pruneStale now staleSecs =>
      obtain ⟨m, found, absent⟩ := since.member
      have swept : expire now staleSecs m = m := by
        unfold expire isStale
        rw [absent]
        rfl
      refine since.congr (register_congr ?_)
      refine (Indexed.lookup_map _ (expire_nodeId now staleSecs) _ _).trans ?_
      rw [show room.members.lookup peer = some m from found, Option.map_some,
        swept]
  | mergeSnapshot other =>
      refine mergeSnapshot_invariant
        (motive := fun current => current.AbsentSince peer seq) since ?_
      intro changed current om member currentSince
      apply currentSince.mergeMember
      intro atPeer
      by_contra newer
      exact quiet ⟨om, member, atPeer, not_le.mp newer⟩
  | nextOutboundSeq =>
      obtain ⟨number, nextSeq, allocated⟩ := operate_nextOutboundSeq room
      rw [allocated]
      exact since
  | resumeOutboundFrom floor => exact since

theorem AbsentSince.after
    {room : Room} {peer : String} {seq : UInt64} {operations : List Operation}
    (since : room.AbsentSince peer seq)
    (quiet : ∀ operation ∈ operations, ¬operation.Revives peer seq) :
    (room.after operations).AbsentSince peer seq := by
  induction operations generalizing room with
  | nil => exact since
  | cons operation operations inductionHypothesis =>
      rw [List.forall_mem_cons] at quiet
      exact inductionHypothesis (since.operate quiet.1) quiet.2

/-! ## Main result -/

/-- Along every run a known member stays known and its numbers only ascend, and
an absent member stays absent as long as nothing brings newer news of its
presence. -/
theorem registers_ascend
    (room : Room) (done rest : List Operation)
    (peer : String) (m : Member)
    (tracked : (room.after done).member peer = some m) :
    (∃ later, (room.after (done ++ rest)).member peer = some later ∧
        m.Advances later) ∧
      (m.present = false →
        (∀ operation ∈ rest, ¬operation.Revives peer m.lastSeq) →
        ∃ later, (room.after (done ++ rest)).member peer = some later ∧
          later.present = false) := by
  rw [after_append]
  constructor
  · exact after_advances _ rest peer m tracked
  · intro absent quiet
    exact ((absentSince_of_member tracked absent).after quiet).member

/-- A member leaves, and its join arrives once more. -/
def annLeaves : List Operation :=
  [.apply ((SignalEnvelope.broadcast "r" 0 10 (.join none)).withSender "ann"),
    .apply ((SignalEnvelope.broadcast "r" 1 11 .leave).withSender "ann")]

/-- The repeated join does not bring the member back. -/
theorem annLeaves_stays_away :
    ∃ later,
      ((new "r" "me").after
          (annLeaves ++
            [.apply
              ((SignalEnvelope.broadcast "r" 0 10 (.join none)).withSender
                "ann")])).member "ann" = some later ∧
        later.present = false := by
  refine (registers_ascend (new "r" "me") annLeaves _ "ann"
    { nodeId := "ann", displayName := none, present := false, lastSeq := 1,
      lastSeen := 11 } (by decide)).2 rfl ?_
  simp [Operation.Revives, SignalEnvelope.broadcast]

end Room
end CeMeet
