import CeMeet.Foundation.Register
import CeMeet.Room.Steps

/-!
# Presence as a register

The presence half of a member record is a last-writer-wins register with
removal bias, and an absent record is an unwritten one.  Applying an envelope
is one event at the register of its sender, merging a record is a join, and
the digest of a room is its registers in another form.
-/

namespace CeMeet

/-- The stamp a member's presence was last written with. -/
def Member.stamp (m : Member) : Stamp UInt64 :=
  Register.stamp m.lastSeq m.present

namespace Signal

/-- Whether a signal asserts presence or absence. -/
def isPresence : Signal → Bool
  | .join _ | .keepalive | .leave => true
  | _ => false

/-- Whether a signal updates a media dimension. -/
def isMedia : Signal → Bool
  | .media .. | .screenShare _ | .raiseHand _ => true
  | _ => false

/-- Whether a signal asserts absence. -/
def isLeave : Signal → Bool
  | .leave => true
  | _ => false

theorem isMedia_eq_false_of_isPresence
    {signal : Signal} (presence : signal.isPresence = true) :
    signal.isMedia = false := by
  cases signal <;> first | rfl | cases presence

end Signal

namespace SignalEnvelope

/-- The stamp a presence signal writes. -/
def stamp (env : SignalEnvelope) : Stamp UInt64 :=
  Register.stamp env.seq (!env.signal.isLeave)

/-- What an envelope does to the presence register of its sender. -/
def event (env : SignalEnvelope) : Option (Register.Event UInt64) :=
  if env.signal.isPresence then some (.write env.stamp)
  else if env.signal.isMedia then some .placeholder
  else none

end SignalEnvelope

namespace Room

/-- The presence register of a member. -/
def register (room : Room) (peer : String) : Register UInt64 :=
  match room.members.lookup peer with
  | some m => (m.stamp : Register UInt64)
  | none => ⊥

/-- Whether a record for a peer exists or may be created. -/
def HasSlot (room : Room) (peer : String) : Prop :=
  peer ∈ room.members.keys ∨ room.knownCount < room.maxMembers

theorem register_of_lookup
    {room : Room} {peer : String} {m : Member}
    (found : room.members.lookup peer = some m) :
    room.register peer = (m.stamp : Register UInt64) := by
  rw [register, found]

theorem register_of_unknown
    {room : Room} {peer : String}
    (unknown : room.members.lookup peer = none) :
    room.register peer = ⊥ := by
  rw [register, unknown]

theorem register_eq_bot_iff {room : Room} {peer : String} :
    room.register peer = ⊥ ↔ peer ∉ room.members.keys := by
  rw [Indexed.notMem_keys_iff]
  cases found : room.members.lookup peer with
  | none => simp [register_of_unknown found]
  | some m => simp [register_of_lookup found]

theorem register_congr
    {left right : Room} {peer : String}
    (same : left.members.lookup peer = right.members.lookup peer) :
    left.register peer = right.register peer := by
  rw [register, register, same]

theorem register_store
    (room : Room) {m : Member} {peer : String}
    (atPeer : m.nodeId = peer) :
    (room.store m).register peer = (m.stamp : Register UInt64) := by
  subst atPeer
  exact register_of_lookup (Indexed.lookup_insert_self m room.members)

/-! ## Writes to one record -/

/-- From `room` to `next` at most the record of one peer is written, and a new
record only where there was a slot. -/
structure Writes (room next : Room) (peer : String) : Prop where
  /-- The room is the same. -/
  roomId : next.roomId = room.roomId
  /-- The participant is the same. -/
  me : next.me = room.me
  /-- The outbound counter is untouched. -/
  nextSeq : next.nextSeq = room.nextSeq
  /-- The cap is untouched. -/
  maxMembers : next.maxMembers = room.maxMembers
  /-- At most one record is written. -/
  members : next.members = room.members ∨
    ∃ m, m.nodeId = peer ∧ room.HasSlot peer ∧
      next.members = room.members.insert m

namespace Writes

variable {room next last : Room} {peer : String}

theorem refl (room : Room) (peer : String) : Writes room room peer where
  roomId := rfl
  me := rfl
  nextSeq := rfl
  maxMembers := rfl
  members := Or.inl rfl

theorem store
    {m : Member}
    (same : m.nodeId = peer)
    (slot : room.HasSlot peer) :
    Writes room (room.store m) peer where
  roomId := rfl
  me := rfl
  nextSeq := rfl
  maxMembers := rfl
  members := Or.inr ⟨m, same, slot, rfl⟩

/-- A write takes no slot that the peer did not have. -/
theorem hasSlot_iff (writes : Writes room next peer) :
    next.HasSlot peer ↔ room.HasSlot peer := by
  rcases writes.members with same | ⟨m, rfl, slot, stored⟩
  · unfold HasSlot knownCount
    rw [same, writes.maxMembers]
  · refine iff_of_true (Or.inl ?_) slot
    rw [stored, Indexed.keys_insert]
    exact Finset.mem_insert_self _ _

theorem trans (first : Writes room next peer) (second : Writes next last peer) :
    Writes room last peer where
  roomId := second.roomId.trans first.roomId
  me := second.me.trans first.me
  nextSeq := second.nextSeq.trans first.nextSeq
  maxMembers := second.maxMembers.trans first.maxMembers
  members := by
    rcases second.members with same | ⟨m, atPeer, nextSlot, stored⟩
    · rw [same]
      exact first.members
    · refine Or.inr ⟨m, atPeer, first.hasSlot_iff.mp nextSlot, ?_⟩
      rcases first.members with same | ⟨earlier, earlierAtPeer, _, before⟩
      · rw [stored, same]
      · rw [stored, before,
          Indexed.insert_insert _ (earlierAtPeer.trans atPeer.symm)]

/-- The records of the other peers are untouched. -/
theorem lookup_of_ne
    (writes : Writes room next peer)
    {other : String}
    (different : other ≠ peer) :
    next.members.lookup other = room.members.lookup other := by
  rcases writes.members with same | ⟨m, rfl, _, stored⟩
  · rw [same]
  · rw [stored, Indexed.lookup_insert_of_ne _ different]

theorem register_of_ne
    (writes : Writes room next peer)
    {other : String}
    (different : other ≠ peer) :
    next.register other = room.register other :=
  register_congr (writes.lookup_of_ne different)

theorem keys_subset (writes : Writes room next peer) :
    next.members.keys ⊆ insert peer room.members.keys := by
  rcases writes.members with same | ⟨m, rfl, _, stored⟩
  · rw [same]
    exact Finset.subset_insert _ _
  · rw [stored, Indexed.keys_insert]

/-- A write respects the cap. -/
theorem knownCount_le
    (writes : Writes room next peer)
    (bounded : room.knownCount ≤ room.maxMembers) :
    next.knownCount ≤ next.maxMembers := by
  rw [writes.maxMembers]
  unfold knownCount Indexed.size at *
  rcases writes.members with same | ⟨m, rfl, known | free, stored⟩
  · rwa [same]
  · rwa [stored, Indexed.keys_insert_of_mem known]
  · rw [stored, Indexed.keys_insert]
    exact (Finset.card_insert_le _ _).trans free

end Writes

theorem hasSlot_of_lookup
    {room : Room} {peer : String} {m : Member}
    (found : room.members.lookup peer = some m) :
    room.HasSlot peer :=
  Or.inl (Indexed.mem_keys_of_lookup found)

theorem hasSlot_of_free
    {room : Room} {peer : String}
    (free : ¬room.knownCount ≥ room.maxMembers) :
    room.HasSlot peer :=
  Or.inr (not_le.mp free)

theorem hasSlot_iff_of_unknown
    {room : Room} {peer : String}
    (unknown : room.members.lookup peer = none) :
    room.HasSlot peer ↔ ¬room.knownCount ≥ room.maxMembers := by
  rw [HasSlot, or_iff_right (Indexed.notMem_keys_iff.mpr unknown), not_le]

/-- A room is left as it is, or a record of a peer is stored in it, for which
there was a slot. -/
inductive Stored (room : Room) (peer : String) : Room → Prop
  | same : Stored room peer room
  | record {m : Member} (atPeer : m.nodeId = peer)
      (slot : room.HasSlot peer) : Stored room peer (room.store m)

namespace Stored

variable {room next : Room} {peer : String}

theorem writes (stored : Stored room peer next) : Writes room next peer := by
  cases stored with
  | same => exact .refl room peer
  | record atPeer slot => exact .store atPeer slot

theorem ended (stored : Stored room peer next) : next.ended = room.ended := by
  cases stored with
  | same | record => rfl

end Stored

theorem touch_stored
    (room : Room) (nodeId : String) (sentAt : UInt64)
    (eligible : Member → Bool) :
    Stored room nodeId (room.touch nodeId sentAt eligible) := by
  have result := touch_cases room nodeId sentAt eligible
  generalize room.touch nodeId sentAt eligible = next at result ⊢
  cases result with
  | unknown | kept => exact .same
  | seen found atNode => exact .record atNode (hasSlot_of_lookup found)

theorem lww_stored
    (room : Room) (nodeId : String) (seq sentAt : UInt64) (present : Bool)
    (displayName : Option String) :
    Stored room nodeId (room.lww nodeId seq sentAt present displayName).2 := by
  have result := lww_cases room nodeId seq sentAt present displayName
  generalize room.lww nodeId seq sentAt present displayName = next at result ⊢
  cases result with
  | full | older => exact .same
  | creates unknown free => exact .record rfl (hasSlot_of_free free)
  | removes found atNode | keeps found atNode | newer found atNode =>
      exact .record atNode (hasSlot_of_lookup found)

theorem mediaLww_stored
    (room : Room) (nodeId : String) (seq sentAt : UInt64)
    (update : MediaUpdate) :
    Stored room nodeId (room.mediaLww nodeId seq sentAt update).2 := by
  have result := mediaLww_cases room nodeId seq sentAt update
  generalize room.mediaLww nodeId seq sentAt update = next at result ⊢
  cases result with
  | full => exact .same
  | creates unknown free _ atNode => exact .record atNode (hasSlot_of_free free)
  | older found _ _ atNode | newer found _ _ atNode =>
      exact .record atNode (hasSlot_of_lookup found)

theorem apply_writes (room : Room) (env : SignalEnvelope) :
    Writes room (room.apply env).2 env.sender := by
  unfold apply
  split
  · exact .refl _ _
  · cases env.signal with
    | offer | answer | iceCandidate | iceEnd | kick | forceMute | recording =>
        exact .refl _ _
    | reaction | chat => exact (touch_stored _ _ _ _).writes
    | endRoom =>
        exact
          { roomId := rfl
            me := rfl
            nextSeq := rfl
            maxMembers := rfl
            members := Or.inl rfl }
    | media | screenShare | raiseHand =>
        exact (mediaLww_stored _ _ _ _ _).writes
    | join | leave => exact (lww_stored _ _ _ _ _ _).writes
    | keepalive =>
        have written :=
          (lww_stored room env.sender env.seq env.sentAt true none).writes
        dsimp only
        split
        next result => exact result ▸ written
        next result =>
          exact (result ▸ written).trans (touch_stored _ _ _ _).writes
        next result => exact result ▸ written

/-! ## Registers -/

theorem register_touch
    (room : Room) (nodeId : String) (sentAt : UInt64)
    (eligible : Member → Bool) (peer : String) :
    (room.touch nodeId sentAt eligible).register peer = room.register peer := by
  by_cases atNode : peer = nodeId
  · subst atNode
    have result := touch_cases room peer sentAt eligible
    generalize room.touch peer sentAt eligible = next at result ⊢
    cases result with
    | unknown | kept => rfl
    | seen found same =>
        rw [register_of_lookup found]
        exact register_store room same
  · exact (touch_stored _ _ _ _).writes.register_of_ne atNode

/-- The join of a known member's register and a stamp. -/
theorem max_register_of_lookup
    {room : Room} {peer : String} {m : Member}
    (found : room.members.lookup peer = some m)
    (seq : UInt64) (present : Bool) :
    (max (room.register peer) (Register.stamp seq present) : Register UInt64) =
      if seq < m.lastSeq then
        (Register.stamp m.lastSeq m.present : Register UInt64)
      else if seq = m.lastSeq then
        (Register.stamp m.lastSeq (m.present && present) : Register UInt64)
      else (Register.stamp seq present : Register UInt64) := by
  rw [register_of_lookup found, ← WithBot.coe_max, Member.stamp,
    Register.max_stamp]
  split
  · rfl
  · split <;> rfl

/-- A presence signal joins its stamp into the register of its sender. -/
theorem register_lww
    {room : Room} {nodeId : String}
    (slot : room.HasSlot nodeId)
    (seq sentAt : UInt64) (present : Bool) (displayName : Option String) :
    (room.lww nodeId seq sentAt present displayName).2.register nodeId =
      max (room.register nodeId) (Register.stamp seq present) := by
  have result := lww_cases room nodeId seq sentAt present displayName
  generalize room.lww nodeId seq sentAt present displayName = next at result ⊢
  cases result with
  | full unknown full => exact absurd full ((hasSlot_iff_of_unknown unknown).mp slot)
  | creates unknown free =>
      rw [register_of_unknown unknown, max_bot_left]
      exact register_store room rfl
  | older found older =>
      rw [max_register_of_lookup found, if_pos older]
      exact register_of_lookup found
  | removes found atNode same asserted wasPresent =>
      rw [max_register_of_lookup found, if_neg (not_lt.mpr same.ge),
        if_pos same, asserted, Bool.and_false]
      exact register_store room atNode
  | keeps found atNode same agrees =>
      rw [max_register_of_lookup found, if_neg (not_lt.mpr same.ge),
        if_pos same, agrees]
      exact register_store room atNode
  | newer found atNode newer =>
      rw [max_register_of_lookup found, if_neg newer.not_gt, if_neg newer.ne']
      exact register_store room atNode

/-- A media signal of an unknown sender creates a placeholder, and leaves the
register of a known one alone. -/
theorem register_mediaLww
    {room : Room} {nodeId : String}
    (slot : room.HasSlot nodeId)
    (seq sentAt : UInt64) (update : MediaUpdate) :
    (room.mediaLww nodeId seq sentAt update).2.register nodeId =
      Register.Event.placeholder.apply (room.register nodeId) := by
  have result := mediaLww_cases room nodeId seq sentAt update
  generalize room.mediaLww nodeId seq sentAt update = next at result ⊢
  cases result with
  | full unknown full => exact absurd full ((hasSlot_iff_of_unknown unknown).mp slot)
  | creates unknown free blank atNode =>
      rw [register_of_unknown unknown, register_store room atNode, Member.stamp,
        MediaUpdate.applyTo_lastSeq, MediaUpdate.applyTo_present, blank]
      rfl
  | older found older refreshed atNode =>
      rw [register_of_lookup found, register_store room atNode, refreshed]
      rfl
  | newer found newer refreshed atNode =>
      rw [register_of_lookup found, register_store room atNode, Member.stamp,
        MediaUpdate.applyTo_lastSeq, MediaUpdate.applyTo_present, refreshed]
      rfl

/-- An envelope of this room is one event at the register of its sender. -/
theorem register_apply
    {room : Room} {env : SignalEnvelope}
    (sameRoom : env.roomId = room.roomId)
    (authenticated : env.sender ≠ "")
    (slot : room.HasSlot env.sender) :
    (room.apply env).2.register env.sender =
      env.event.toList.foldl (fun register event => event.apply register)
        (room.register env.sender) := by
  unfold apply SignalEnvelope.event SignalEnvelope.stamp
  rw [if_neg (by simp [sameRoom, authenticated])]
  cases env.signal with
  | offer | answer | iceCandidate | iceEnd | kick | forceMute | recording
  | endRoom => rfl
  | reaction | chat => exact register_touch _ _ _ _ _
  | media | screenShare | raiseHand => exact register_mediaLww slot _ _ _
  | join | leave => exact register_lww slot _ _ _ _
  | keepalive =>
      have written := register_lww slot env.seq env.sentAt true none
      dsimp only
      split
      next result => exact result ▸ written
      next result =>
        rw [result] at written
        rw [register_touch]
        exact written
      next result => exact result ▸ written

/-- Envelopes of other rooms and without a sender are ignored. -/
theorem apply_ignored
    {room : Room} {env : SignalEnvelope}
    (ignored : env.roomId ≠ room.roomId ∨ env.sender = "") :
    room.apply env = (.noChange, room) := by
  unfold apply
  exact if_pos ignored

/-! ## Directed signals -/

/-- A directed signal of this room is surfaced and leaves the roster alone. -/
theorem apply_directed
    {room : Room} {env : SignalEnvelope}
    (sameRoom : env.roomId = room.roomId)
    (authenticated : env.sender ≠ "")
    (directed : env.signal.isBroadcast = false) :
    room.apply env = (.directed env, room) := by
  unfold apply
  rw [if_neg (by simp [sameRoom, authenticated])]
  cases signal : env.signal with
  | offer | answer | iceCandidate | iceEnd | kick | forceMute => rfl
  | join | leave | keepalive | media | screenShare | raiseHand | reaction
  | chat | recording | endRoom =>
      rw [signal] at directed
      cases directed

theorem lww_effect
    (room : Room) (nodeId : String) (seq sentAt : UInt64) (present : Bool)
    (displayName : Option String) :
    (room.lww nodeId seq sentAt present displayName).1 = .noChange ∨
      (room.lww nodeId seq sentAt present displayName).1 = .joined nodeId ∨
      (room.lww nodeId seq sentAt present displayName).1 = .left nodeId := by
  have result := lww_cases room nodeId seq sentAt present displayName
  generalize room.lww nodeId seq sentAt present displayName = next at result ⊢
  cases result with
  | full | older | keeps | removes => simp
  | creates => cases present <;> simp
  | newer =>
      dsimp only
      split
      · simp
      · split <;> simp

theorem mediaLww_effect
    (room : Room) (nodeId : String) (seq sentAt : UInt64)
    (update : MediaUpdate) :
    (room.mediaLww nodeId seq sentAt update).1 = .noChange ∨
      (room.mediaLww nodeId seq sentAt update).1 = .mediaChanged nodeId := by
  have result := mediaLww_cases room nodeId seq sentAt update
  generalize room.mediaLww nodeId seq sentAt update = next at result ⊢
  cases result with
  | full | older | creates | newer => simp

theorem lww_effect_ne
    (room : Room) (nodeId : String) (seq sentAt : UInt64) (present : Bool)
    (displayName : Option String) {other : Effect}
    (foreign : other ∉ [.noChange, .joined nodeId, .left nodeId]) :
    (room.lww nodeId seq sentAt present displayName).1 ≠ other := by
  rintro rfl
  refine foreign ?_
  rcases lww_effect room nodeId seq sentAt present displayName with
    effect | effect | effect <;> simp [effect]

theorem mediaLww_effect_ne
    (room : Room) (nodeId : String) (seq sentAt : UInt64)
    (update : MediaUpdate) {other : Effect}
    (foreign : other ∉ [.noChange, .mediaChanged nodeId]) :
    (room.mediaLww nodeId seq sentAt update).1 ≠ other := by
  rintro rfl
  refine foreign ?_
  rcases mediaLww_effect room nodeId seq sentAt update with
    effect | effect <;> simp [effect]

/-- Only directed signals of this room are surfaced as such. -/
theorem apply_effect_ne_directed
    {room : Room} {env : SignalEnvelope}
    (undirected : env.roomId ≠ room.roomId ∨ env.sender = "" ∨
      env.signal.isBroadcast = true)
    (other : SignalEnvelope) :
    (room.apply env).1 ≠ .directed other := by
  unfold apply
  split
  · nofun
  next accepted =>
    simp only [not_or, not_not] at accepted
    have broadcasts : env.signal.isBroadcast = true := by
      rcases undirected with otherRoom | anonymous | broadcasts
      · exact absurd accepted.1 otherRoom
      · exact absurd anonymous accepted.2
      · exact broadcasts
    cases signal : env.signal with
    | offer | answer | iceCandidate | iceEnd | kick | forceMute =>
        rw [signal] at broadcasts
        cases broadcasts
    | reaction | chat | recording | endRoom => nofun
    | media | screenShare | raiseHand =>
        exact mediaLww_effect_ne _ _ _ _ _ (by simp)
    | join | leave => exact lww_effect_ne _ _ _ _ _ _ (by simp)
    | keepalive =>
        dsimp only
        split
        · nofun
        · nofun
        next effect after _ _ result =>
          have notDirected :
              (room.lww env.sender env.seq env.sentAt true none).1 ≠
                .directed other :=
            lww_effect_ne _ _ _ _ _ _ (by simp)
          rw [result] at notDirected
          exact notDirected

/-- A directed signal of this room is surfaced as it is. -/
theorem apply_effect_directed_iff
    {room : Room} {env other : SignalEnvelope} :
    (room.apply env).1 = .directed other ↔
      env.roomId = room.roomId ∧ env.sender ≠ "" ∧
        env.signal.isBroadcast = false ∧ other = env := by
  constructor
  · intro surfaced
    have accepted : ¬(env.roomId ≠ room.roomId ∨ env.sender = "" ∨
        env.signal.isBroadcast = true) :=
      fun undirected => apply_effect_ne_directed undirected other surfaced
    simp only [not_or, not_not, Bool.not_eq_true] at accepted
    obtain ⟨sameRoom, authenticated, directed⟩ := accepted
    rw [apply_directed sameRoom authenticated directed] at surfaced
    cases surfaced
    exact ⟨sameRoom, authenticated, directed, rfl⟩
  · rintro ⟨sameRoom, authenticated, directed, rfl⟩
    rw [apply_directed sameRoom authenticated directed]

/-! ## The digest -/

/-- A digest entry for a member whose register holds a stamp. -/
def digestEntry (peer : String) (register : Register UInt64) :
    String ×ₗ Bool ×ₗ UInt64 :=
  match register with
  | some held => toLex (peer, toLex (!(ofLex held).2, (ofLex held).1))
  | none => toLex (peer, toLex (false, 0))

@[simp] theorem digestEntry_inj
    {left right : String} {here there : Stamp UInt64} :
    digestEntry left (here : Register UInt64) =
        digestEntry right (there : Register UInt64) ↔
      left = right ∧ here = there := by
  obtain ⟨leftSeq, leftMark⟩ := here
  obtain ⟨rightSeq, rightMark⟩ := there
  change toLex (left, toLex (!leftMark, leftSeq)) =
    toLex (right, toLex (!rightMark, rightSeq)) ↔
      left = right ∧ toLex (leftSeq, leftMark) = toLex (rightSeq, rightMark)
  simp [and_comm]

/-- The digest lists the registers of the known members. -/
theorem digest_eq_sort (room : Room) :
    room.digest =
      sortEntries (room.members.keys.val.map
        fun peer => digestEntry peer (room.register peer)) := by
  rw [digest, Indexed.map_values_eq_of_forall]
  intro peer m found
  rw [register_of_lookup found, Indexed.key_of_lookup found]
  change _ = toLex (peer, toLex (!!m.present, m.lastSeq))
  rw [Bool.not_not]

theorem mem_digest_iff {room : Room} {peer : String} {held : Stamp UInt64} :
    digestEntry peer (held : Register UInt64) ∈ room.digest ↔
      room.register peer = (held : Register UInt64) := by
  rw [digest_eq_sort, sortEntries, Multiset.mem_sort, Multiset.mem_map]
  constructor
  · rintro ⟨other, member, same⟩
    obtain ⟨m, found⟩ := Indexed.mem_keys_iff.mp member
    rw [register_of_lookup found, digestEntry_inj] at same
    rw [← same.1, register_of_lookup found, same.2]
  · intro holds
    refine ⟨peer, ?_, by rw [holds]⟩
    by_contra unknown
    rw [register_eq_bot_iff.mpr unknown] at holds
    exact absurd holds WithBot.bot_ne_coe

/-- Whether a register asserts presence. -/
def isPresentAt (register : Register UInt64) : Bool :=
  match register with
  | some held => !(ofLex held).2
  | none => false

/-- The present members are those whose register asserts presence. -/
theorem present_eq_sort (room : Room) :
    room.present =
      (room.members.keys.val.filter
        fun peer => isPresentAt (room.register peer)).sort (· ≤ ·) := by
  have observed : room.members.values.map (fun m => (m.nodeId, m.present)) =
      room.members.keys.val.map
        fun peer => (peer, isPresentAt (room.register peer)) := by
    refine Indexed.map_values_eq_of_forall _ _ fun peer m found => ?_
    rw [register_of_lookup found, Indexed.key_of_lookup found]
    change _ = (peer, !!m.present)
    rw [Bool.not_not]
  have filtered := congrArg
    (fun pairs => (pairs.filter fun pair => pair.2 = true).map Prod.fst)
    observed
  simp only [Multiset.filter_map, Multiset.map_map, Function.comp_def,
    Multiset.map_id'] at filtered
  rw [present, filtered]

theorem keys_eq_of_register
    {left right : Room}
    (same : ∀ peer, left.register peer = right.register peer) :
    left.members.keys = right.members.keys := by
  ext peer
  rw [← not_iff_not, ← register_eq_bot_iff, ← register_eq_bot_iff, same]

/-- Rooms with the same registers have the same digest. -/
theorem digest_eq_of_register
    {left right : Room}
    (same : ∀ peer, left.register peer = right.register peer) :
    left.digest = right.digest := by
  rw [digest_eq_sort, digest_eq_sort, keys_eq_of_register same]
  simp only [same]

theorem present_eq_of_register
    {left right : Room}
    (same : ∀ peer, left.register peer = right.register peer) :
    left.present = right.present := by
  rw [present_eq_sort, present_eq_sort, keys_eq_of_register same]
  simp only [same]

/-- Rooms with the same digest have the same registers. -/
theorem register_eq_of_digest
    {left right : Room}
    (same : left.digest = right.digest)
    (peer : String) :
    left.register peer = right.register peer := by
  refine Option.eq_of_eq_some fun held => ?_
  calc
    left.register peer = (held : Register UInt64)
        ↔ digestEntry peer (held : Register UInt64) ∈ left.digest :=
          mem_digest_iff.symm
    _ ↔ digestEntry peer (held : Register UInt64) ∈ right.digest := by
          rw [same]
    _ ↔ right.register peer = (held : Register UInt64) := mem_digest_iff

end Room

end CeMeet
