import CeMeet.Room.Presence

/-!
# Convergence under reordering

Two rooms that have applied the same set of envelopes, in any order and with
any repetitions, agree on their registers with one exception: a media signal
that comes first creates its sender's record as an absent placeholder at number
zero, and a join at number zero does not overcome it.
-/

namespace CeMeet
namespace Room

/-- The room after applying envelopes one after the other. -/
def applyAll (room : Room) (envs : List SignalEnvelope) : Room :=
  envs.foldl (fun room env => (room.apply env).2) room

/-- What a list of envelopes does to the presence register of a peer. -/
def events (peer : String) (envs : List SignalEnvelope) :
    List (Register.Event UInt64) :=
  (envs.filter fun env => env.sender = peer).filterMap SignalEnvelope.event

theorem events_cons (peer : String) (env : SignalEnvelope)
    (envs : List SignalEnvelope) :
    events peer (env :: envs) =
      (if env.sender = peer then env.event.toList else []) ++
        events peer envs := by
  unfold events
  by_cases fromPeer : env.sender = peer
  · cases event : env.event <;> simp [fromPeer, event]
  · simp [fromPeer]

theorem mem_events_iff
    {peer : String} {envs : List SignalEnvelope}
    {event : Register.Event UInt64} :
    event ∈ events peer envs ↔
      ∃ env ∈ envs, env.sender = peer ∧ env.event = some event := by
  simp [events, and_assoc]

/-- There is a slot for every sender while the cap covers all of them. -/
theorem hasSlot_of_capacity
    {room : Room} {senders : Finset String}
    (capacity : (room.members.keys ∪ senders).card ≤ room.maxMembers)
    {peer : String}
    (sends : peer ∈ senders) :
    room.HasSlot peer := by
  by_cases known : peer ∈ room.members.keys
  · exact Or.inl known
  · right
    refine lt_of_lt_of_le (Finset.card_lt_card ?_) capacity
    refine ⟨Finset.subset_union_left, fun superset => ?_⟩
    exact known (superset (Finset.mem_union_right _ sends))

/-- Nothing is ever recorded about the empty sender. -/
theorem register_applyAll_empty (room : Room) (envs : List SignalEnvelope) :
    (room.applyAll envs).register "" = room.register "" := by
  induction envs generalizing room with
  | nil => rfl
  | cons env envs inductionHypothesis =>
      refine (inductionHypothesis _).trans ?_
      by_cases anonymous : env.sender = ""
      · dsimp only
        rw [apply_ignored (Or.inr anonymous)]
      · exact (apply_writes room env).register_of_ne (Ne.symm anonymous)

/-- A room with enough slots feeds every register with the events of its
peer. -/
theorem register_applyAll
    (room : Room)
    (envs : List SignalEnvelope)
    (sameRoom : ∀ env ∈ envs, env.roomId = room.roomId)
    (capacity : (room.members.keys ∪
      (envs.map SignalEnvelope.sender).toFinset).card ≤ room.maxMembers)
    {peer : String}
    (named : peer ≠ "") :
    (room.applyAll envs).register peer =
      (events peer envs).foldl (fun register event => event.apply register)
        (room.register peer) := by
  induction envs generalizing room with
  | nil => rfl
  | cons env envs inductionHypothesis =>
      have writes := apply_writes room env
      have slot : room.HasSlot env.sender :=
        hasSlot_of_capacity capacity (by simp)
      have capacityAfter : ((room.apply env).2.members.keys ∪
          (envs.map SignalEnvelope.sender).toFinset).card ≤
            (room.apply env).2.maxMembers := by
        rw [writes.maxMembers]
        refine (Finset.card_le_card ?_).trans capacity
        rw [List.map_cons, List.toFinset_cons, Finset.union_insert,
          ← Finset.insert_union]
        exact Finset.union_subset_union_left writes.keys_subset
      refine (inductionHypothesis _ ?_ capacityAfter).trans ?_
      · intro other member
        rw [writes.roomId]
        exact sameRoom other (List.mem_cons_of_mem _ member)
      · rw [events_cons, List.foldl_append]
        by_cases fromPeer : env.sender = peer
        · subst fromPeer
          rw [if_pos rfl, register_apply
            (sameRoom env List.mem_cons_self) named slot]
        · rw [if_neg fromPeer, List.foldl_nil,
            writes.register_of_ne (Ne.symm fromPeer)]

/-- The registers of a fresh room that has applied envelopes. -/
theorem register_new_applyAll
    {roomId me : String}
    {cap : Nat}
    {envs : List SignalEnvelope}
    (sameRoom : ∀ env ∈ envs, env.roomId = roomId)
    (capacity : (envs.map SignalEnvelope.sender).toFinset.card ≤ cap)
    {peer : String}
    (named : peer ≠ "") :
    (((new roomId me).withMaxMembers cap).applyAll envs).register peer =
      Register.settle (events peer envs) := by
  refine register_applyAll _ envs sameRoom ?_ named
  refine le_trans ?_ (capacity.trans (le_max_left cap 1))
  simp [withMaxMembers, new]

/-- Everything a peer has asserted is its presence at number zero. -/
def PresentOnlyAtZero (peer : String) (envs : List SignalEnvelope) : Prop :=
  (∃ env ∈ envs, env.sender = peer ∧ env.signal.isPresence) ∧
    ∀ env ∈ envs, env.sender = peer → env.signal.isPresence →
      env.seq = 0 ∧ ¬env.signal.isLeave

/-- The first presence or media signal of a peer is a media signal. -/
def MediaFirst (peer : String) (envs : List SignalEnvelope) : Prop :=
  ∃ env, envs.find? (fun env =>
      env.sender = peer ∧ (env.signal.isPresence ∨ env.signal.isMedia)) =
        some env ∧
    env.signal.isMedia

theorem mem_written_events_iff
    {peer : String} {envs : List SignalEnvelope} {stamp : Stamp UInt64} :
    stamp ∈ Register.written (events peer envs) ↔
      ∃ env ∈ envs, env.sender = peer ∧ env.signal.isPresence ∧
        env.stamp = stamp := by
  rw [Register.mem_written_iff, mem_events_iff]
  refine exists_congr fun env => and_congr_right fun _ =>
    and_congr_right fun _ => ?_
  unfold SignalEnvelope.event
  split
  case isTrue presence => simp [presence]
  case isFalse silent => split <;> simp [silent]

theorem stamp_eq_first_iff {env : SignalEnvelope} :
    env.stamp = Register.first ↔ env.seq = 0 ∧ ¬env.signal.isLeave := by
  rw [SignalEnvelope.stamp, Register.first, Register.stamp_inj,
    UInt64.bot_eq_zero]
  simp

theorem maximum_events_eq_first_iff
    {peer : String} {envs : List SignalEnvelope} :
    (Register.written (events peer envs)).maximum =
        (Register.first : Stamp UInt64) ↔
      PresentOnlyAtZero peer envs := by
  rw [Register.maximum_eq_first_iff]
  simp only [mem_written_events_iff]
  constructor
  · rintro ⟨nonempty, all⟩
    obtain ⟨stamp, written⟩ := List.exists_mem_of_ne_nil _ nonempty
    obtain ⟨env, member, fromPeer, presence, _⟩ :=
      mem_written_events_iff.mp written
    refine ⟨⟨env, member, fromPeer, presence⟩, ?_⟩
    intro other present otherFrom otherPresence
    exact stamp_eq_first_iff.mp
      (all _ ⟨other, present, otherFrom, otherPresence, rfl⟩)
  · rintro ⟨⟨env, member, fromPeer, presence⟩, all⟩
    refine ⟨List.ne_nil_of_mem
      (mem_written_events_iff.mpr ⟨env, member, fromPeer, presence, rfl⟩), ?_⟩
    rintro _ ⟨other, present, otherFrom, otherPresence, rfl⟩
    exact stamp_eq_first_iff.mpr (all other present otherFrom otherPresence)

theorem opensVacant_events_iff
    {peer : String} {envs : List SignalEnvelope} :
    Register.OpensVacant (events peer envs) ↔ MediaFirst peer envs := by
  unfold Register.OpensVacant MediaFirst
  induction envs with
  | nil => simp [events]
  | cons env envs inductionHypothesis =>
      rw [events_cons]
      by_cases fromPeer : env.sender = peer
      · cases presence : env.signal.isPresence with
        | true =>
            have notMedia := Signal.isMedia_eq_false_of_isPresence presence
            simp [SignalEnvelope.event, fromPeer, presence, notMedia]
        | false =>
            cases media : env.signal.isMedia with
            | true => simp [SignalEnvelope.event, fromPeer, presence, media]
            | false =>
                simpa [SignalEnvelope.event, fromPeer, presence, media]
                  using inductionHypothesis
      · simpa [fromPeer] using inductionHypothesis

/-- Two fresh rooms that have applied the same set of envelopes, with a slot for
every sender, agree on who is present and on their digests exactly when, for
every sender that has asserted nothing but its presence at number zero, a media
signal came first in both rooms or in neither. -/
theorem applyAll_agree_iff
    (roomId leftMe rightMe : String)
    (leftCap rightCap : Nat)
    (left right : List SignalEnvelope)
    (sameRoom : ∀ env ∈ left, env.roomId = roomId)
    (sameSet : ∀ env, env ∈ left ↔ env ∈ right)
    (leftCapacity :
      (left.map SignalEnvelope.sender).toFinset.card ≤ leftCap)
    (rightCapacity :
      (right.map SignalEnvelope.sender).toFinset.card ≤ rightCap) :
    ((((new roomId leftMe).withMaxMembers leftCap).applyAll left).present =
        (((new roomId rightMe).withMaxMembers rightCap).applyAll right).present ∧
      (((new roomId leftMe).withMaxMembers leftCap).applyAll left).digest =
        (((new roomId rightMe).withMaxMembers rightCap).applyAll right).digest) ↔
      ∀ peer ≠ "", PresentOnlyAtZero peer left →
        (MediaFirst peer left ↔ MediaFirst peer right) := by
  have sameEvents : ∀ (peer : String) (event : Register.Event UInt64),
      event ∈ events peer left ↔ event ∈ events peer right := by
    intro peer event
    simp only [mem_events_iff, sameSet]
  have agree : ∀ peer ≠ "",
      ((((new roomId leftMe).withMaxMembers leftCap).applyAll left).register
            peer =
          (((new roomId rightMe).withMaxMembers rightCap).applyAll
            right).register peer ↔
        (PresentOnlyAtZero peer left →
          (MediaFirst peer left ↔ MediaFirst peer right))) := by
    intro peer named
    rw [register_new_applyAll sameRoom leftCapacity named,
      register_new_applyAll
        (fun env member => sameRoom env ((sameSet env).mpr member))
        rightCapacity named,
      Register.settle_eq_settle_iff (sameEvents peer),
      maximum_events_eq_first_iff, opensVacant_events_iff,
      opensVacant_events_iff]
  constructor
  · rintro ⟨_, sameDigest⟩ peer named
    exact (agree peer named).mp (register_eq_of_digest sameDigest peer)
  · intro condition
    have sameRegisters : ∀ peer,
        (((new roomId leftMe).withMaxMembers leftCap).applyAll left).register
            peer =
          (((new roomId rightMe).withMaxMembers rightCap).applyAll
            right).register peer := by
      intro peer
      by_cases named : peer = ""
      · subst named
        rw [register_applyAll_empty, register_applyAll_empty]
        rfl
      · exact (agree peer named).mpr (condition peer named)
    exact ⟨present_eq_of_register sameRegisters,
      digest_eq_of_register sameRegisters⟩

/-- A join and a later mute of one sender. -/
def bobJoins (seq : UInt64) : SignalEnvelope :=
  (SignalEnvelope.broadcast "r" seq 10 (.join (some "Bob"))).withSender "bob"

/-- A mute of the same sender. -/
def bobMutes (seq : UInt64) : SignalEnvelope :=
  (SignalEnvelope.broadcast "r" seq 11 (.media true false)).withSender "bob"

/-- The order of a join and a mute does not matter when the join is not the
sender's first message. -/
theorem applyAll_agree_later_join :
    (((new "r" "ann").withMaxMembers 1).applyAll
          [bobJoins 1, bobMutes 2]).present =
        (((new "r" "cid").withMaxMembers 1).applyAll
          [bobMutes 2, bobJoins 1, bobMutes 2]).present ∧
      (((new "r" "ann").withMaxMembers 1).applyAll
          [bobJoins 1, bobMutes 2]).digest =
        (((new "r" "cid").withMaxMembers 1).applyAll
          [bobMutes 2, bobJoins 1, bobMutes 2]).digest := by
  refine (applyAll_agree_iff "r" "ann" "cid" 1 1
    [bobJoins 1, bobMutes 2] [bobMutes 2, bobJoins 1, bobMutes 2]
    (by decide) ?_ (by decide) (by decide)).mpr ?_
  · intro env
    simp only [List.mem_cons, List.not_mem_nil, or_false]
    tauto
  · rintro peer _ ⟨⟨env, member, fromPeer, presence⟩, all⟩
    have atZero := (all env member fromPeer presence).1
    simp only [List.mem_cons, List.not_mem_nil, or_false] at member
    rcases member with rfl | rfl
    · exact absurd atZero (by decide)
    · exact absurd presence (by decide)

/-- A mute that overtakes the first join keeps its sender out of the roster. -/
theorem applyAll_differ_mute_first :
    (∀ env, env ∈ [bobJoins 0, bobMutes 1] ↔
        env ∈ [bobMutes 1, bobJoins 0]) ∧
      ¬(((new "r" "ann").applyAll [bobJoins 0, bobMutes 1]).present =
            ((new "r" "cid").applyAll [bobMutes 1, bobJoins 0]).present ∧
          ((new "r" "ann").applyAll [bobJoins 0, bobMutes 1]).digest =
            ((new "r" "cid").applyAll [bobMutes 1, bobJoins 0]).digest) := by
  constructor
  · intro env
    simp only [List.mem_cons, List.not_mem_nil, or_false]
    exact Or.comm
  · rintro ⟨_, sameDigest⟩
    have sameRegister := register_eq_of_digest sameDigest "bob"
    revert sameRegister
    decide

end Room
end CeMeet
