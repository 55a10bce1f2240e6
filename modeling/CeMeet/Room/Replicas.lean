import CeMeet.Foundation.Gossip
import CeMeet.Room.Convergence
import CeMeet.Room.Merge

/-!
# Replicas of one room

Replicas receive presence envelopes in any order, with repetitions and losses,
merge snapshots that were taken at any earlier time, and are replaced by what
they restore from their own snapshots.  Seen through their registers they are
replicas that exchange joins, so a replica's digest is a function of the set of
envelopes that have reached it.
-/

universe u

namespace CeMeet

/-- Replicas of one room, the envelopes that have reached each of them, and the
snapshots taken so far with the envelopes that had reached them. -/
structure Network (ι : Type u) where
  /-- The rooms. -/
  replica : ι → Room
  /-- The envelopes that have reached each replica. -/
  seen : ι → Finset SignalEnvelope
  /-- The snapshots taken so far. -/
  archive : List (RoomSnapshot × Finset SignalEnvelope)

/-- The contribution of one envelope to the register of a peer. -/
def SignalEnvelope.assertion (env : SignalEnvelope) (peer : String) :
    Register UInt64 :=
  if env.sender = peer ∧ env.signal.isPresence then
    (env.stamp : Register UInt64)
  else
    ⊥

namespace Network

variable {ι : Type u} [DecidableEq ι]

/-- What happens in the network. -/
inductive Step (ι : Type u)
  | deliver (replica : ι) (env : SignalEnvelope)
  | takeSnapshot (replica : ι)
  | merge (replica : ι) (index : Nat)
  | restore (replica : ι)

/-- Fresh replicas of a room. -/
def start (roomId : String) (me : ι → String) (cap : ι → Nat) : Network ι :=
  { replica := fun i => (Room.new roomId (me i)).withMaxMembers (cap i)
    seen := fun _ => ∅
    archive := [] }

/-- Take one step. -/
def step (net : Network ι) : Step ι → Network ι
  | .deliver i env =>
      { net with
        replica := Function.update net.replica i ((net.replica i).apply env).2
        seen := Function.update net.seen i (insert env (net.seen i)) }
  | .takeSnapshot i =>
      { net with
        archive := net.archive ++ [((net.replica i).snapshot, net.seen i)] }
  | .merge i index =>
      match net.archive[index]? with
      | some (snap, seen) =>
          { net with
            replica := Function.update net.replica i
              ((net.replica i).mergeSnapshot snap).2
            seen := Function.update net.seen i (net.seen i ∪ seen) }
      | none => net
  | .restore i =>
      { net with
        replica := Function.update net.replica i
          (Room.restore (net.replica i).snapshot) }

/-- Take steps one after the other. -/
def run (net : Network ι) (steps : List (Step ι)) : Network ι :=
  steps.foldl step net

theorem run_concat (net : Network ι) (done : List (Step ι)) (next : Step ι) :
    net.run (done ++ [next]) = (net.run done).step next := by
  simp [run]

/-- The senders of all envelopes delivered. -/
def senders (steps : List (Step ι)) : Finset String :=
  (steps.filterMap fun
    | .deliver _ env => some env.sender
    | _ => none).toFinset

omit [DecidableEq ι] in
theorem mem_senders_iff {steps : List (Step ι)} {peer : String} :
    peer ∈ senders steps ↔
      ∃ i env, Step.deliver i env ∈ steps ∧ env.sender = peer := by
  rw [senders, List.mem_toFinset, List.mem_filterMap]
  constructor
  · rintro ⟨taken, member, found⟩
    cases taken with
    | deliver i env => exact ⟨i, env, member, by simpa using found⟩
    | takeSnapshot | merge | restore => cases found
  · rintro ⟨i, env, member, rfl⟩
    exact ⟨_, member, rfl⟩

/-! ## The network as replicas that exchange joins -/

/-- The registers of all replicas and snapshots. -/
def summary (net : Network ι) :
    Gossip ι SignalEnvelope (String → Register UInt64) :=
  { value := fun i peer => (net.replica i).register peer
    seen := net.seen
    archive := net.archive.map fun entry => (entry.1.register, entry.2) }

/-- A step as an action on the registers. -/
def Step.action : Step ι → Gossip.Action ι SignalEnvelope
  | .deliver i env => .observe i env
  | .takeSnapshot i => .publish i
  | .merge i index => .absorb i index
  | .restore _ => .idle

/-- All replicas and snapshots are of one room. -/
structure OfRoom (roomId : String) (net : Network ι) : Prop where
  /-- The replicas. -/
  replica : ∀ i, (net.replica i).roomId = roomId
  /-- The snapshots. -/
  archive : ∀ entry ∈ net.archive, entry.1.roomId = roomId

/-- Whether a step delivers only presence and transient signals of a room, from
senders the receiving replica has a slot for. -/
def Admissible (roomId : String) (net : Network ι) : Step ι → Prop
  | .deliver i env =>
      env.roomId = roomId ∧ env.sender ≠ "" ∧ ¬env.signal.isMedia ∧
        (net.replica i).HasSlot env.sender
  | .takeSnapshot _ | .merge .. | .restore _ => True

theorem OfRoom.step
    {roomId : String} {net : Network ι}
    (ofRoom : OfRoom roomId net)
    (next : Step ι) :
    OfRoom roomId (net.step next) := by
  have updated : ∀ (i : ι) (room : Room), room.roomId = roomId → ∀ j,
      (Function.update net.replica i room j).roomId = roomId := by
    intro i room sameRoom j
    by_cases same : j = i
    · subst same
      simpa using sameRoom
    · simpa [same] using ofRoom.replica j
  cases next with
  | deliver i env =>
      refine ⟨updated i _ ?_, ofRoom.archive⟩
      exact (Room.apply_writes _ _).roomId.trans (ofRoom.replica i)
  | takeSnapshot i =>
      refine ⟨ofRoom.replica, fun entry member => ?_⟩
      rcases List.mem_append.mp member with member | member
      · exact ofRoom.archive entry member
      · rw [List.mem_singleton.mp member]
        exact ofRoom.replica i
  | merge i index =>
      unfold Network.step
      dsimp only
      split
      · refine ⟨updated i _ ?_, ofRoom.archive⟩
        exact (Room.mergeSnapshot_roomId _ _).trans (ofRoom.replica i)
      · exact ofRoom
  | restore i => exact ⟨updated i _ (ofRoom.replica i), ofRoom.archive⟩

/-- A delivered presence or transient signal is joined into the registers. -/
theorem register_deliver
    {room : Room} {env : SignalEnvelope}
    (sameRoom : env.roomId = room.roomId)
    (authenticated : env.sender ≠ "")
    (notMedia : ¬env.signal.isMedia)
    (slot : room.HasSlot env.sender)
    (peer : String) :
    (room.apply env).2.register peer =
      max (room.register peer) (env.assertion peer) := by
  unfold SignalEnvelope.assertion
  by_cases fromPeer : env.sender = peer
  · subst fromPeer
    rw [Room.register_apply sameRoom authenticated slot, SignalEnvelope.event]
    by_cases presence : env.signal.isPresence
    · rw [if_pos presence, if_pos ⟨rfl, presence⟩]
      rfl
    · rw [if_neg presence, if_neg notMedia, if_neg (by simp [presence])]
      exact (max_bot_right _).symm
  · rw [(Room.apply_writes room env).register_of_ne (Ne.symm fromPeer),
      if_neg (by simp [fromPeer])]
    exact (max_bot_right _).symm

omit [DecidableEq ι] in
theorem summary_update [DecidableEq ι]
    (net : Network ι) (i : ι) (room : Room) :
    (fun j peer => (Function.update net.replica i room j).register peer) =
      Function.update net.summary.value i room.register := by
  funext j
  by_cases same : j = i
  · subst same
    simp
  · simp [same, summary]

/-- Every step of the network is an action on its registers. -/
theorem summary_step
    {roomId : String} {net : Network ι}
    (ofRoom : OfRoom roomId net)
    {next : Step ι}
    (admissible : Admissible roomId net next) :
    (net.step next).summary =
      net.summary.act SignalEnvelope.assertion next.action := by
  cases next with
  | deliver i env =>
      obtain ⟨sameRoom, authenticated, notMedia, slot⟩ := admissible
      have joined : ((net.replica i).apply env).2.register =
          (net.replica i).register ⊔ env.assertion :=
        funext (register_deliver
          (sameRoom.trans (ofRoom.replica i).symm) authenticated notMedia slot)
      refine Gossip.ext ?_ rfl rfl
      exact (summary_update net i _).trans (joined ▸ rfl)
  | takeSnapshot i =>
      refine Gossip.ext rfl rfl ?_
      have registers : (net.replica i).snapshot.register =
          (net.replica i).register := funext (Room.register_snapshot _)
      simp [summary, step, Gossip.act, Step.action, registers]
  | merge i index =>
      unfold step Step.action Gossip.act
      cases found : net.archive[index]? with
      | none => simp [summary, found]
      | some entry =>
          obtain ⟨snap, seen⟩ := entry
          have sameRoom := ofRoom.archive _ (List.mem_of_getElem? found)
          have joined : ((net.replica i).mergeSnapshot snap).2.register =
              (net.replica i).register ⊔ snap.register :=
            funext (Room.register_mergeSnapshot
              (sameRoom.trans (ofRoom.replica i).symm))
          have abstracted : net.summary.archive[index]? =
              some (snap.register, seen) := by
            simp [summary, found]
          simp only [found, abstracted]
          refine Gossip.ext ?_ rfl rfl
          exact (summary_update net i _).trans (joined ▸ rfl)
  | restore i =>
      refine Gossip.ext ?_ rfl rfl
      refine (summary_update net i _).trans ?_
      have registers : (Room.restore (net.replica i).snapshot).register =
          (net.replica i).register := funext (Room.register_restore_snapshot _)
      rw [registers]
      exact Function.update_eq_self i _

/-- In a run of admissible steps the registers of the network are those of
replicas that exchange joins. -/
theorem summary_run
    {roomId : String} {me : ι → String} {cap : ι → Nat}
    (steps : List (Step ι))
    (admissible : ∀ done next rest, steps = done ++ next :: rest →
      Admissible roomId ((start roomId me cap).run done) next) :
    OfRoom roomId ((start roomId me cap).run steps) ∧
      ((start roomId me cap).run steps).summary =
        Gossip.start.run SignalEnvelope.assertion (steps.map Step.action) := by
  induction steps using List.reverseRecOn with
  | nil =>
      refine ⟨⟨fun _ => rfl, by simp [run, start]⟩, Gossip.ext ?_ rfl rfl⟩
      funext i peer
      change ((Room.new roomId (me i)).withMaxMembers (cap i)).register peer = ⊥
      exact Room.register_of_unknown rfl
  | append_singleton done next inductionHypothesis =>
      obtain ⟨ofRoom, simulated⟩ := inductionHypothesis
        fun earlier step rest split => admissible earlier step
          (rest ++ [next]) (by simp [split])
      rw [run_concat, List.map_append, Gossip.run, List.foldl_append]
      refine ⟨ofRoom.step next, ?_⟩
      rw [summary_step ofRoom (admissible done next [] rfl), simulated]
      rfl

/-! ## The reference -/

/-- The greatest sequence number a set of presence envelopes has for a
sender. -/
def lastSeq (presence : Finset SignalEnvelope) (sender : String) : UInt64 :=
  (presence.filter fun env => env.sender = sender).sup SignalEnvelope.seq

/-- Whether no leave of a sender carries its greatest sequence number. -/
def isPresent (presence : Finset SignalEnvelope) (sender : String) : Bool :=
  ¬∃ env ∈ presence, env.sender = sender ∧
    env.seq = lastSeq presence sender ∧ env.signal = .leave

/-- The digest that a set of envelopes calls for: one entry for every sender of
a presence signal. -/
def reference (seen : Finset SignalEnvelope) :
    List (String ×ₗ Bool ×ₗ UInt64) :=
  let presence := seen.filter fun env => env.signal.isPresence
  Room.sortEntries ((presence.image SignalEnvelope.sender).val.map fun sender =>
    toLex (sender, toLex
      (isPresent presence sender, lastSeq presence sender)))

/-- The join of the assertions about a peer is unwritten exactly when there are
none. -/
theorem sup_assertion_eq_bot_iff
    {seen : Finset SignalEnvelope} {peer : String} :
    (seen.sup SignalEnvelope.assertion) peer = ⊥ ↔
      ∀ env ∈ seen, env.sender = peer → ¬env.signal.isPresence := by
  rw [Finset.sup_apply, Finset.sup_eq_bot_iff]
  refine forall₂_congr fun env _ => ?_
  unfold SignalEnvelope.assertion
  split
  case isTrue asserts => simp [asserts]
  case isFalse silent =>
    simp only [true_iff]
    exact fun fromPeer presence => silent ⟨fromPeer, presence⟩

theorem isLeave_iff {signal : Signal} :
    signal.isLeave = true ↔ signal = .leave := by
  cases signal <;> simp [Signal.isLeave]

/-- A set that has a presence signal of a sender has one at the sender's
greatest number. -/
theorem exists_seq_eq_lastSeq
    {presence : Finset SignalEnvelope} {sender : String}
    (asserted : ∃ env ∈ presence, env.sender = sender) :
    ∃ env ∈ presence, env.sender = sender ∧
      env.seq = lastSeq presence sender := by
  obtain ⟨env, member, fromSender⟩ := asserted
  obtain ⟨greatest, present, same⟩ := Finset.exists_mem_eq_sup
    (presence.filter fun env => env.sender = sender)
    ⟨env, Finset.mem_filter.mpr ⟨member, fromSender⟩⟩ SignalEnvelope.seq
  rw [Finset.mem_filter] at present
  exact ⟨greatest, present.1, present.2, same.symm⟩

theorem seq_le_lastSeq
    {presence : Finset SignalEnvelope} {env : SignalEnvelope}
    (member : env ∈ presence) :
    env.seq ≤ lastSeq presence env.sender :=
  Finset.le_sup (f := SignalEnvelope.seq)
    (Finset.mem_filter.mpr ⟨member, rfl⟩)

theorem isPresent_iff
    {presence : Finset SignalEnvelope} {sender : String} :
    isPresent presence sender = true ↔
      ∀ env ∈ presence, env.sender = sender →
        env.seq = lastSeq presence sender → env.signal.isLeave = false := by
  simp only [isPresent, decide_eq_true_eq, not_exists, not_and,
    ← Bool.not_eq_true, isLeave_iff]

/-- No presence signal is above the reference stamp of its sender. -/
theorem stamp_le_reference
    {presence : Finset SignalEnvelope} {env : SignalEnvelope}
    (member : env ∈ presence) :
    env.stamp ≤ Register.stamp (lastSeq presence env.sender)
      (isPresent presence env.sender) := by
  rw [SignalEnvelope.stamp, Register.stamp_le_stamp_iff]
  rcases (seq_le_lastSeq member).lt_or_eq with lower | same
  · exact Or.inl lower
  · refine Or.inr ⟨same, fun present => ?_⟩
    rw [isPresent_iff.mp present env member rfl same]
    rfl

/-- The reference stamp of a sender is one of its presence signals'. -/
theorem exists_stamp_eq_reference
    {presence : Finset SignalEnvelope} {sender : String}
    (asserted : ∃ env ∈ presence, env.sender = sender) :
    ∃ env ∈ presence, env.sender = sender ∧
      env.stamp = Register.stamp (lastSeq presence sender)
        (isPresent presence sender) := by
  cases present : isPresent presence sender with
  | true =>
      obtain ⟨env, member, fromSender, same⟩ := exists_seq_eq_lastSeq asserted
      refine ⟨env, member, fromSender, ?_⟩
      rw [SignalEnvelope.stamp, same,
        isPresent_iff.mp present env member fromSender same]
      rfl
  | false =>
      have leaves := mt isPresent_iff.mpr (Bool.not_eq_true _ ▸ present)
      push Not at leaves
      obtain ⟨env, member, fromSender, same, leave⟩ := leaves
      refine ⟨env, member, fromSender, ?_⟩
      rw [SignalEnvelope.stamp, same, Bool.eq_true_of_not_eq_false leave]
      rfl

/-- The join of the assertions about a sender is its reference stamp. -/
theorem sup_assertion_eq_stamp
    {seen : Finset SignalEnvelope} {peer : String}
    (asserted : ∃ env ∈ seen.filter fun env => env.signal.isPresence,
      env.sender = peer) :
    (seen.sup SignalEnvelope.assertion) peer =
      (Register.stamp
        (lastSeq (seen.filter fun env => env.signal.isPresence) peer)
        (isPresent (seen.filter fun env => env.signal.isPresence) peer) :
          Register UInt64) := by
  rw [Finset.sup_apply]
  apply le_antisymm
  · refine Finset.sup_le fun env member => ?_
    unfold SignalEnvelope.assertion
    split
    case isTrue asserts =>
      obtain ⟨rfl, presence⟩ := asserts
      exact WithBot.coe_le_coe.mpr
        (stamp_le_reference (Finset.mem_filter.mpr ⟨member, presence⟩))
    case isFalse => exact bot_le
  · obtain ⟨env, member, fromPeer, same⟩ := exists_stamp_eq_reference asserted
    rw [Finset.mem_filter] at member
    rw [← same]
    have asserts : env.assertion peer = (env.stamp : Register UInt64) :=
      if_pos ⟨fromPeer, member.2⟩
    rw [← asserts]
    exact Finset.le_sup (f := fun env => SignalEnvelope.assertion env peer)
      member.1

/-- A room whose registers are the join of a set of assertions has the digest
that the set calls for. -/
theorem digest_eq_reference
    {room : Room} {seen : Finset SignalEnvelope}
    (joined : room.register = seen.sup SignalEnvelope.assertion) :
    room.digest = reference seen := by
  have asserted : ∀ peer, peer ∈ room.members.keys ↔
      ∃ env ∈ seen.filter fun env => env.signal.isPresence,
        env.sender = peer := by
    intro peer
    rw [← not_iff_not, ← Room.register_eq_bot_iff, joined,
      sup_assertion_eq_bot_iff]
    simp only [Finset.mem_filter, not_exists, not_and, and_imp]
    exact forall₂_congr fun env _ => forall_comm
  have keys : room.members.keys =
      (seen.filter fun env => env.signal.isPresence).image
        SignalEnvelope.sender := by
    ext peer
    rw [asserted, Finset.mem_image]
  rw [Room.digest_eq_sort, reference, ← keys]
  refine congrArg Room.sortEntries
    (Multiset.map_congr rfl fun peer member => ?_)
  rw [joined, sup_assertion_eq_stamp ((asserted peer).mp member)]
  change toLex (peer, toLex (!!_, _)) = _
  rw [Bool.not_not]
  rfl

/-- A replica knows only senders of delivered envelopes. -/
theorem keys_subset_senders
    {net : Network ι} {steps : List (Step ι)}
    (simulated : net.summary =
      Gossip.start.run SignalEnvelope.assertion (steps.map Step.action))
    (i : ι) :
    (net.replica i).members.keys ⊆ senders steps := by
  intro peer known
  have summarizes := Gossip.summarizes_run SignalEnvelope.assertion
    (steps.map Step.action)
  have witnessed := Gossip.witnessed_run SignalEnvelope.assertion
    (fun env => env.sender ∈ senders steps) (steps.map Step.action)
    (by
      intro replica env member
      obtain ⟨taken, present, same⟩ := List.mem_map.mp member
      cases taken with
      | deliver j delivered =>
          cases same
          exact mem_senders_iff.mpr ⟨replica, env, present, rfl⟩
      | takeSnapshot | merge | restore => cases same)
  rw [← simulated] at summarizes witnessed
  by_contra unknown
  have joined : (net.replica i).register =
      (net.seen i).sup SignalEnvelope.assertion := summarizes.value i
  refine Room.register_eq_bot_iff.mp ?_ known
  rw [joined, sup_assertion_eq_bot_iff]
  rintro env member rfl
  exact absurd (witnessed.seen i env member) unknown

/-- Whether an envelope may be delivered: it is of the room, authenticated, and
no media signal. -/
def Deliverable (roomId : String) (env : SignalEnvelope) : Prop :=
  env.roomId = roomId ∧ env.sender ≠ "" ∧ ¬env.signal.isMedia

/-- Every step is admissible when every replica has room for all senders. -/
theorem admissible_of_capacity
    {roomId : String} {me : ι → String} {cap : ι → Nat}
    {steps : List (Step ι)}
    (deliverable : ∀ i env, .deliver i env ∈ steps → Deliverable roomId env)
    (capacity : ∀ done rest, steps = done ++ rest → ∀ i,
      (senders steps).card ≤
        (((start roomId me cap).run done).replica i).maxMembers)
    (done : List (Step ι)) (next : Step ι) (rest : List (Step ι))
    (split : steps = done ++ next :: rest) :
    Admissible roomId ((start roomId me cap).run done) next := by
  induction size : done.length using Nat.strongRecOn
    generalizing done next rest with
  | ind size inductionHypothesis =>
      obtain ⟨_, simulated⟩ := summary_run done
        fun earlier later between inDone =>
          inductionHypothesis earlier.length (by simp [← size, inDone])
            earlier later (between ++ next :: rest) (by simp [split, inDone]) rfl
      cases next with
      | deliver i env =>
          obtain ⟨sameRoom, authenticated, notMedia⟩ :=
            deliverable i env (by simp [split])
          have known : (((start roomId me cap).run done).replica i).members.keys ∪
              {env.sender} ⊆ senders steps := by
            apply Finset.union_subset
            · intro peer member
              obtain ⟨j, other, present, same⟩ :=
                mem_senders_iff.mp (keys_subset_senders simulated i member)
              exact mem_senders_iff.mpr
                ⟨j, other, by simp [split, present], same⟩
            · rw [Finset.singleton_subset_iff]
              exact mem_senders_iff.mpr ⟨i, env, by simp [split], rfl⟩
          have fits := (Finset.card_le_card known).trans
            (capacity done _ split i)
          exact ⟨sameRoom, authenticated, notMedia,
            Room.hasSlot_of_capacity fits (Finset.mem_singleton_self _)⟩
      | takeSnapshot | merge | restore => trivial

/-- After every step of every run the digest of every replica is the reference
digest of the envelopes that have reached it. -/
theorem digest_run_eq_reference
    (roomId : String) (me : ι → String) (cap : ι → Nat)
    (steps : List (Step ι))
    (deliverable : ∀ i env, .deliver i env ∈ steps → Deliverable roomId env)
    (capacity : ∀ done rest, steps = done ++ rest → ∀ i,
      (senders steps).card ≤
        (((start roomId me cap).run done).replica i).maxMembers) :
    ∀ done rest, steps = done ++ rest → ∀ i,
      (((start roomId me cap).run done).replica i).digest =
        reference (((start roomId me cap).run done).seen i) := by
  intro done rest split i
  obtain ⟨_, simulated⟩ := summary_run done fun earlier next later inDone =>
    admissible_of_capacity deliverable capacity earlier next (later ++ rest)
      (by simp [split, inDone])
  apply digest_eq_reference
  have summarizes := Gossip.summarizes_run SignalEnvelope.assertion
    (done.map Step.action)
  rw [← simulated] at summarizes
  exact summarizes.value i

/-- A bound on the initial caps and on the cap of a restored room is a bound on
the caps along every run. -/
theorem le_maxMembers_run
    {roomId : String} {me : ι → String} {cap : ι → Nat} {bound : Nat}
    (initially : ∀ i, bound ≤ cap i)
    (restored : bound ≤ defaultMaxMembers)
    (steps : List (Step ι)) (i : ι) :
    bound ≤ (((start roomId me cap).run steps).replica i).maxMembers := by
  induction steps using List.reverseRecOn generalizing i with
  | nil => exact (initially i).trans (le_max_left _ _)
  | append_singleton done next inductionHypothesis =>
      rw [run_concat]
      have updated : ∀ (j : ι) (room : Room), bound ≤ room.maxMembers →
          bound ≤ (Function.update ((start roomId me cap).run done).replica
            j room i).maxMembers := by
        intro j room fits
        by_cases same : i = j
        · subst same
          simpa using fits
        · simpa [same] using inductionHypothesis i
      cases next with
      | deliver j env =>
          exact updated j _ ((inductionHypothesis j).trans_eq
            (Room.apply_writes _ env).maxMembers.symm)
      | takeSnapshot j => exact inductionHypothesis i
      | merge j index =>
          unfold step
          dsimp only
          split
          · exact updated j _ ((inductionHypothesis j).trans_eq
              (Room.mergeSnapshot_maxMembers _ _).symm)
          · exact inductionHypothesis i
      | restore j => exact updated j _ restored

/-- A join reaches one replica, whose snapshot reaches another that has already
seen the leave and then restarts. -/
def handover : List (Step Bool) :=
  [.deliver true
      ((SignalEnvelope.broadcast "r" 0 10 (.join none)).withSender "ann"),
    .takeSnapshot true,
    .deliver false
      ((SignalEnvelope.broadcast "r" 1 11 .leave).withSender "ann"),
    .merge false 0,
    .restore false]

theorem digest_handover :
    (((start "r" (fun _ => "me") fun _ => 1).run handover).replica
        false).digest =
      reference (((start "r" (fun _ => "me") fun _ => 1).run handover).seen
        false) := by
  refine digest_run_eq_reference "r" (fun _ => "me") (fun _ => 1) handover
    ?_ ?_ handover [] (List.append_nil _).symm false
  · intro i env member
    simp only [handover, List.mem_cons, Step.deliver.injEq, reduceCtorEq,
      List.not_mem_nil, or_false, false_or] at member
    rcases member with ⟨_, rfl⟩ | ⟨_, rfl⟩ <;>
      exact ⟨rfl, by decide, by decide⟩
  · intro done rest _ i
    have few : (senders handover).card = 1 := by decide
    rw [few]
    exact le_maxMembers_run (fun _ => le_rfl) (by decide) done i

end Network

end CeMeet
