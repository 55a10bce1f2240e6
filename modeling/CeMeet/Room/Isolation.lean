import CeMeet.Room.Locality
import CeMeet.Room.Monotone

/-!
# Isolation of members

In a run of envelopes and sweeps the slots of a capped room go to the senders
that ask for one first.  A member that got a slot has the record, and gets the
answers, that it would have alone in a room of its own.
-/

namespace CeMeet

/-- Whether a signal creates a record of an unknown sender. -/
def Signal.opens (signal : Signal) : Bool :=
  signal.isPresence || signal.isMedia

theorem SignalEnvelope.event_ne_none_iff {env : SignalEnvelope} :
    env.event ≠ none ↔ env.signal.opens = true := by
  unfold event Signal.opens
  cases env.signal.isPresence <;> cases env.signal.isMedia <;> simp

namespace Room

namespace Operation

/-- An envelope of a room from an authenticated sender, or a sweep. -/
def Confined (roomId : String) : Operation → Prop
  | .apply env => env.roomId = roomId ∧ env.sender ≠ ""
  | .pruneStale .. => True
  | .mergeSnapshot _ | .nextOutboundSeq | .resumeOutboundFrom _ => False

/-- Whether an operation concerns a peer: an envelope of it, or a sweep. -/
def concerns (peer : String) : Operation → Bool
  | .apply env => env.sender = peer
  | .pruneStale .. => true
  | .mergeSnapshot _ | .nextOutboundSeq | .resumeOutboundFrom _ => false

end Operation

/-- The operations that concern a peer. -/
def isolate (peer : String) (operations : List Operation) : List Operation :=
  operations.filter (Operation.concerns peer)

/-- The senders of the signals that create a record, in the order of their first
such signal. -/
def heard (operations : List Operation) : List String :=
  operations.foldl
    (fun heard operation =>
      match operation with
      | .apply env =>
          if env.signal.opens ∧ env.sender ∉ heard then heard ++ [env.sender]
          else heard
      | _ => heard)
    []

/-! ## Slots -/

theorem keys_subset_of_advances
    {room next : Room}
    (advances : Advances room next) :
    room.members.keys ⊆ next.members.keys := by
  intro peer member
  obtain ⟨m, found⟩ := Indexed.mem_keys_iff.mp member
  obtain ⟨later, nextFound, _⟩ := advances peer m found
  exact Indexed.mem_keys_of_lookup nextFound

/-- An envelope that creates a record makes its sender known if there is a slot
for it, and no other envelope makes anybody known. -/
theorem sender_mem_keys_apply_iff
    {room : Room} {env : SignalEnvelope}
    (sameRoom : env.roomId = room.roomId)
    (authenticated : env.sender ≠ "") :
    env.sender ∈ (room.apply env).2.members.keys ↔
      env.sender ∈ room.members.keys ∨
        env.signal.opens = true ∧ room.HasSlot env.sender := by
  by_cases slot : room.HasSlot env.sender
  · have written := register_apply sameRoom authenticated slot
    rw [← not_iff_not, ← register_eq_bot_iff, written, not_or,
      ← register_eq_bot_iff, ← SignalEnvelope.event_ne_none_iff]
    cases env.event with
    | none => simp
    | some event =>
        have created := event.apply_ne_bot (room.register env.sender)
        simp [created, slot]
  · have same : (room.apply env).2.members = room.members := by
      rcases (apply_writes room env).members with same | ⟨_, _, slotted, _⟩
      · exact same
      · exact absurd slotted slot
    rw [same]
    simp [slot]

theorem keys_apply_of_opens
    {room : Room} {env : SignalEnvelope}
    (sameRoom : env.roomId = room.roomId)
    (authenticated : env.sender ≠ "")
    (opens : env.signal.opens = true)
    (slot : room.HasSlot env.sender) :
    (room.apply env).2.members.keys = insert env.sender room.members.keys := by
  apply (apply_writes room env).keys_subset.antisymm
  refine Finset.insert_subset ?_ (keys_subset_of_advances (apply_advances _ _))
  exact (sender_mem_keys_apply_iff sameRoom authenticated).mpr
    (Or.inr ⟨opens, slot⟩)

theorem keys_apply_of_refused
    {room : Room} {env : SignalEnvelope}
    (sameRoom : env.roomId = room.roomId)
    (authenticated : env.sender ≠ "")
    (refused : ¬(env.signal.opens = true ∧ room.HasSlot env.sender)) :
    (room.apply env).2.members.keys = room.members.keys := by
  refine Finset.Subset.antisymm ?_ (keys_subset_of_advances (apply_advances _ _))
  intro peer member
  rcases Finset.mem_insert.mp ((apply_writes room env).keys_subset member) with
    rfl | known
  · rw [sender_mem_keys_apply_iff sameRoom authenticated,
      or_iff_left refused] at member
    exact member
  · exact known

@[simp] theorem heard_nil : heard [] = [] := rfl

theorem heard_concat_apply (done : List Operation) (env : SignalEnvelope) :
    heard (done ++ [.apply env]) =
      if env.signal.opens ∧ env.sender ∉ heard done then
        heard done ++ [env.sender]
      else heard done := by
  unfold heard
  rw [List.foldl_append]
  rfl

theorem heard_concat_pruneStale
    (done : List Operation) (now staleSecs : UInt64) :
    heard (done ++ [.pruneStale now staleSecs]) = heard done := by
  unfold heard
  rw [List.foldl_append]
  rfl

theorem keys_pruneStale (room : Room) (now staleSecs : UInt64) :
    (room.pruneStale now staleSecs).2.members.keys = room.members.keys :=
  Indexed.keys_map _ (expire_nodeId now staleSecs) _

/-- The slots go to the senders that were heard first. -/
structure FirstCome (room : Room) (heard : List String) : Prop where
  /-- No sender is listed twice. -/
  nodup : heard.Nodup
  /-- The known members are the first ones. -/
  keys : room.members.keys = (heard.take room.maxMembers).toFinset

theorem FirstCome.knownCount
    {room : Room} {heard : List String}
    (firstCome : FirstCome room heard) :
    room.knownCount = min room.maxMembers heard.length := by
  unfold Room.knownCount Indexed.size
  rw [firstCome.keys, List.toFinset_card_of_nodup
    (firstCome.nodup.sublist (List.take_sublist _ _)), List.length_take]

/-- A newcomer has a slot exactly if fewer senders than the cap were heard. -/
theorem FirstCome.hasSlot_iff
    {room : Room} {heard : List String} {peer : String}
    (firstCome : FirstCome room heard)
    (unheard : peer ∉ heard) :
    room.HasSlot peer ↔ heard.length < room.maxMembers := by
  have unknown : peer ∉ room.members.keys := by
    rw [firstCome.keys, List.mem_toFinset]
    exact fun member => unheard (List.mem_of_mem_take member)
  unfold HasSlot
  rw [or_iff_right unknown, firstCome.knownCount]
  omega

/-- A sender that was heard has a slot only if it is known. -/
theorem FirstCome.known_of_heard
    {room : Room} {heard : List String} {peer : String}
    (firstCome : FirstCome room heard)
    (isHeard : peer ∈ heard)
    (slot : room.HasSlot peer) :
    peer ∈ room.members.keys := by
  rcases slot with known | free
  · exact known
  · rw [firstCome.keys, List.mem_toFinset, List.take_of_length_le]
    · exact isHeard
    · have count := firstCome.knownCount
      omega

theorem FirstCome.congr
    {room next : Room} {heard : List String}
    (firstCome : FirstCome room heard)
    (sameKeys : next.members.keys = room.members.keys)
    (sameCap : next.maxMembers = room.maxMembers) :
    FirstCome next heard where
  nodup := firstCome.nodup
  keys := by rw [sameKeys, sameCap, firstCome.keys]

/-- An envelope extends the list of heard senders, and the known members with
it as long as there are slots. -/
theorem FirstCome.apply
    {room : Room} {done : List Operation} {env : SignalEnvelope}
    (firstCome : FirstCome room (heard done))
    (sameRoom : env.roomId = room.roomId)
    (authenticated : env.sender ≠ "") :
    FirstCome (room.apply env).2 (heard (done ++ [.apply env])) := by
  have sameCap := (apply_writes room env).maxMembers
  rw [heard_concat_apply]
  split
  case isTrue newcomer =>
    obtain ⟨opens, unheard⟩ := newcomer
    have nodup : (heard done ++ [env.sender]).Nodup :=
      firstCome.nodup.append (List.nodup_singleton _) (by simpa using unheard)
    refine ⟨nodup, ?_⟩
    rw [sameCap]
    by_cases slot : room.HasSlot env.sender
    · have free := (firstCome.hasSlot_iff unheard).mp slot
      rw [keys_apply_of_opens sameRoom authenticated opens slot, firstCome.keys,
        List.take_of_length_le free.le, List.take_of_length_le (by simpa)]
      ext peer
      simp
    · have full := (firstCome.hasSlot_iff unheard).not.mp slot
      rw [keys_apply_of_refused sameRoom authenticated fun both => slot both.2,
        firstCome.keys, List.take_append_of_le_length (not_lt.mp full)]
  case isFalse notNewcomer =>
    refine firstCome.congr ?_ sameCap
    by_cases both : env.signal.opens = true ∧ room.HasSlot env.sender
    · have isHeard : env.sender ∈ heard done :=
        not_not.mp fun unheard => notNewcomer ⟨both.1, unheard⟩
      rw [keys_apply_of_opens sameRoom authenticated both.1 both.2,
        Finset.insert_eq_self.mpr (firstCome.known_of_heard isHeard both.2)]
    · exact keys_apply_of_refused sameRoom authenticated both

theorem firstCome_after
    {room : Room} {operations : List Operation}
    (fresh : room.members = .empty)
    (confined : ∀ operation ∈ operations, operation.Confined room.roomId) :
    FirstCome (room.after operations) (heard operations) := by
  induction operations using List.reverseRecOn with
  | nil => exact ⟨List.nodup_nil, by rw [after_nil, fresh]; simp⟩
  | append_singleton done operation inductionHypothesis =>
      have firstCome := inductionHypothesis fun earlier member =>
        confined earlier (List.mem_append_left _ member)
      have sameRoom := after_roomId room done
      have allowed := confined operation (by simp)
      rw [after_append]
      generalize room.after done = current at firstCome sameRoom ⊢
      cases operation with
      | apply env =>
          exact firstCome.apply (allowed.1.trans sameRoom.symm) allowed.2
      | pruneStale now staleSecs =>
          rw [heard_concat_pruneStale]
          exact firstCome.congr (keys_pruneStale current now staleSecs) rfl
      | mergeSnapshot | nextOutboundSeq | resumeOutboundFrom =>
          exact allowed.elim

/-! ## Isolation -/

/-- A slot after an operation was there before it. -/
theorem hasSlot_of_operate
    {room : Room} {operation : Operation} {peer : String}
    (confined : operation.Confined room.roomId)
    (slot : (room.operate operation).2.HasSlot peer) :
    room.HasSlot peer := by
  have advances := keys_subset_of_advances (operate_advances room operation)
  have sameCap := operate_maxMembers room operation
  rcases slot with known | free
  · cases operation with
    | apply env =>
        rcases Finset.mem_insert.mp
            ((apply_writes room env).keys_subset known) with rfl | before
        · rcases (sender_mem_keys_apply_iff confined.1 confined.2).mp known with
            before | ⟨_, slot⟩
          · exact Or.inl before
          · exact slot
        · exact Or.inl before
    | pruneStale now staleSecs =>
        exact Or.inl (keys_pruneStale room now staleSecs ▸ known)
    | mergeSnapshot | nextOutboundSeq | resumeOutboundFrom =>
        exact confined.elim
  · refine Or.inr ((Finset.card_le_card advances).trans_lt ?_)
    rw [← sameCap]
    exact free

theorem hasSlot_of_after
    {room : Room} {operations : List Operation} {peer : String}
    (confined : ∀ operation ∈ operations, operation.Confined room.roomId)
    (slot : (room.after operations).HasSlot peer) :
    room.HasSlot peer := by
  induction operations generalizing room with
  | nil => exact slot
  | cons operation operations inductionHypothesis =>
      rw [List.forall_mem_cons] at confined
      apply hasSlot_of_operate confined.1
      refine inductionHypothesis ?_ slot
      rw [operate_roomId]
      exact confined.2

/-- A room of a peer's own, next to a shared one: it holds the peer's record and
no other. -/
structure Alone (shared own : Room) (peer : String) : Prop where
  /-- The rooms are the same. -/
  roomId : shared.roomId = own.roomId
  /-- The records of the peer agree. -/
  lookup : shared.members.lookup peer = own.members.lookup peer
  /-- Nobody else is known in the peer's own room. -/
  keys : own.members.keys ⊆ {peer}
  /-- The own room has a place for the peer. -/
  maxMembers : 0 < own.maxMembers

namespace Alone

variable {shared own : Room} {peer : String}

theorem hasSlot (alone : Alone shared own peer) : own.HasSlot peer := by
  rcases Finset.subset_singleton_iff.mp alone.keys with empty | full
  · right
    unfold knownCount Indexed.size
    rw [empty]
    exact alone.maxMembers
  · left
    rw [full]
    exact Finset.mem_singleton_self peer

theorem view
    (alone : Alone shared own peer)
    (slot : shared.HasSlot peer) :
    SameView shared own peer where
  lookup := alone.lookup
  slot := iff_of_true slot alone.hasSlot

/-- An envelope of the peer is applied alike. -/
theorem apply_self
    {env : SignalEnvelope}
    (alone : Alone shared own env.sender)
    (slot : shared.HasSlot env.sender) :
    (shared.apply env).1 = (own.apply env).1 ∧
      Alone (shared.apply env).2 (own.apply env).2 env.sender := by
  obtain ⟨sameEffect, sameRecord⟩ := apply_congr alone.roomId (alone.view slot)
  have sharedWrites := apply_writes shared env
  have ownWrites := apply_writes own env
  refine ⟨sameEffect, ?_, sameRecord, ?_, ?_⟩
  · rw [sharedWrites.roomId, ownWrites.roomId, alone.roomId]
  · refine ownWrites.keys_subset.trans (Finset.insert_subset ?_ alone.keys)
    exact Finset.mem_singleton_self env.sender
  · rw [ownWrites.maxMembers]
    exact alone.maxMembers

/-- An envelope of somebody else leaves the peer's record alone. -/
theorem apply_other
    {env : SignalEnvelope}
    (alone : Alone shared own peer)
    (other : env.sender ≠ peer) :
    Alone (shared.apply env).2 own peer where
  roomId := (apply_writes shared env).roomId.trans alone.roomId
  lookup := ((apply_writes shared env).lookup_of_ne other.symm).trans alone.lookup
  keys := alone.keys
  maxMembers := alone.maxMembers

theorem pruneStale
    (alone : Alone shared own peer)
    (now staleSecs : UInt64) :
    Alone (shared.pruneStale now staleSecs).2 (own.pruneStale now staleSecs).2
      peer where
  roomId := alone.roomId
  lookup := by
    rw [Room.pruneStale, Room.pruneStale, Indexed.lookup_map,
      Indexed.lookup_map, alone.lookup]
  keys := (keys_pruneStale own now staleSecs).trans_subset alone.keys
  maxMembers := alone.maxMembers

/-- A peer that has a slot at the end of a run has the record it would have in
a room of its own. -/
theorem after
    {operations : List Operation}
    (alone : Alone shared own peer)
    (confined : ∀ operation ∈ operations, operation.Confined shared.roomId)
    (slot : (shared.after operations).HasSlot peer) :
    Alone (shared.after operations) (own.after (isolate peer operations))
      peer := by
  induction operations generalizing shared own with
  | nil => exact alone
  | cons operation operations inductionHypothesis =>
      have slotBefore := hasSlot_of_after confined slot
      rw [List.forall_mem_cons] at confined
      have confinedRest : ∀ later ∈ operations,
          later.Confined (shared.operate operation).2.roomId := by
        rw [operate_roomId]
        exact confined.2
      unfold isolate
      cases operation with
      | apply env =>
          by_cases itself : env.sender = peer
          · subst itself
            rw [List.filter_cons_of_pos (by simp [Operation.concerns])]
            exact inductionHypothesis (alone.apply_self slotBefore).2
              confinedRest slot
          · rw [List.filter_cons_of_neg (by simpa [Operation.concerns])]
            exact inductionHypothesis (alone.apply_other itself) confinedRest
              slot
      | pruneStale now staleSecs =>
          rw [List.filter_cons_of_pos rfl]
          exact inductionHypothesis (alone.pruneStale now staleSecs)
            confinedRest slot
      | mergeSnapshot | nextOutboundSeq | resumeOutboundFrom =>
          exact confined.1.elim

end Alone

/-! ## Main result -/

/-- In a run of a shared room a peer fares as in a room of its own that is given
only what concerns the peer. -/
structure FaresAlone (shared own : Room) (peer : String)
    (operations : List Operation) : Prop where
  /-- The records at the end agree. -/
  member : (shared.after operations).member peer =
    (own.after (isolate peer operations)).member peer
  /-- Every envelope of the peer has the same effect. -/
  effects : ∀ done env rest,
    operations = done ++ .apply env :: rest → env.sender = peer →
      ((shared.after done).apply env).1 =
        ((own.after (isolate peer done)).apply env).1
  /-- No envelope of somebody else writes the peer's record. -/
  untouched : ∀ done env rest,
    operations = done ++ .apply env :: rest → env.sender ≠ peer →
      ((shared.after done).apply env).2.member peer =
        (shared.after done).member peer

theorem alone_new (roomId me peer : String) (cap bound : Nat) :
    Alone ((new roomId me).withMaxMembers cap)
      ((new roomId me).withMaxMembers bound) peer where
  roomId := rfl
  lookup := rfl
  keys := Finset.empty_subset _
  maxMembers := le_max_right bound 1

theorem faresAlone_of_slot
    {shared own : Room} {peer : String} {operations : List Operation}
    (alone : Alone shared own peer)
    (confined : ∀ operation ∈ operations, operation.Confined shared.roomId)
    (slot : (shared.after operations).HasSlot peer) :
    FaresAlone shared own peer operations where
  member := (alone.after confined slot).lookup
  effects := by
    rintro done env rest rfl rfl
    rw [after_append] at slot
    rw [List.forall_mem_append] at confined
    have slotThen : (shared.after done).HasSlot env.sender := by
      refine hasSlot_of_after ?_ slot
      rw [after_roomId]
      exact confined.2
    exact ((alone.after confined.1 slotThen).apply_self slotThen).1
  untouched := by
    intro done env rest _ other
    exact (apply_writes (shared.after done) env).lookup_of_ne other.symm

/-- The members of a capped room are the senders heard first, and each of them
fares as in a room of its own, whatever the cap of that, and as in a room with
a place for everybody. -/
theorem capped_members_fare_alone
    (roomId me : String) (cap : Nat)
    (positive : 1 ≤ cap)
    (operations : List Operation)
    (confined : ∀ operation ∈ operations, operation.Confined roomId) :
    (((new roomId me).withMaxMembers cap).after operations).members.keys =
        ((heard operations).take cap).toFinset ∧
      ∀ peer ∈
          (((new roomId me).withMaxMembers cap).after operations).members.keys,
        ∀ bound,
          FaresAlone ((new roomId me).withMaxMembers cap)
              ((new roomId me).withMaxMembers bound) peer operations ∧
            ((heard operations).length ≤ bound →
              (((new roomId me).withMaxMembers cap).after operations).member
                  peer =
                (((new roomId me).withMaxMembers bound).after operations).member
                  peer) := by
  have firstCome : ∀ bound, FirstCome
      (((new roomId me).withMaxMembers bound).after operations)
      (heard operations) :=
    fun bound => firstCome_after rfl confined
  have keys : ∀ bound,
      (((new roomId me).withMaxMembers bound).after operations).members.keys =
        ((heard operations).take (max bound 1)).toFinset := by
    intro bound
    rw [(firstCome bound).keys, after_maxMembers]
    rfl
  have fares : ∀ bound ownBound peer,
      peer ∈ (((new roomId me).withMaxMembers bound).after
        operations).members.keys →
      FaresAlone ((new roomId me).withMaxMembers bound)
        ((new roomId me).withMaxMembers ownBound) peer operations :=
    fun bound ownBound peer known =>
      faresAlone_of_slot (alone_new roomId me peer bound ownBound) confined
        (Or.inl known)
  constructor
  · rw [keys, max_eq_left positive]
  · intro peer known bound
    refine ⟨fares cap bound peer known, fun roomy => ?_⟩
    have knownToo : peer ∈ (((new roomId me).withMaxMembers bound).after
        operations).members.keys := by
      rw [keys, List.mem_toFinset] at known ⊢
      rw [List.take_of_length_le (roomy.trans (le_max_left _ _))]
      exact List.mem_of_mem_take known
    rw [(fares cap bound peer known).member,
      (fares bound bound peer knownToo).member]

/-- Two members join a room with one place, and the first one mutes. -/
def crowd : List Operation :=
  [.apply ((SignalEnvelope.broadcast "r" 0 10 (.join none)).withSender "ann"),
    .apply ((SignalEnvelope.broadcast "r" 0 10 (.join none)).withSender "bob"),
    .apply
      ((SignalEnvelope.broadcast "r" 1 11 (.media true false)).withSender
        "ann")]

/-- The first of the two gets the place. -/
theorem crowd_members :
    (((new "r" "me").withMaxMembers 1).after crowd).members.keys = {"ann"} :=
  (capped_members_fare_alone "r" "me" 1 le_rfl crowd
    (by simp [crowd, Operation.Confined, SignalEnvelope.broadcast])).1.trans
    (by decide)

end Room
end CeMeet
