import CeMeet.Room.MediaState

/-!
# Whom the liveness sweep reaches

A sweep reaches a member when the clock can pass the member's last sign of life
by more than the stale window.  The clock is a word, so a sign of life dated
close to the greatest word is never passed by enough.
-/

namespace CeMeet
namespace Room

/-- From some time on every sweep leaves nobody present. -/
def EventuallyEmptied (room : Room) (staleSecs : UInt64) : Prop :=
  ∃ time, ∀ now ≥ time, ∀ peer m,
    (room.pruneStale now staleSecs).2.member peer = some m → m.present = false

/-- The clock can pass a member's last sign of life by more than the stale
window. -/
def Expires (staleSecs : UInt64) (m : Member) : Prop :=
  m.lastSeen.toNat + staleSecs.toNat < UInt64.maxValue.toNat

theorem isStale_iff {now staleSecs : UInt64} {m : Member} :
    isStale now staleSecs m = true ↔
      m.present = true ∧ m.lastSeen.toNat + staleSecs.toNat < now.toNat := by
  rw [isStale, Bool.and_eq_true, decide_eq_true_iff, gt_iff_lt,
    UInt64.lt_iff_toNat_lt, UInt64.toNat_saturatingSub, Nat.lt_sub_iff_add_lt']

theorem present_expire_eq_false_iff
    {now staleSecs : UInt64} {m : Member} :
    (expire now staleSecs m).present = false ↔
      (m.present = true → m.lastSeen.toNat + staleSecs.toNat < now.toNat) := by
  rw [expire]
  split
  case isTrue stale => simp [(isStale_iff.mp stale).2]
  case isFalse fresh =>
    rw [isStale_iff, not_and] at fresh
    cases present : m.present with
    | false => simp
    | true => simpa using fresh present

theorem member_pruneStale
    (room : Room) (now staleSecs : UInt64) (peer : String) :
    (room.pruneStale now staleSecs).2.member peer =
      (room.member peer).map (expire now staleSecs) :=
  Indexed.lookup_map _ (expire_nodeId now staleSecs) _ _

/-- A room is emptied by the sweep exactly if every present member expires. -/
theorem eventuallyEmptied_iff {room : Room} {staleSecs : UInt64} :
    room.EventuallyEmptied staleSecs ↔
      ∀ peer m, room.member peer = some m → m.present = true →
        Expires staleSecs m := by
  constructor
  · rintro ⟨time, empties⟩ peer m found present
    have swept :=
      (member_pruneStale room UInt64.maxValue staleSecs peer).trans
        (congrArg (Option.map _) found)
    exact present_expire_eq_false_iff.mp
      (empties _ (UInt64.le_maxValue time) peer _ swept) present
  · intro expires
    refine ⟨UInt64.maxValue, fun now top peer m found => ?_⟩
    obtain rfl : now = UInt64.maxValue :=
      le_antisymm (UInt64.le_maxValue now) top
    rw [member_pruneStale, Option.map_eq_some_iff] at found
    obtain ⟨held, heldFound, rfl⟩ := found
    exact present_expire_eq_false_iff.mpr (expires peer held heldFound)

/-! ## Signs of life -/

/-- From one room to the next, what is held as the last sign of life of a peer
was held before or is the given time. -/
def SeenFrom (room next : Room) (peer : String) (sentAt : UInt64) : Prop :=
  ∀ m, next.member peer = some m →
    (∃ held, room.member peer = some held ∧ m.lastSeen = held.lastSeen) ∨
      m.lastSeen = sentAt

namespace SeenFrom

variable {room next : Room} {peer : String} {sentAt : UInt64}

theorem refl (room : Room) (peer : String) (sentAt : UInt64) :
    SeenFrom room room peer sentAt :=
  fun m found => Or.inl ⟨m, found, rfl⟩

theorem trans {last : Room}
    (first : SeenFrom room next peer sentAt)
    (second : SeenFrom next last peer sentAt) :
    SeenFrom room last peer sentAt := by
  intro m found
  rcases second m found with ⟨held, heldFound, same⟩ | new
  · rw [same]
    exact first held heldFound
  · exact Or.inr new

/-- Writing back a record of a known member with the later of both times. -/
theorem store_max
    {held written : Member}
    (found : room.members.lookup peer = some held)
    (atPeer : written.nodeId = peer)
    (seen : written.lastSeen = max sentAt held.lastSeen) :
    SeenFrom room (room.store written) peer sentAt := by
  intro m storedFound
  rw [member_store atPeer] at storedFound
  cases storedFound
  rcases max_choice sentAt held.lastSeen with new | old
  · exact Or.inr (seen.trans new)
  · exact Or.inl ⟨held, found, seen.trans old⟩

/-- Writing a record that was seen at the given time. -/
theorem store_new
    {written : Member}
    (atPeer : written.nodeId = peer)
    (seen : written.lastSeen = sentAt) :
    SeenFrom room (room.store written) peer sentAt := by
  intro m storedFound
  rw [member_store atPeer] at storedFound
  cases storedFound
  exact Or.inr seen

end SeenFrom

theorem seenFrom_touch
    (room : Room) (nodeId : String) (sentAt : UInt64)
    (eligible : Member → Bool) :
    SeenFrom room (room.touch nodeId sentAt eligible) nodeId sentAt := by
  have result := touch_cases room nodeId sentAt eligible
  generalize room.touch nodeId sentAt eligible = next at result ⊢
  cases result with
  | unknown | kept => exact .refl _ _ _
  | seen found atNode => exact .store_new atNode rfl

theorem seenFrom_lww
    (room : Room) (nodeId : String) (seq sentAt : UInt64) (present : Bool)
    (displayName : Option String) :
    SeenFrom room (room.lww nodeId seq sentAt present displayName).2 nodeId
      sentAt := by
  have result := lww_cases room nodeId seq sentAt present displayName
  generalize room.lww nodeId seq sentAt present displayName = next at result ⊢
  cases result with
  | full | older => exact .refl _ _ _
  | creates => exact .store_new rfl rfl
  | removes found atNode | keeps found atNode | newer found atNode =>
      exact .store_max found atNode rfl

theorem seenFrom_mediaLww
    (room : Room) (nodeId : String) (seq sentAt : UInt64)
    (update : MediaUpdate) :
    SeenFrom room (room.mediaLww nodeId seq sentAt update).2 nodeId sentAt := by
  have seen : ∀ m : Member, (update.applyTo seq m).lastSeen = m.lastSeen := by
    intro m
    cases update <;> rfl
  have result := mediaLww_cases room nodeId seq sentAt update
  generalize room.mediaLww nodeId seq sentAt update = next at result ⊢
  cases result with
  | full => exact .refl _ _ _
  | creates unknown free blank atNode =>
      exact .store_new atNode ((seen _).trans (blank ▸ rfl))
  | older found older refreshed atNode =>
      exact .store_max found atNode (refreshed ▸ rfl)
  | newer found newer refreshed atNode =>
      exact .store_max found atNode ((seen _).trans (refreshed ▸ rfl))

theorem seenFrom_apply (room : Room) (env : SignalEnvelope) :
    SeenFrom room (room.apply env).2 env.sender env.sentAt := by
  unfold apply
  split
  · exact .refl _ _ _
  · cases env.signal with
    | offer | answer | iceCandidate | iceEnd | kick | forceMute | recording =>
        exact .refl _ _ _
    | endRoom => exact .refl _ _ _
    | reaction | chat => exact seenFrom_touch _ _ _ _
    | media | screenShare | raiseHand => exact seenFrom_mediaLww _ _ _ _ _
    | join | leave => exact seenFrom_lww _ _ _ _ _ _
    | keepalive =>
        have seen := seenFrom_lww room env.sender env.seq env.sentAt true none
        dsimp only
        split
        next result => exact result ▸ seen
        next result =>
          exact (result ▸ seen).trans (seenFrom_touch _ _ _ _)
        next result => exact result ▸ seen

theorem applyAll_concat
    (room : Room) (envs : List SignalEnvelope) (env : SignalEnvelope) :
    room.applyAll (envs ++ [env]) = ((room.applyAll envs).apply env).2 :=
  List.foldl_append

theorem applyAll_roomId (room : Room) (envs : List SignalEnvelope) :
    (room.applyAll envs).roomId = room.roomId := by
  induction envs using List.reverseRecOn with
  | nil => rfl
  | append_singleton envs env inductionHypothesis =>
      rw [applyAll_concat]
      exact (apply_writes _ env).roomId.trans inductionHypothesis

/-- The last sign of life of a member is dated by one of its envelopes. -/
theorem lastSeen_applyAll
    {start : Room} (fresh : start.members.keys = ∅)
    {envs : List SignalEnvelope} {peer : String} {m : Member}
    (known : (start.applyAll envs).member peer = some m) :
    ∃ env ∈ envs, env.roomId = start.roomId ∧ env.sender = peer ∧
      m.lastSeen = env.sentAt := by
  induction envs using List.reverseRecOn generalizing m with
  | nil =>
      have inRoster := Indexed.mem_keys_of_lookup known
      rw [show start.applyAll [] = start from rfl, fresh] at inRoster
      cases inRoster
  | append_singleton envs env inductionHypothesis =>
      have earlier : ∀ held, (start.applyAll envs).member peer = some held →
          m.lastSeen = held.lastSeen →
          ∃ sent ∈ envs ++ [env], sent.roomId = start.roomId ∧
            sent.sender = peer ∧ m.lastSeen = sent.sentAt := by
        intro held found same
        obtain ⟨sent, member, dated⟩ := inductionHypothesis found
        exact ⟨sent, List.mem_append_left _ member, same ▸ dated⟩
      rw [applyAll_concat] at known
      by_cases ignored :
          env.roomId ≠ (start.applyAll envs).roomId ∨ env.sender = ""
      · rw [apply_ignored ignored] at known
        exact earlier m known rfl
      · simp only [not_or, not_not] at ignored
        by_cases fromPeer : env.sender = peer
        · subst fromPeer
          rcases seenFrom_apply (start.applyAll envs) env m known with
            ⟨held, found, same⟩ | dated
          · exact earlier held found same
          · exact ⟨env, by simp,
              ignored.1.trans (applyAll_roomId start envs), rfl, dated⟩
        · refine earlier m ?_ rfl
          have kept := (apply_writes (start.applyAll envs) env).lookup_of_ne
            (Ne.symm fromPeer)
          exact kept.symm.trans known

/-- Whatever a room is fed, it is emptied by the sweep exactly if the clock can
pass the last sign of life of every present member by more than the stale
window; this is so where it can pass every date that members of the room have
sent. -/
theorem swept_after_any_envelopes
    (roomId me : String) (cap : Nat) (envs : List SignalEnvelope)
    (staleSecs : UInt64) :
    let room := ((new roomId me).withMaxMembers cap).applyAll envs
    (room.EventuallyEmptied staleSecs ↔
        ∀ peer m, room.member peer = some m → m.present = true →
          Expires staleSecs m) ∧
      ((∀ env ∈ envs, env.roomId = roomId →
          env.sentAt.toNat + staleSecs.toNat < UInt64.maxValue.toNat) →
        room.EventuallyEmptied staleSecs) := by
  refine ⟨eventuallyEmptied_iff, fun honest => ?_⟩
  refine eventuallyEmptied_iff.mpr fun peer m known _ => ?_
  obtain ⟨env, member, ours, _, dated⟩ := lastSeen_applyAll rfl known
  rw [Expires, dated]
  exact honest env member ours

/-- A join dated with the greatest word. -/
def foreverJoin : SignalEnvelope :=
  (SignalEnvelope.broadcast "r" 0 UInt64.maxValue (.join none)).withSender "bob"

/-- No sweep ever reaches a member that dates its join so. -/
theorem foreverJoin_never_swept :
    let room := ((new "r" "me").withMaxMembers 1).applyAll [foreverJoin]
    ¬room.EventuallyEmptied 30 := by
  intro room emptied
  have expires := eventuallyEmptied_iff.mp emptied "bob" _ rfl rfl
  exact absurd expires (by unfold Expires; decide)

end Room
end CeMeet
