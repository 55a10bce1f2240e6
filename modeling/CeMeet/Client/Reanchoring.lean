import CeMeet.Client.Freshness

/-!
# The reorder buffers of a restored client

A client rebuilt from a snapshot has no reorder buffers.  The first directed
signal of a peer does not anchor the peer's new buffer unless it carries the
first sequence number: a peer in the middle of its stream is held back.
-/

namespace CeMeet
namespace MeetClient

variable {serde : SerdeJson}

/-- What a restored client returns, arrival by arrival, when one peer's frames
are all it receives. -/
def deliveredAfterRestore
    (snapshot : RoomSnapshot) (peer : String)
    (arrivals : List (Arrival serde)) : List (List SignalEnvelope) :=
  Transducer.outputs (ingestFrom serde peer) (restore snapshot)
    (arrivals.map fun arrival => (arrival.now, arrival.payload))

/-- A directed signal for a restored client fills its slot. -/
theorem slot_restore
    {snapshot : RoomSnapshot} {peer : String}
    {arrival : Arrival serde}
    (isFor : arrival.IsFor snapshot.roomId snapshot.me) :
    (restore snapshot).slot serde peer arrival.now arrival.payload =
      some (arrival.env.withSender peer) := by
  have sameFilters :
      SameFilters ((new snapshot.roomId snapshot.me).withFreshness 0)
        (restore snapshot) :=
    { roomId := rfl, me := rfl, freshnessSecs := rfl }
  have fresh : arrival.isFresh 0 = true := by
    simp [Arrival.isFresh, SignalEnvelope.isFresh]
  rw [sameFilters.slot, slot_arrival isFor, if_pos fresh]

/-- A restored client returns what a fresh reorder buffer releases. -/
theorem deliveredAfterRestore_eq_outputs
    {snapshot : RoomSnapshot} {peer : String}
    (authenticated : peer ≠ "")
    {arrivals : List (Arrival serde)}
    (isFor : ∀ arrival ∈ arrivals,
      arrival.IsFor snapshot.roomId snapshot.me) :
    deliveredAfterRestore snapshot peer arrivals =
      Transducer.outputs OrderedInbox.receive
        (OrderedInbox.withWindow defaultWindow)
        (arrivals.map fun arrival =>
          some (arrival.env.withSender peer)) := by
  rw [deliveredAfterRestore, outputs_ingestFrom serde _ authenticated,
    List.map_map]
  refine congrArg _ (List.map_congr_left fun arrival member => ?_)
  exact slot_restore (isFor arrival member)

/-- A restored client returns each of a peer's contiguous signals in the call
that receives it exactly when the peer's stream starts at the first sequence
number. -/
theorem reanchors_iff
    (snapshot : RoomSnapshot)
    (peer : String)
    (authenticated : peer ≠ "")
    (start : Nat)
    (arrivals : List (Arrival serde))
    (nonempty : arrivals ≠ [])
    (isFor : ∀ arrival ∈ arrivals,
      arrival.IsFor snapshot.roomId snapshot.me)
    (contiguous : ∀ (index : Nat) (arrival : Arrival serde),
      arrivals[index]? = some arrival →
      arrival.env.seq.toNat = start + index) :
    deliveredAfterRestore snapshot peer arrivals =
        arrivals.map (fun arrival => [arrival.env.withSender peer]) ↔
      start = 0 := by
  rw [deliveredAfterRestore_eq_outputs authenticated isFor]
  constructor
  · intro prompt
    obtain ⟨arrival, rest, rfl⟩ := List.exists_cons_of_ne_nil nonempty
    by_contra late
    have numbered := contiguous 0 arrival rfl
    have held : ((OrderedInbox.withWindow defaultWindow).offer
        (arrival.env.withSender peer)).1 = [] :=
      (OrderedInbox.caughtUp_withWindow defaultWindow).offer_held (by decide)
        (lt_of_lt_of_eq (Nat.pos_of_ne_zero late) numbered.symm)
    rw [List.map_cons, List.map_cons, Transducer.outputs_cons] at prompt
    have returned := (List.cons.inj prompt).1
    rw [OrderedInbox.receive, held] at returned
    exact List.cons_ne_nil _ _ returned.symm
  · rintro rfl
    have numbered : OrderedInbox.Numbered
        (arrivals.map fun arrival =>
          some (arrival.env.withSender peer)) := by
      intro index env found
      rw [List.getElem?_map, Option.map_eq_some_iff] at found
      obtain ⟨arrival, present, equal⟩ := found
      cases equal
      exact (contiguous index arrival present).trans (Nat.zero_add index)
    rw [(OrderedInbox.keeps_up defaultWindow _ numbered (by simp)).1,
      List.map_map]
    rfl

/-- The snapshot of a participant who has met nobody. -/
def loneSnapshot : RoomSnapshot :=
  { roomId := "r", me := "me", nextSeq := 0, members := [] }

theorem candidateArrival_isFor (seq : Fin 2) (now : UInt64) :
    (candidateArrival seq now).IsFor loneSnapshot.roomId loneSnapshot.me := by
  match seq with
  | 0 => exact ⟨rfl, rfl, rfl⟩
  | 1 => exact ⟨rfl, rfl, rfl⟩

/-- A stream that starts at the first sequence number is returned signal by
signal. -/
theorem restored_returns_candidates :
    deliveredAfterRestore loneSnapshot "ann"
        [candidateArrival 0 910, candidateArrival 1 1000] =
      [candidateArrival 0 910, candidateArrival 1 1000].map
        fun arrival => [arrival.env.withSender "ann"] := by
  refine (reanchors_iff loneSnapshot "ann" (by decide) 0
    [candidateArrival 0 910, candidateArrival 1 1000] (by simp) ?_ ?_).mpr rfl
  · intro arrival member
    simp only [List.mem_cons, List.not_mem_nil, or_false] at member
    rcases member with rfl | rfl <;> exact candidateArrival_isFor _ _
  · intro index arrival present
    match index, present with
    | 0, rfl => rfl
    | 1, rfl => rfl

/-- A peer that has sent its first candidate before the restoration gets
nothing through. -/
theorem restored_withholds_candidate :
    ¬(deliveredAfterRestore loneSnapshot "ann" [candidateArrival 1 1000] =
      [candidateArrival 1 1000].map
        fun arrival => [arrival.env.withSender "ann"]) := by
  rw [deliveredAfterRestore_eq_outputs (by decide)]
  · decide
  · intro arrival member
    rw [List.mem_singleton] at member
    exact member ▸ candidateArrival_isFor 1 1000

end MeetClient
end CeMeet
