import CeMeet.Client.Ingest
import CeMeet.Order.Prompt

/-!
# Freshness in front of a reorder buffer

Freshness enforcement drops a stale directed signal before it reaches the
reorder buffer of its sender, so a stale signal is a hole in the sender's
stream.  Fresh signals are delivered as they arrive up to the first stale one,
and held back after it.
-/

namespace CeMeet
namespace MeetClient

/-- A frame that a client receives and what it parses to. -/
structure Arrival (serde : SerdeJson) where
  /-- The client's clock at the reception. -/
  now : UInt64
  /-- The frame. -/
  payload : Bytes
  /-- The envelope in the frame. -/
  env : SignalEnvelope
  /-- The frame parses to the envelope. -/
  parses : SignalEnvelope.fromBytes serde payload = .ok env

variable {serde : SerdeJson}

/-- Whether an arrival is fresh when it is received. -/
def Arrival.isFresh (secs : UInt64) (arrival : Arrival serde) : Bool :=
  arrival.env.isFresh arrival.now secs

/-- What a fresh client with a freshness window delivers, arrival by arrival,
when one peer's frames are all it receives. -/
def delivered (roomId me peer : String) (secs : UInt64)
    (arrivals : List (Arrival serde)) : List (List SignalEnvelope) :=
  Transducer.outputs (ingestFrom serde peer)
    ((new roomId me).withFreshness secs)
    (arrivals.map fun arrival => (arrival.now, arrival.payload))

/-- Whether an arrival is a directed signal for a client. -/
def Arrival.IsFor (roomId me : String) (arrival : Arrival serde) : Prop :=
  arrival.env.signal.isBroadcast = false ∧ arrival.env.roomId = roomId ∧
    arrival.env.addressedTo me

theorem isTimely_eq_isFresh (secs now : UInt64) (env : SignalEnvelope) :
    isTimely secs now env = env.isFresh now secs := by
  by_cases disabled : secs = 0
  · simp [isTimely, SignalEnvelope.isFresh, disabled]
  · simp [isTimely, disabled]

/-- A directed signal fills its slot exactly when it is fresh. -/
theorem slot_arrival
    {roomId me peer : String} {secs : UInt64}
    {arrival : Arrival serde}
    (isFor : arrival.IsFor roomId me) :
    ((new roomId me).withFreshness secs).slot serde peer arrival.now
        arrival.payload =
      if arrival.isFresh secs then some (arrival.env.withSender peer)
      else none := by
  obtain ⟨directed, sameRoom, addressed⟩ := isFor
  unfold slot Arrival.isFresh
  rw [arrival.parses]
  by_cases fresh : arrival.env.isFresh arrival.now secs <;>
    simp [isTimely_eq_isFresh, withFreshness, new, Room.new, directed,
      sameRoom, addressed, fresh]

/-- The stream of slots that the arrivals of one peer fill. -/
def stream (peer : String) (secs : UInt64) (arrivals : List (Arrival serde)) :
    List (Option SignalEnvelope) :=
  arrivals.map fun arrival =>
    if arrival.isFresh secs then some (arrival.env.withSender peer) else none

theorem delivered_eq_outputs
    {roomId me peer : String} {secs : UInt64}
    (authenticated : peer ≠ "")
    {arrivals : List (Arrival serde)}
    (isFor : ∀ arrival ∈ arrivals, arrival.IsFor roomId me) :
    delivered roomId me peer secs arrivals =
      Transducer.outputs OrderedInbox.receive
        (OrderedInbox.withWindow defaultWindow)
        (stream peer secs arrivals) := by
  rw [delivered, outputs_ingestFrom serde _ authenticated, List.map_map, stream]
  refine congrArg _ (List.map_congr_left fun arrival member => ?_)
  exact slot_arrival (isFor arrival member)

theorem getElem?_stream
    {peer : String} {secs : UInt64} {arrivals : List (Arrival serde)}
    {index : Nat} {env : SignalEnvelope} :
    (stream peer secs arrivals)[index]? = some (some env) ↔
      ∃ arrival, arrivals[index]? = some arrival ∧ arrival.isFresh secs ∧
        arrival.env.withSender peer = env := by
  simp [stream]

/-- Every fresh signal of a peer is delivered by the call that received it, and
all of them in order, exactly when no fresh signal arrives after a stale one. -/
theorem delivers_fresh_promptly_iff
    (roomId me peer : String)
    (authenticated : peer ≠ "")
    (secs : UInt64)
    (arrivals : List (Arrival serde))
    (isFor : ∀ arrival ∈ arrivals, arrival.IsFor roomId me)
    (contiguous : ∀ (index : Nat) (arrival : Arrival serde),
      arrivals[index]? = some arrival → arrival.env.seq.toNat = index) :
    ((∀ (index : Nat) (arrival : Arrival serde),
        arrivals[index]? = some arrival → arrival.isFresh secs →
        ∃ output, (delivered roomId me peer secs arrivals)[index]? =
          some output ∧ arrival.env.withSender peer ∈ output) ∧
      (delivered roomId me peer secs arrivals).flatten =
        (arrivals.filter fun arrival => arrival.isFresh secs).map
          fun arrival => arrival.env.withSender peer) ↔
      arrivals.Pairwise fun earlier later =>
        later.isFresh secs → earlier.isFresh secs := by
  have numbered : OrderedInbox.Numbered (stream peer secs arrivals) := by
    intro index env found
    obtain ⟨arrival, present, _, rfl⟩ := getElem?_stream.mp found
    exact contiguous index arrival present
  have prompt := OrderedInbox.prompt_iff defaultWindow (by decide)
    (stream peer secs arrivals) numbered
  have asked :
      OrderedInbox.Prompt defaultWindow (stream peer secs arrivals) ↔
        ∀ (index : Nat) (arrival : Arrival serde),
          arrivals[index]? = some arrival → arrival.isFresh secs →
          ∃ output, (delivered roomId me peer secs arrivals)[index]? =
            some output ∧ arrival.env.withSender peer ∈ output := by
    unfold OrderedInbox.Prompt
    rw [← delivered_eq_outputs authenticated isFor]
    simp only [getElem?_stream]
    constructor
    · intro answered index arrival present fresh
      exact answered index _ ⟨arrival, present, fresh, rfl⟩
    · rintro answered index _ ⟨arrival, present, fresh, rfl⟩
      exact answered index arrival present fresh
  rw [← delivered_eq_outputs authenticated isFor, asked, stream,
    reduceOption_map_ite] at prompt
  rw [prompt, List.pairwise_map]
  simp only [isSome_ite_some]

/-- A trickled candidate line for a client. -/
def candidate (seq sentAt : UInt64) (line : String) : SignalEnvelope :=
  .directed "r" "me" seq sentAt (.iceCandidate line none none)

/-- The frames of two candidates. -/
def candidateFrames : List (SignalEnvelope × Bytes) :=
  [(candidate 0 900 "candidate:1", asBytes
      "\x7b\"room_id\":\"r\",\"from\":\"\",\"to\":\"me\",\"seq\":0,\"sent_at\":900,\"signal\":\x7b\"kind\":\"ice_candidate\",\"candidate\":\"candidate:1\",\"sdp_mid\":null,\"sdp_m_line_index\":null\x7d\x7d"),
    (candidate 1 990 "candidate:12", asBytes
      "\x7b\"room_id\":\"r\",\"from\":\"\",\"to\":\"me\",\"seq\":1,\"sent_at\":990,\"signal\":\x7b\"kind\":\"ice_candidate\",\"candidate\":\"candidate:12\",\"sdp_mid\":null,\"sdp_m_line_index\":null\x7d\x7d")]

set_option maxRecDepth 4000 in
theorem candidateFrames_lengths :
    candidateFrames.map (fun row => row.2.length) = [156, 157] := by
  decide

/-- The serializer of the two candidates. -/
def candidateSerde : SerdeJson :=
  .ofTable candidateFrames (by
    apply List.Nodup.of_map List.length
    rw [List.map_map]
    exact candidateFrames_lengths ▸ (by decide))

theorem fromSlice_candidateSerde
    {row : SignalEnvelope × Bytes}
    (member : row ∈ candidateFrames) :
    candidateSerde.fromSlice row.2 = .ok row.1 := by
  unfold candidateSerde
  exact SerdeJson.fromSlice_ofTable member

/-- A candidate received when the clock shows `now`. -/
def candidateArrival (seq : Fin 2) (now : UInt64) : Arrival candidateSerde where
  now := now
  payload := (candidateFrames.get seq).2
  env := (candidateFrames.get seq).1
  parses := by
    have row : candidateFrames.get seq ∈ candidateFrames :=
      List.get_mem candidateFrames seq
    refine SignalEnvelope.fromBytes_eq_ok_iff.mpr
      ⟨?_, fromSlice_candidateSerde row, ?_⟩
    · have short : ∀ size ∈ candidateFrames.map (fun row => row.2.length),
          size ≤ maxEnvelopeBytes := by
        rw [candidateFrames_lengths]
        decide
      exact short _ (List.mem_map_of_mem row)
    · match seq with
      | 0 => decide
      | 1 => decide

/-- A fresh candidate is delivered although a stale one follows it. -/
theorem delivers_fresh_then_stale :
    ((∀ (index : Nat) (arrival : Arrival candidateSerde),
        [candidateArrival 0 910, candidateArrival 1 2000][index]? =
          some arrival → arrival.isFresh 30 →
        ∃ output, (delivered "r" "me" "ann" 30
          [candidateArrival 0 910, candidateArrival 1 2000])[index]? =
            some output ∧ arrival.env.withSender "ann" ∈ output) ∧
      (delivered "r" "me" "ann" 30
          [candidateArrival 0 910, candidateArrival 1 2000]).flatten =
        ([candidateArrival 0 910, candidateArrival 1 2000].filter
          fun arrival => arrival.isFresh 30).map
            fun arrival => arrival.env.withSender "ann") := by
  refine (delivers_fresh_promptly_iff "r" "me" "ann" (by decide) 30
    [candidateArrival 0 910, candidateArrival 1 2000] ?_ ?_).mpr (by decide)
  · intro arrival member
    simp only [List.mem_cons, List.not_mem_nil, or_false] at member
    rcases member with rfl | rfl <;> exact ⟨rfl, rfl, by decide⟩
  · intro index arrival present
    match index, present with
    | 0, rfl => rfl
    | 1, rfl => rfl

/-- After a stale candidate a fresh one is never delivered. -/
theorem withholds_fresh_after_stale :
    ¬((∀ (index : Nat) (arrival : Arrival candidateSerde),
        [candidateArrival 0 1000, candidateArrival 1 1000][index]? =
          some arrival → arrival.isFresh 30 →
        ∃ output, (delivered "r" "me" "ann" 30
          [candidateArrival 0 1000, candidateArrival 1 1000])[index]? =
            some output ∧ arrival.env.withSender "ann" ∈ output) ∧
      (delivered "r" "me" "ann" 30
          [candidateArrival 0 1000, candidateArrival 1 1000]).flatten =
        ([candidateArrival 0 1000, candidateArrival 1 1000].filter
          fun arrival => arrival.isFresh 30).map
            fun arrival => arrival.env.withSender "ann") := by
  rintro ⟨_, complete⟩
  rw [delivered_eq_outputs (by decide)] at complete
  · revert complete
    decide
  · intro arrival member
    simp only [List.mem_cons, List.not_mem_nil, or_false] at member
    rcases member with rfl | rfl <;> exact ⟨rfl, rfl, by decide⟩

end MeetClient
end CeMeet
