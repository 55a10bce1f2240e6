import CeMeet.Client.Basic

/-!
# Outbound calls

One counter numbers everything a client publishes, whether it is for the whole
room or for one peer.  A sequence of successful calls publishes the frames of
consecutively numbered envelopes.
-/

namespace CeMeet
namespace MeetClient

/-- Whether an envelope is a directed signal for a peer. -/
def isDirectedTo (peer : String) (env : SignalEnvelope) : Bool :=
  !env.signal.isBroadcast && env.addressedTo peer

/-- An outbound call. -/
inductive Outbound
  | announceJoin (displayName : Option String)
  | announceLeave
  | keepalive
  | broadcast (signal : Signal) (forRoom : signal.isBroadcast = true)
  | signalPeer (recipient : String) (signal : Signal)

namespace Outbound

/-- Make an outbound call. -/
def send (serde : SerdeJson) (client : MeetClient) (now : UInt64) :
    Outbound → Option (Except String Publication × MeetClient)
  | .announceJoin displayName => client.announceJoin serde displayName now
  | .announceLeave => client.announceLeave serde now
  | .keepalive => client.keepalive serde now
  | .broadcast signal _ => client.broadcast serde signal now
  | .signalPeer recipient signal => client.signalPeer serde recipient signal now

/-- The envelope an outbound call publishes. -/
def envelope (roomId : String) (seq now : UInt64) : Outbound → SignalEnvelope
  | .announceJoin displayName =>
      .broadcast roomId seq now (.join displayName)
  | .announceLeave => .broadcast roomId seq now .leave
  | .keepalive => .broadcast roomId seq now .keepalive
  | .broadcast signal _ => .broadcast roomId seq now signal
  | .signalPeer recipient signal =>
      .directed roomId recipient seq now signal

/-- Whether an outbound call addresses a directed signal to a peer. -/
def isFor (peer : String) : Outbound → Bool
  | .signalPeer recipient signal => recipient == peer && !signal.isBroadcast
  | .announceJoin _ | .announceLeave | .keepalive | .broadcast .. => false

theorem send_eq_publishNext
    (serde : SerdeJson) (client : MeetClient) (now : UInt64)
    (call : Outbound) :
    call.send serde client now =
      client.publishNext serde fun seq =>
        call.envelope client.room.roomId seq now := by
  cases call <;> rfl

@[simp] theorem envelope_roomId (roomId : String) (seq now : UInt64)
    (call : Outbound) : (call.envelope roomId seq now).roomId = roomId := by
  cases call <;> rfl

@[simp] theorem envelope_seq (roomId : String) (seq now : UInt64)
    (call : Outbound) : (call.envelope roomId seq now).seq = seq := by
  cases call <;> rfl

@[simp] theorem envelope_sender (roomId : String) (seq now : UInt64)
    (call : Outbound) : (call.envelope roomId seq now).sender = "" := by
  cases call <;> rfl

/-- The calls for a peer are those that publish a directed signal for it. -/
@[simp] theorem isDirectedTo_envelope (peer roomId : String)
    (seq now : UInt64) (call : Outbound) :
    isDirectedTo peer (call.envelope roomId seq now) = call.isFor peer := by
  cases call with
  | announceJoin displayName => rfl
  | announceLeave => rfl
  | keepalive => rfl
  | broadcast signal forRoom =>
      simp [isFor, isDirectedTo, envelope, SignalEnvelope.broadcast, forRoom]
  | signalPeer recipient signal =>
      simp [isFor, isDirectedTo, envelope, SignalEnvelope.directed,
        SignalEnvelope.addressedTo, Bool.and_comm]

end Outbound

/-- Make outbound calls one after another, each at a reading of the clock.
There is no result unless all of them succeed. -/
def sendAll (serde : SerdeJson) (client : MeetClient) :
    List (Outbound × UInt64) → Option (List Publication × MeetClient)
  | [] => some ([], client)
  | (call, now) :: calls =>
      match call.send serde client now with
      | some (.ok publication, client) =>
          (sendAll serde client calls).map fun sent =>
            (publication :: sent.1, sent.2)
      | some (.error _, _) | none => none

/-- The envelopes of outbound calls, numbered from a first one. -/
def envelopes (roomId : String) (first : Nat)
    (calls : List (Outbound × UInt64)) : List SignalEnvelope :=
  calls.mapIdx fun index call =>
    call.1.envelope roomId (.ofNat (first + index)) call.2

@[simp] theorem envelopes_cons (roomId : String) (first : Nat)
    (call : Outbound × UInt64) (calls : List (Outbound × UInt64)) :
    envelopes roomId first (call :: calls) =
      call.1.envelope roomId (.ofNat first) call.2 ::
        envelopes roomId (first + 1) calls := by
  simp [envelopes, List.mapIdx_cons, Nat.add_comm, Nat.add_left_comm]

theorem roomId_sender_of_mem_envelopes
    {roomId : String} {first : Nat} {calls : List (Outbound × UInt64)}
    {env : SignalEnvelope}
    (member : env ∈ envelopes roomId first calls) :
    env.roomId = roomId ∧ env.sender = "" := by
  obtain ⟨index, bound, rfl⟩ := List.mem_mapIdx.mp member
  exact ⟨Outbound.envelope_roomId .., Outbound.envelope_sender ..⟩

theorem map_isDirectedTo_envelopes
    (peer roomId : String) (first : Nat) (calls : List (Outbound × UInt64)) :
    (envelopes roomId first calls).map (isDirectedTo peer) =
      calls.map fun call => call.1.isFor peer := by
  induction calls generalizing first with
  | nil => rfl
  | cons call calls inductionHypothesis =>
      simp [inductionHypothesis]

/-! ## Publication -/

/-- A frame that a valid envelope was written to. -/
def IsFrameOf (serde : SerdeJson) (env : SignalEnvelope)
    (publication : Publication) : Prop :=
  serde.toVec env = .ok publication.2 ∧ env.signal.validate = .ok ()

theorem isFrameOf_of_publish
    {serde : SerdeJson} {client : MeetClient} {env : SignalEnvelope}
    {publication : Publication}
    (published : client.publish serde env = .ok publication) :
    IsFrameOf serde env publication := by
  unfold publish at published
  split at published
  next => cases published
  next accepted =>
    unfold SignalEnvelope.toBytes at published
    cases written : serde.toVec env with
    | error message =>
        rw [written] at published
        cases published
    | ok bytes =>
        rw [written] at published
        cases published
        exact ⟨written, accepted⟩

/-- An allocation hands out the counter and increments it. -/
theorem allocates_of_nextOutboundSeq
    {room after : Room} {seq : UInt64}
    (allocated : room.nextOutboundSeq = some (seq, after)) :
    seq = room.nextSeq ∧ after.roomId = room.roomId ∧
      after.nextSeq.toNat = room.nextSeq.toNat + 1 := by
  obtain ⟨available, rfl, rfl⟩ :=
    Room.nextOutboundSeq_eq_some_iff.mp allocated
  exact ⟨rfl, rfl, UInt64.toNat_add_one_of_ne available⟩

/-- A successful call allocates a number and publishes the frame of the
envelope built with it. -/
theorem succeeds_of_publishNext
    {serde : SerdeJson} {client after : MeetClient}
    {build : UInt64 → SignalEnvelope} {publication : Publication}
    (succeeded :
      client.publishNext serde build = some (.ok publication, after)) :
    ∃ room, client.room.nextOutboundSeq = some (client.room.nextSeq, room) ∧
      after = { client with room } ∧
      IsFrameOf serde (build client.room.nextSeq) publication := by
  unfold publishNext at succeeded
  split at succeeded
  next => cases succeeded
  next seq room allocated =>
    obtain ⟨rfl, _, _⟩ := allocates_of_nextOutboundSeq allocated
    simp only [Option.some.injEq, Prod.mk.injEq] at succeeded
    obtain ⟨published, rfl⟩ := succeeded
    exact ⟨room, allocated, rfl, isFrameOf_of_publish published⟩

theorem sendAll_cons_eq_some
    {serde : SerdeJson} {client final : MeetClient} {call : Outbound}
    {now : UInt64} {calls : List (Outbound × UInt64)}
    {published : List Publication}
    (sent : sendAll serde client ((call, now) :: calls) =
      some (published, final)) :
    ∃ publication rest after,
      published = publication :: rest ∧
        call.send serde client now = some (.ok publication, after) ∧
        sendAll serde after calls = some (rest, final) := by
  unfold sendAll at sent
  split at sent
  next publication after succeeded =>
    obtain ⟨⟨rest, last⟩, restSent, same⟩ := Option.map_eq_some_iff.mp sent
    cases same
    exact ⟨publication, rest, after, rfl, succeeded, restSent⟩
  next => cases sent
  next => cases sent

/-- Successful calls publish the frames of their envelopes, and the counter
does not overflow. -/
theorem sendAll_frames
    {serde : SerdeJson} {client final : MeetClient}
    {calls : List (Outbound × UInt64)} {published : List Publication}
    (sent : sendAll serde client calls = some (published, final)) :
    List.Forall₂ (IsFrameOf serde)
        (envelopes client.room.roomId client.room.nextSeq.toNat calls)
        published ∧
      client.room.nextSeq.toNat + calls.length < 2 ^ 64 := by
  induction calls generalizing client published with
  | nil =>
      cases sent
      exact ⟨.nil, final.room.nextSeq.toNat_lt⟩
  | cons call calls inductionHypothesis =>
      obtain ⟨publication, rest, after, rfl, succeeded, restSent⟩ :=
        sendAll_cons_eq_some sent
      rw [Outbound.send_eq_publishNext] at succeeded
      obtain ⟨room, allocated, rfl, frame⟩ := succeeds_of_publishNext succeeded
      obtain ⟨_, sameRoom, counted⟩ := allocates_of_nextOutboundSeq allocated
      obtain ⟨frames, bounded⟩ := inductionHypothesis restSent
      rw [sameRoom, counted] at frames
      rw [counted] at bounded
      rw [envelopes_cons, UInt64.ofNat_toNat, List.length_cons]
      exact ⟨.cons frame frames, by omega⟩

/-! ## Allocation -/

/-- Allocate the sequence numbers of so many publications. -/
def allocate (client : MeetClient) : Nat → Option (List UInt64 × MeetClient)
  | 0 => some ([], client)
  | count + 1 =>
      match client.room.nextOutboundSeq with
      | none => none
      | some (seq, room) =>
          (allocate { client with room } count).map fun allocated =>
            (seq :: allocated.1, allocated.2)

/-- Successful calls allocate the sequence numbers of their envelopes. -/
theorem sendAll_allocates
    {serde : SerdeJson} {client final : MeetClient}
    {calls : List (Outbound × UInt64)} {published : List Publication}
    (sent : sendAll serde client calls = some (published, final)) :
    client.allocate calls.length =
      some ((envelopes client.room.roomId client.room.nextSeq.toNat calls).map
        SignalEnvelope.seq, final) := by
  induction calls generalizing client published with
  | nil =>
      cases sent
      rfl
  | cons call calls inductionHypothesis =>
      obtain ⟨publication, rest, after, rfl, succeeded, restSent⟩ :=
        sendAll_cons_eq_some sent
      rw [Outbound.send_eq_publishNext] at succeeded
      obtain ⟨room, allocated, rfl, _⟩ := succeeds_of_publishNext succeeded
      obtain ⟨_, sameRoom, counted⟩ := allocates_of_nextOutboundSeq allocated
      have restAllocated := inductionHypothesis restSent
      rw [sameRoom, counted] at restAllocated
      simp [allocate, allocated, restAllocated]

/-- Allocated sequence numbers are consecutive. -/
theorem allocate_eq_some
    {client final : MeetClient} {count : Nat} {seqs : List UInt64}
    (allocated : client.allocate count = some (seqs, final)) :
    seqs = (List.range' client.room.nextSeq.toNat count).map .ofNat := by
  induction count generalizing client seqs with
  | zero =>
      cases allocated
      rfl
  | succ count inductionHypothesis =>
      unfold allocate at allocated
      split at allocated
      next => cases allocated
      next seq room taken =>
        obtain ⟨rfl, _, counted⟩ := allocates_of_nextOutboundSeq taken
        obtain ⟨⟨rest, last⟩, restAllocated, same⟩ :=
          Option.map_eq_some_iff.mp allocated
        cases same
        rw [inductionHypothesis restAllocated, counted, List.range'_succ,
          List.map_cons, UInt64.ofNat_toNat]

end MeetClient
end CeMeet
