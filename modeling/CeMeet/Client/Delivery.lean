import CeMeet.Client.Ingest
import CeMeet.Client.Outbound

/-!
# Directed delivery over a perfect network

The counter of a sender is shared by everything it publishes, while the reorder
buffer of a receiver expects the signals addressed to it to be numbered
contiguously.  Over a network that neither loses nor reorders a frame, the
receiver delivers what was addressed to it exactly when the calls that
addressed it form a block at the end.
-/

namespace CeMeet
namespace MeetClient

/-- Whether the frame of an envelope is small enough to be parsed. -/
def fits (serde : SerdeJson) (env : SignalEnvelope) : Bool :=
  match serde.toVec env with
  | .ok frame => frame.length ≤ maxEnvelopeBytes
  | .error _ => false

/-- The slot of a peer's stream that an envelope fills when its frame is
received by a client without a freshness window. -/
def envelopeSlot (serde : SerdeJson) (sender me : String)
    (env : SignalEnvelope) : Option SignalEnvelope :=
  if isDirectedTo me env && fits serde env then some (env.withSender sender)
  else none

theorem slot_frame
    {serde : SerdeJson} {receiver : MeetClient} {env : SignalEnvelope}
    {publication : Publication}
    (unlimited : receiver.freshnessSecs = 0)
    (sameRoom : env.roomId = receiver.room.roomId)
    (frame : IsFrameOf serde env publication)
    (sender : String) (now : UInt64) :
    receiver.slot serde sender now publication.2 =
      envelopeSlot serde sender receiver.room.me env := by
  have read := serde.fromSlice_toVec _ _ frame.1
  by_cases small : publication.2.length ≤ maxEnvelopeBytes
  · have parsed := SignalEnvelope.fromBytes_eq_ok_iff.mpr
      ⟨small, read, frame.2⟩
    simp [slot, envelopeSlot, parsed, isTimely, unlimited, sameRoom,
      isDirectedTo, fits, frame.1, small]
  · have refused : SignalEnvelope.fromBytes serde publication.2 = .error _ :=
      if_pos (Nat.lt_of_not_le small)
    simp [slot, envelopeSlot, refused, fits, frame.1, small]

theorem map_slot_frames
    {serde : SerdeJson} {receiver : MeetClient}
    {sent : List SignalEnvelope} {published : List Publication}
    (unlimited : receiver.freshnessSecs = 0)
    (sameRoom : ∀ env ∈ sent, env.roomId = receiver.room.roomId)
    (frames : List.Forall₂ (IsFrameOf serde) sent published)
    (sender : String)
    {arrivals : List (UInt64 × Bytes)}
    (perfect : arrivals.map Prod.snd = published.map Prod.snd) :
    (arrivals.map fun arrival =>
        receiver.slot serde sender arrival.1 arrival.2) =
      sent.map (envelopeSlot serde sender receiver.room.me) := by
  induction frames generalizing arrivals with
  | nil =>
      rw [List.map_eq_nil_iff.mp perfect]
      rfl
  | cons frame frames inductionHypothesis =>
      obtain ⟨arrival, rest, rfl, same, restPerfect⟩ :=
        List.map_eq_cons_iff.mp perfect
      rw [List.map_cons, List.map_cons, same,
        slot_frame unlimited (sameRoom _ List.mem_cons_self) frame,
        inductionHypothesis
          (fun env member => sameRoom env (List.mem_cons_of_mem _ member))
          restPerfect]

theorem numbered_envelopeSlot
    (serde : SerdeJson) (sender me roomId : String)
    {calls : List (Outbound × UInt64)}
    (short : calls.length < 2 ^ 64) :
    OrderedInbox.Numbered
      ((envelopes roomId 0 calls).map (envelopeSlot serde sender me)) := by
  intro index env found
  simp only [List.getElem?_map, envelopes, List.getElem?_mapIdx,
    Option.map_map, Option.map_eq_some_iff, Function.comp_apply] at found
  obtain ⟨call, present, filled⟩ := found
  obtain ⟨bound, _⟩ := List.getElem?_eq_some_iff.mp present
  unfold envelopeSlot at filled
  split at filled
  next =>
    cases filled
    simp only [SignalEnvelope.withSender_seq, Outbound.envelope_seq, Nat.zero_add]
    exact UInt64.toNat_ofNat_of_lt' (lt_trans bound short)
  next => cases filled

/-- What a receiver delivers from one sender. -/
def deliveredFrom (serde : SerdeJson) (sender : String) (receiver : MeetClient)
    (arrivals : List (UInt64 × Bytes)) : List SignalEnvelope :=
  (Transducer.outputs (ingestFrom serde sender) receiver arrivals).flatten

/-- The directed signals that outbound calls address to a peer. -/
def addressed (sender peer roomId : String)
    (calls : List (Outbound × UInt64)) : List SignalEnvelope :=
  ((envelopes roomId 0 calls).filter (isDirectedTo peer)).map
    fun env => env.withSender sender

theorem deliveredFrom_eq_outputs
    {serde : SerdeJson} {sender : String} {receiver : MeetClient}
    (authenticated : sender ≠ "")
    (unlimited : receiver.freshnessSecs = 0)
    (unheard : receiver.router.inbox sender = .withWindow defaultWindow)
    {calls : List (Outbound × UInt64)} {published : List Publication}
    {final : MeetClient}
    (sent : sendAll serde (new receiver.room.roomId sender) calls =
      some (published, final))
    {arrivals : List (UInt64 × Bytes)}
    (perfect : arrivals.map Prod.snd = published.map Prod.snd) :
    deliveredFrom serde sender receiver arrivals =
      (Transducer.outputs OrderedInbox.receive
        (OrderedInbox.withWindow defaultWindow)
        ((envelopes receiver.room.roomId 0 calls).map
          (envelopeSlot serde sender receiver.room.me))).flatten := by
  rw [deliveredFrom, outputs_ingestFrom serde receiver authenticated, unheard,
    map_slot_frames unlimited
      (fun env member => (roomId_sender_of_mem_envelopes member).1)
      (sendAll_frames sent).1 sender perfect]
  rfl

/-- When every signal for a peer fits into a frame, the slots are filled by the
calls for the peer. -/
theorem envelopeSlot_of_fits
    {serde : SerdeJson} {me : String} {env : SignalEnvelope}
    (fitting : isDirectedTo me env → fits serde env)
    (sender : String) :
    envelopeSlot serde sender me env =
      if isDirectedTo me env then some (env.withSender sender) else none := by
  unfold envelopeSlot
  by_cases directed : isDirectedTo me env
  · simp [directed, fitting directed]
  · simp [directed]

/-- A slot is only filled by the envelope of a fitting frame. -/
theorem eq_and_fits_of_envelopeSlot
    {serde : SerdeJson} {sender me : String}
    {env filling : SignalEnvelope}
    (filled : envelopeSlot serde sender me env = some filling) :
    env.withSender sender = filling ∧ fits serde env := by
  unfold envelopeSlot at filled
  split at filled
  next passes =>
    rw [Bool.and_eq_true] at passes
    exact ⟨Option.some.inj filled, passes.2⟩
  next => cases filled

theorem eq_of_withSender_eq
    {left right : SignalEnvelope} {sender : String}
    (leftUnstamped : left.sender = "")
    (rightUnstamped : right.sender = "")
    (same : left.withSender sender = right.withSender sender) :
    left = right := by
  cases left
  cases right
  cases leftUnstamped
  cases rightUnstamped
  cases same
  rfl

theorem endsInBlock_envelopes
    (sender me roomId : String) (window : Nat)
    (calls : List (Outbound × UInt64)) :
    EndsInBlock Option.isSome window
        ((envelopes roomId 0 calls).map fun env =>
          if isDirectedTo me env then some (env.withSender sender) else none) ↔
      EndsInBlock (fun call => call.1.isFor me) window calls := by
  have overEnvelopes := endsInBlock_map id window (isDirectedTo me)
    (envelopes roomId 0 calls)
  have overCalls := endsInBlock_map id window
    (fun call : Outbound × UInt64 => call.1.isFor me) calls
  rw [map_isDirectedTo_envelopes] at overEnvelopes
  rw [endsInBlock_map]
  simp only [isSome_ite_some]
  exact overEnvelopes.symm.trans overCalls

/-- Over a perfect network, what a receiver delivers from a sender are the
directed signals that the sender's calls addressed to it, exactly when each of
these signals fits into a frame and the calls that addressed them form a block
at the end. -/
theorem delivers_addressed_iff
    (serde : SerdeJson)
    (sender : String)
    (authenticated : sender ≠ "")
    (receiver : MeetClient)
    (unlimited : receiver.freshnessSecs = 0)
    (unheard : receiver.router.inbox sender = .withWindow defaultWindow)
    (calls : List (Outbound × UInt64))
    (published : List Publication)
    (final : MeetClient)
    (sent : sendAll serde (new receiver.room.roomId sender) calls =
      some (published, final))
    (arrivals : List (UInt64 × Bytes))
    (perfect : arrivals.map Prod.snd = published.map Prod.snd) :
    deliveredFrom serde sender receiver arrivals =
        addressed sender receiver.room.me receiver.room.roomId calls ↔
      (∀ env ∈ envelopes receiver.room.roomId 0 calls,
          isDirectedTo receiver.room.me env → fits serde env) ∧
        EndsInBlock (fun call => call.1.isFor receiver.room.me) 64 calls := by
  have short : calls.length < 2 ^ 64 := by
    have bounded := (sendAll_frames sent).2
    omega
  have numbered := numbered_envelopeSlot serde sender receiver.room.me
    receiver.room.roomId short
  have shortSlots : ((envelopes receiver.room.roomId 0 calls).map
      (envelopeSlot serde sender receiver.room.me)).length < 2 ^ 64 := by
    simpa [envelopes] using short
  have follows :=
    (OrderedInbox.follows_outputs defaultWindow _ numbered shortSlots).1
  have complete_iff := OrderedInbox.flatten_outputs_receive_eq_iff
    defaultWindow _ numbered shortSlots
  rw [← deliveredFrom_eq_outputs authenticated unlimited unheard sent perfect]
    at follows complete_iff
  have decides :
      (∀ env ∈ envelopes receiver.room.roomId 0 calls,
          isDirectedTo receiver.room.me env → fits serde env) →
        (deliveredFrom serde sender receiver arrivals =
            addressed sender receiver.room.me receiver.room.roomId calls ↔
          EndsInBlock (fun call => call.1.isFor receiver.room.me) 64
            calls) := by
    intro fitting
    rw [List.map_congr_left fun env member =>
        envelopeSlot_of_fits (fitting env member) sender,
      reduceOption_map_ite, endsInBlock_envelopes] at complete_iff
    exact complete_iff
  constructor
  · intro complete
    have fitting : ∀ env ∈ envelopes receiver.room.roomId 0 calls,
        isDirectedTo receiver.room.me env → fits serde env := by
      intro env member directed
      have released : env.withSender sender ∈
          deliveredFrom serde sender receiver arrivals := by
        rw [complete]
        exact List.mem_map_of_mem (List.mem_filter.mpr ⟨member, directed⟩)
      obtain ⟨other, otherMember, filled⟩ :=
        List.mem_map.mp (follows.released _ released)
      obtain ⟨stamped, fitting⟩ := eq_and_fits_of_envelopeSlot filled
      rwa [← eq_of_withSender_eq
        (roomId_sender_of_mem_envelopes otherMember).2
        (roomId_sender_of_mem_envelopes member).2 stamped]
    exact ⟨fitting, (decides fitting).mp complete⟩
  · rintro ⟨fitting, block⟩
    exact (decides fitting).mpr block

/-- Two calls of which the second is for a peer. -/
def joinThenOffer : List (Outbound × UInt64) :=
  [(.announceJoin none, 1000), (.signalPeer "bob" (.offer "v=0"), 1000)]

/-- Two calls of which the first is for a peer. -/
def answerThenKeepalive : List (Outbound × UInt64) :=
  [(.signalPeer "bob" (.answer "v=0"), 1000), (.keepalive, 1000)]

/-- The frames of the calls. -/
def callFrames : List Bytes :=
  [asBytes
      "\x7b\"room_id\":\"r\",\"from\":\"\",\"to\":null,\"seq\":0,\"sent_at\":1000,\"signal\":\x7b\"kind\":\"join\",\"display_name\":null\x7d\x7d",
    asBytes
      "\x7b\"room_id\":\"r\",\"from\":\"\",\"to\":\"bob\",\"seq\":1,\"sent_at\":1000,\"signal\":\x7b\"kind\":\"offer\",\"sdp\":\"v=0\"\x7d\x7d",
    asBytes
      "\x7b\"room_id\":\"r\",\"from\":\"\",\"to\":\"bob\",\"seq\":0,\"sent_at\":1000,\"signal\":\x7b\"kind\":\"answer\",\"sdp\":\"v=0\"\x7d\x7d",
    asBytes
      "\x7b\"room_id\":\"r\",\"from\":\"\",\"to\":null,\"seq\":1,\"sent_at\":1000,\"signal\":\x7b\"kind\":\"keepalive\"\x7d\x7d"]

set_option maxRecDepth 4000 in
theorem callFrames_lengths :
    callFrames.map List.length = [103, 97, 98, 88] := by
  decide

/-- The serializer of the calls. -/
def callSerde : SerdeJson :=
  .ofTable
    ((envelopes "r" 0 (joinThenOffer) ++ envelopes "r" 0 answerThenKeepalive).zip
      callFrames)
    (by
      rw [List.map_snd_zip (by decide)]
      apply List.Nodup.of_map List.length
      rw [callFrames_lengths]
      decide)

set_option maxRecDepth 4000 in
/-- A signal that precedes the calls for other purposes is delivered. -/
theorem delivers_answer_first :
    deliveredFrom callSerde "ann" (new "r" "bob")
        ([callFrames[2], callFrames[3]].map fun frame => (1000, frame)) =
      addressed "ann" "bob" "r" answerThenKeepalive := by
  refine (delivers_addressed_iff callSerde "ann" (by decide) (new "r" "bob")
    rfl rfl answerThenKeepalive
    [(roomTopic "r", callFrames[2]), (roomTopic "r", callFrames[3])] _ rfl _
    rfl).mpr ⟨?_, ?_⟩
  · decide
  · exact ⟨[], [answerThenKeepalive[0]], [answerThenKeepalive[1]], rfl,
      by decide, by decide, Or.inl rfl⟩

set_option maxRecDepth 4000 in
/-- A signal that follows a call for another purpose is held back. -/
theorem withholds_offer_after_join :
    ∃ published final,
      sendAll callSerde (new "r" "ann") joinThenOffer =
          some (published, final) ∧
        deliveredFrom callSerde "ann" (new "r" "bob")
            (published.map fun publication => (1000, publication.2)) ≠
          addressed "ann" "bob" "r" joinThenOffer := by
  have sent : sendAll callSerde (new "r" "ann") joinThenOffer =
      some ([(roomTopic "r", callFrames[0]), (roomTopic "r", callFrames[1])],
        _) := rfl
  refine ⟨_, _, sent, ?_⟩
  rw [deliveredFrom_eq_outputs (by decide) rfl rfl sent (by simp)]
  decide

end MeetClient
end CeMeet
