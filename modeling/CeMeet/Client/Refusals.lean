import CeMeet.Client.Bounds
import CeMeet.Client.Outbound
import CeMeet.Foundation.Transducer

/-!
# Refused publications

A helper takes a number before the signal is checked, and a call that is refused
does not give it back.  The number is missing among those that are published.
-/

namespace CeMeet
namespace MeetClient

/-- A call of a helper that publishes. -/
inductive HelperCall
  | announceJoin (displayName : Option String)
  | announceLeave
  | keepalive
  | signalPeer (recipient : String) (signal : Signal)
  | broadcast (signal : Signal)
  | signalDirected (recipient : String) (signal : Signal)
  | setMedia (audioMuted videoMuted : Bool)
  | setScreenShare (active : Bool)
  | raiseHand (raised : Bool)
  | react (emoji : String)
  | chat (body : String)
  | announceRecording (active : Bool)
  | kick (target : String) (reason : Option String)
  | forceMute (target : String) (audioMuted : Bool)
  | endRoom (reason : Option String)

namespace HelperCall

/-- The signal that a call publishes. -/
def signal : HelperCall → Signal
  | announceJoin displayName => .join displayName
  | announceLeave => .leave
  | keepalive => .keepalive
  | signalPeer _ signal | broadcast signal | signalDirected _ signal => signal
  | setMedia audioMuted videoMuted => .media audioMuted videoMuted
  | setScreenShare active => .screenShare active
  | raiseHand raised => .raiseHand raised
  | react emoji => .reaction emoji
  | chat body => .chat body
  | announceRecording active => .recording active
  | kick _ reason => .kick reason
  | forceMute _ audioMuted => .forceMute audioMuted
  | endRoom reason => .endRoom reason

/-- The peer that a call is for, if it is for one. -/
def recipient : HelperCall → Option String
  | signalPeer recipient _ | signalDirected recipient _ => some recipient
  | kick target _ | forceMute target _ => some target
  | _ => none

/-- Make a call. -/
def perform (serde : SerdeJson) (client : MeetClient) (now : UInt64) :
    HelperCall → Option (Except String Publication × MeetClient)
  | announceJoin displayName => client.announceJoin serde displayName now
  | announceLeave => client.announceLeave serde now
  | keepalive => client.keepalive serde now
  | signalPeer recipient signal => client.signalPeer serde recipient signal now
  | broadcast signal => client.broadcast serde signal now
  | signalDirected recipient signal =>
      client.signalDirected serde recipient signal now
  | setMedia audioMuted videoMuted =>
      client.setMedia serde audioMuted videoMuted now
  | setScreenShare active => client.setScreenShare serde active now
  | raiseHand raised => client.raiseHand serde raised now
  | react emoji => client.react serde emoji now
  | chat body => client.chat serde body now
  | announceRecording active => client.announceRecording serde active now
  | kick target reason => client.kick serde target reason now
  | forceMute target audioMuted => client.forceMute serde target audioMuted now
  | endRoom reason => client.endRoom serde reason now

/-- The envelope of a call. -/
def envelope (roomId : String) (seq now : UInt64) (call : HelperCall) :
    SignalEnvelope :=
  { roomId
    sender := ""
    recipient := call.recipient
    seq
    sentAt := now
    signal := call.signal }

/-- Every helper takes a number and publishes the envelope built with it. -/
theorem perform_eq_publishNext
    (serde : SerdeJson) (client : MeetClient) (now : UInt64)
    (call : HelperCall) :
    call.perform serde client now =
      client.publishNext serde fun seq =>
        call.envelope client.room.roomId seq now := by
  cases call <;> rfl

end HelperCall

/-- Make a call at a reading of the clock.  When the counter overflows there is
no result, and the client is left as it is. -/
def invoke (serde : SerdeJson) (client : MeetClient)
    (call : HelperCall × UInt64) :
    Option (Except String Publication) × MeetClient :=
  match call.1.perform serde client call.2 with
  | some (result, client) => (some result, client)
  | none => (none, client)

/-- The client after a list of calls. -/
abbrev afterHelpers (serde : SerdeJson) (client : MeetClient)
    (calls : List (HelperCall × UInt64)) : MeetClient :=
  Transducer.final (invoke serde) client calls

/-- The number in the frame that a call has handed to the transport. -/
def handedSeq (serde : SerdeJson) :
    Option (Except String Publication) → Option UInt64
  | some (.ok publication) =>
      match serde.fromSlice publication.2 with
      | .ok env => some env.seq
      | .error _ => none
  | _ => none

/-- The numbers in the frames that a list of calls hands to the transport. -/
def handedSeqs (serde : SerdeJson) (client : MeetClient)
    (calls : List (HelperCall × UInt64)) : List UInt64 :=
  (Transducer.outputs (invoke serde) client calls).filterMap
    (handedSeq serde)

/-- Numbers without a gap. -/
def Contiguous (seqs : List UInt64) : Prop :=
  ∃ first count, seqs.map UInt64.toNat = List.range' first count

/-- Refused calls leave no trace: each returns an error and leaves the counter
as it was, and the numbers that are published have no gap. -/
structure RefusesTracelessly (serde : SerdeJson) (client : MeetClient)
    (calls : List (HelperCall × UInt64)) : Prop where
  /-- A call whose signal is invalid returns an error and takes no number. -/
  refused : ∀ done call rest, calls = done ++ call :: rest →
    call.1.signal.validate ≠ .ok () →
    (∃ message, (invoke serde (afterHelpers serde client done) call).1 =
        some (.error message)) ∧
      (invoke serde (afterHelpers serde client done) call).2.room.outboundSeq =
        (afterHelpers serde client done).room.outboundSeq
  /-- The published numbers have no gap. -/
  contiguous : Contiguous (handedSeqs serde client calls)

/-- The serializer writes the envelopes of a list of calls under the numbers
they are made with. -/
def WritesCalls (serde : SerdeJson) (roomId : String) (first : Nat)
    (calls : List (HelperCall × UInt64)) : Prop :=
  ∀ index (call : HelperCall × UInt64), calls[index]? = some call →
    ∃ bytes, serde.toVec
      (call.1.envelope roomId (.ofNat (first + index)) call.2) = .ok bytes

/-! ## One call -/

/-- At the greatest word a call has no result. -/
theorem invoke_of_overflow
    {client : MeetClient} (atTop : client.room.nextSeq = UInt64.maxValue)
    (serde : SerdeJson) (call : HelperCall × UInt64) :
    invoke serde client call = (none, client) := by
  have none : client.room.nextOutboundSeq = none := if_pos atTop
  rw [invoke, HelperCall.perform_eq_publishNext, publishNext, none]

/-- A client that has taken a number. -/
def counted (client : MeetClient) : MeetClient :=
  { client with
    room := { client.room with nextSeq := client.room.nextSeq + 1 } }

/-- Below it a call takes a number and publishes its envelope under it. -/
theorem invoke_of_available
    {client : MeetClient} (available : client.room.nextSeq ≠ UInt64.maxValue)
    (serde : SerdeJson) (call : HelperCall × UInt64) :
    invoke serde client call =
      (some (client.counted.publish serde
        (call.1.envelope client.room.roomId client.room.nextSeq call.2)),
        client.counted) := by
  have allocated := Room.nextOutboundSeq_eq_some_iff.mpr
    ⟨available, rfl, rfl⟩
  rw [invoke, HelperCall.perform_eq_publishNext, publishNext, allocated]
  rfl

/-- A call that returns an error has taken a number. -/
theorem invoke_takes_number
    {serde : SerdeJson} {client : MeetClient} {call : HelperCall × UInt64}
    {message : String}
    (refused : (invoke serde client call).1 = some (.error message)) :
    (invoke serde client call).2.room.outboundSeq ≠
      client.room.outboundSeq := by
  by_cases atTop : client.room.nextSeq = UInt64.maxValue
  · rw [invoke_of_overflow atTop] at refused
    cases refused
  · rw [invoke_of_available atTop]
    intro same
    have counted := UInt64.toNat_add_one_of_ne atTop
    rw [show client.room.nextSeq + 1 = client.room.nextSeq from same] at counted
    omega

/-! ## A run of calls -/

/-- A call with a valid signal hands its number to the transport. -/
theorem handedSeqs_cons_of_valid
    {serde : SerdeJson} {client : MeetClient} {bytes : Bytes}
    (call : HelperCall × UInt64) (calls : List (HelperCall × UInt64))
    (available : client.room.nextSeq ≠ UInt64.maxValue)
    (valid : call.1.signal.validate = .ok ())
    (written : serde.toVec
      (call.1.envelope client.room.roomId client.room.nextSeq call.2) =
        .ok bytes) :
    handedSeqs serde client (call :: calls) =
      client.room.nextSeq :: handedSeqs serde client.counted calls := by
  have handed : handedSeq serde (invoke serde client call).1 =
      some client.room.nextSeq := by
    rw [invoke_of_available available,
      publish_eq_ok_iff.mpr ⟨valid, bytes, written, rfl⟩, handedSeq,
      serde.fromSlice_toVec _ bytes written]
    rfl
  rw [handedSeqs, Transducer.outputs_cons, List.filterMap_cons_some handed,
    invoke_of_available available, handedSeqs]

/-- A call with an invalid signal hands over nothing, and its number is
gone. -/
theorem handedSeqs_cons_of_invalid
    {serde : SerdeJson} {client : MeetClient}
    (call : HelperCall × UInt64) (calls : List (HelperCall × UInt64))
    (available : client.room.nextSeq ≠ UInt64.maxValue)
    (invalid : call.1.signal.validate ≠ .ok ()) :
    handedSeqs serde client (call :: calls) =
      handedSeqs serde client.counted calls := by
  have handed : handedSeq serde (invoke serde client call).1 = none := by
    rw [invoke_of_available available]
    cases published : client.counted.publish serde
        (call.1.envelope client.room.roomId client.room.nextSeq call.2) with
    | error message => rfl
    | ok publication =>
        exact absurd (publish_eq_ok_iff.mp published).1 invalid
  rw [handedSeqs, Transducer.outputs_cons, List.filterMap_cons_none handed,
    invoke_of_available available, handedSeqs]

theorem WritesCalls.head
    {serde : SerdeJson} {roomId : String} {first : Nat}
    {call : HelperCall × UInt64} {calls : List (HelperCall × UInt64)}
    (writes : WritesCalls serde roomId first (call :: calls)) :
    ∃ bytes, serde.toVec
      (call.1.envelope roomId (.ofNat first) call.2) = .ok bytes :=
  writes 0 call rfl

theorem WritesCalls.tail
    {serde : SerdeJson} {roomId : String} {first : Nat}
    {call : HelperCall × UInt64} {calls : List (HelperCall × UInt64)}
    (writes : WritesCalls serde roomId first (call :: calls)) :
    WritesCalls serde roomId (first + 1) calls := by
  intro index later found
  rw [Nat.add_assoc, Nat.add_comm 1 index]
  exact writes (index + 1) later found

/-- At the greatest word nothing more is published. -/
theorem handedSeqs_of_overflow
    {client : MeetClient} (atTop : client.room.nextSeq = UInt64.maxValue)
    (serde : SerdeJson) (calls : List (HelperCall × UInt64)) :
    handedSeqs serde client calls = [] := by
  induction calls with
  | nil => rfl
  | cons call calls inductionHypothesis =>
      rw [handedSeqs, Transducer.outputs_cons, invoke_of_overflow atTop]
      exact inductionHypothesis

/-- Valid calls publish the numbers from the counter on. -/
theorem handedSeqs_of_valid
    {serde : SerdeJson} {client : MeetClient}
    {calls : List (HelperCall × UInt64)}
    (writes : WritesCalls serde client.room.roomId client.room.nextSeq.toNat
      calls)
    (valid : ∀ call ∈ calls, call.1.signal.validate = .ok ()) :
    ∃ count, (handedSeqs serde client calls).map UInt64.toNat =
      List.range' client.room.nextSeq.toNat count := by
  induction calls generalizing client with
  | nil => exact ⟨0, rfl⟩
  | cons call calls inductionHypothesis =>
      by_cases atTop : client.room.nextSeq = UInt64.maxValue
      · exact ⟨0, by rw [handedSeqs_of_overflow atTop]; rfl⟩
      · have next := UInt64.toNat_add_one_of_ne atTop
        obtain ⟨bytes, written⟩ := writes.head
        rw [UInt64.ofNat_toNat] at written
        have later : WritesCalls serde client.counted.room.roomId
            client.counted.room.nextSeq.toNat calls := by
          change WritesCalls serde client.room.roomId
            (client.room.nextSeq + 1).toNat calls
          rw [next]
          exact writes.tail
        obtain ⟨count, rest⟩ := inductionHypothesis later fun other member =>
          valid other (List.mem_cons_of_mem _ member)
        refine ⟨count + 1, ?_⟩
        change _ = List.range' (client.room.nextSeq + 1).toNat count at rest
        rw [handedSeqs_cons_of_valid call calls atTop
          (valid call List.mem_cons_self) written, List.map_cons,
          List.range'_succ, ← next, ← rest]

/-- Along every run of helper calls refused calls leave no trace exactly if
every call's signal is valid; the serializer is assumed to write what it is
given. -/
theorem refusesTracelessly_iff
    (serde : SerdeJson) (client : MeetClient)
    (calls : List (HelperCall × UInt64))
    (writes : WritesCalls serde client.room.roomId client.room.nextSeq.toNat
      calls) :
    RefusesTracelessly serde client calls ↔
      ∀ call ∈ calls, call.1.signal.validate = .ok () := by
  constructor
  · intro traceless call member
    by_contra invalid
    obtain ⟨done, rest, split⟩ := List.append_of_mem member
    obtain ⟨⟨message, refused⟩, unchanged⟩ :=
      traceless.refused done call rest split invalid
    exact invoke_takes_number refused unchanged
  · intro valid
    refine ⟨fun done call rest split invalid => ?_, ?_⟩
    · exact absurd (valid call (by simp [split])) invalid
    · obtain ⟨count, handed⟩ := handedSeqs_of_valid writes valid
      exact ⟨_, count, handed⟩

/-- A candidate that is too long. -/
def longCandidate : Signal :=
  .iceCandidate (lineFeeds (maxCandidateLen + 1)) none none

theorem validate_longCandidate : longCandidate.validate ≠ .ok () := by
  rw [longCandidate, Signal.validate, Signal.check, utf8ByteSize_lineFeeds,
    if_pos (Nat.lt_succ_self _)]
  intro accepted
  cases accepted

/-- An offer to a peer and the end of the candidates. -/
def offerThenEnd : List (HelperCall × UInt64) :=
  [(.signalPeer "bob" (.offer "v=0"), 10), (.signalPeer "bob" .iceEnd, 12)]

/-- The same with a candidate that is too long in between. -/
def candidateTooLong : List (HelperCall × UInt64) :=
  [(.signalPeer "bob" (.offer "v=0"), 10),
    (.signalPeer "bob" longCandidate, 11),
    (.signalPeer "bob" .iceEnd, 1002)]

/-- The envelopes that are published, with their frames. -/
def callFrameTable : List (SignalEnvelope × Bytes) :=
  [.directed "r" "bob" 0 10 (.offer "v=0"),
    .directed "r" "bob" 1 12 .iceEnd,
    .directed "r" "bob" 2 1002 .iceEnd].map fun env =>
      (env, env.toJson.render)

theorem callFrameTable_distinct : (callFrameTable.map Prod.snd).Nodup := by
  apply List.Nodup.of_map List.length
  simp only [callFrameTable, List.map_cons, List.map_nil,
    SignalEnvelope.length_render_toJson]
  decide

/-- The serializer of these envelopes. -/
def callTableSerde : SerdeJson :=
  .ofTable callFrameTable callFrameTable_distinct

theorem callTableSerde_writes :
    ∀ row ∈ callFrameTable, callTableSerde.toVec row.1 = .ok row.2 :=
  fun _ member => SerdeJson.toVec_ofTable (by decide) member

/-- The two valid calls publish their numbers without a gap. -/
theorem offerThenEnd_traceless :
    RefusesTracelessly callTableSerde (new "r" "ann") offerThenEnd := by
  refine (refusesTracelessly_iff _ _ _ ?_).mpr (by decide)
  intro index call found
  match index with
  | 0 =>
      cases found
      exact ⟨_, callTableSerde_writes _ List.mem_cons_self⟩
  | 1 =>
      cases found
      exact ⟨_, callTableSerde_writes _
        (List.mem_cons_of_mem _ List.mem_cons_self)⟩
  | index + 2 => cases found

/-- The number of the candidate is missing among those that are published, and
the peer holds the end of the candidates back. -/
theorem candidateTooLong_leaves_gap :
    handedSeqs callTableSerde (new "r" "ann") candidateTooLong = [0, 2] ∧
      ¬RefusesTracelessly callTableSerde (new "r" "ann") candidateTooLong ∧
      ((OrderedInbox.new.offer
        (.directed "r" "bob" 0 10 (.offer "v=0"))).2.offer
          (.directed "r" "bob" 2 1002 .iceEnd)).1 = [] := by
  have offerWritten := callTableSerde_writes _ List.mem_cons_self
  have endWritten := callTableSerde_writes _
    (List.mem_cons_of_mem _ (List.mem_cons_of_mem _ List.mem_cons_self))
  have first : (new "r" "ann").room.nextSeq ≠ UInt64.maxValue := by decide
  have second : (new "r" "ann").counted.room.nextSeq ≠ UInt64.maxValue := by
    decide
  have third :
      (new "r" "ann").counted.counted.room.nextSeq ≠ UInt64.maxValue := by
    decide
  have offerValid : (Signal.offer "v=0").validate = .ok () := by decide
  have handed :=
    calc handedSeqs callTableSerde (new "r" "ann") candidateTooLong
      _ = 0 :: handedSeqs callTableSerde (new "r" "ann").counted
            [(.signalPeer "bob" longCandidate, 11),
              (.signalPeer "bob" .iceEnd, 1002)] :=
          handedSeqs_cons_of_valid (.signalPeer "bob" (.offer "v=0"), 10) _
            first offerValid offerWritten
      _ = 0 :: handedSeqs callTableSerde (new "r" "ann").counted.counted
            [(.signalPeer "bob" .iceEnd, 1002)] :=
          congrArg _ (handedSeqs_cons_of_invalid
            (.signalPeer "bob" longCandidate, 11) _ second
            validate_longCandidate)
      _ = [0, 2] :=
          congrArg _ (handedSeqs_cons_of_valid (.signalPeer "bob" .iceEnd, 1002)
            _ third rfl endWritten)
  refine ⟨handed, fun traceless => ?_, by decide⟩
  obtain ⟨start, count, numbers⟩ := traceless.contiguous
  rw [handed] at numbers
  match count with
  | 0 | 1 => cases numbers
  | count + 2 =>
      rw [List.range'_succ, List.range'_succ] at numbers
      obtain ⟨zero, rest⟩ := List.cons.inj numbers
      have two := (List.cons.inj rest).1
      rw [← zero] at two
      cases two

end MeetClient
end CeMeet
