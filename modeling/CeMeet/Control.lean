import CeMeet.Client.Bounds
import CeMeet.Client.Outbound
import CeMeet.Room.MediaState

/-!
# The `control` command

Every run of the command builds a client of its own, whose counter starts at
zero, so all commands of a node publish under one number.  A room takes the
first media command of a dimension and ignores the others.
-/

namespace CeMeet

/-- An in-call control signal for the whole room. -/
inductive ControlAction
  | mute (audio video : Bool)
  | share (off : Bool)
  | hand (down : Bool)
  | react (emoji : String)
  | chat (body : String)
  | record (stop : Bool)

/-- Run the command: what it publishes and what it prints. -/
def control (serde : SerdeJson) (me room : String) (now : UInt64)
    (action : ControlAction) :
    Option (Except String (Publication × String)) :=
  let client := MeetClient.new room me
  let (sent, what) : Option (Except String Publication × MeetClient) ×
      String :=
    match action with
    | .mute audio video =>
        (client.setMedia serde audio video now,
          s!"media (audio_muted={audio}, video_muted={video})")
    | .share off =>
        (client.setScreenShare serde (!off) now,
          "screen-share " ++ if off then "stopped" else "started")
    | .hand down =>
        (client.raiseHand serde (!down) now,
          "hand " ++ if down then "lowered" else "raised")
    | .react emoji => (client.react serde emoji now, s!"reaction {emoji}")
    | .chat body => (client.chat serde body now, "chat")
    | .record stop =>
        (client.announceRecording serde (!stop) now,
          "recording " ++ if stop then "stopped" else "started")
  sent.map fun (result, _) =>
    result.map fun publication => (publication, s!"sent {what} to {room}")

namespace ControlAction

/-- The signal a command publishes. -/
def signal : ControlAction → Signal
  | .mute audio video => .media audio video
  | .share off => .screenShare !off
  | .hand down => .raiseHand !down
  | .react emoji => .reaction emoji
  | .chat body => .chat body
  | .record stop => .recording !stop

end ControlAction

/-- Every command broadcasts its signal. -/
theorem control_eq_broadcast
    (serde : SerdeJson) (me room : String) (now : UInt64)
    (action : ControlAction) :
    ∃ printed, control serde me room now action =
      ((MeetClient.new room me).broadcast serde action.signal now).map
        fun sent => sent.1.map fun publication => (publication, printed) := by
  cases action <;> exact ⟨_, rfl⟩

/-- A command publishes its signal under the first sequence number. -/
theorem isFrameOf_of_control
    {serde : SerdeJson} {me room : String} {now : UInt64}
    {action : ControlAction} {publication : Publication} {printed : String}
    (ran : control serde me room now action =
      some (.ok (publication, printed))) :
    MeetClient.IsFrameOf serde
      (.broadcast room 0 now action.signal) publication := by
  obtain ⟨line, broadcasts⟩ :=
    control_eq_broadcast serde me room now action
  rw [broadcasts, Option.map_eq_some_iff] at ran
  obtain ⟨⟨result, after⟩, sent, same⟩ := ran
  cases result with
  | error message => cases same
  | ok sentPublication =>
      cases same
      obtain ⟨_, _, _, frame⟩ := MeetClient.succeeds_of_publishNext sent
      exact frame

/-- What a room hears of a command: the published frame, parsed and stamped
with the node that ran the command. -/
def Hears (serde : SerdeJson) (me room : String)
    (command : ControlAction × UInt64) (env : SignalEnvelope) : Prop :=
  ∃ publication printed parsed,
    control serde me room command.2 command.1 =
        some (.ok (publication, printed)) ∧
      SignalEnvelope.fromBytes serde publication.2 = .ok parsed ∧
      env = parsed.withSender me

/-- Whatever the command, it is heard under the first sequence number. -/
theorem Hears.eq
    {serde : SerdeJson} {me room : String}
    {command : ControlAction × UInt64} {env : SignalEnvelope}
    (hears : Hears serde me room command env) :
    env = (SignalEnvelope.broadcast room 0 command.2
      command.1.signal).withSender me := by
  obtain ⟨publication, printed, parsed, ran, parses, rfl⟩ := hears
  obtain ⟨written, _⟩ := isFrameOf_of_control ran
  have read := (SignalEnvelope.fromBytes_eq_ok_iff.mp parses).2.1
  rw [serde.fromSlice_toVec _ _ written] at read
  cases read
  rfl

theorem forall_of_hears
    {serde : SerdeJson} {me roomId : String}
    {commands : List (ControlAction × UInt64)} {envs : List SignalEnvelope}
    (heard : List.Forall₂ (Hears serde me roomId) commands envs) :
    ∀ env ∈ envs, env.roomId = roomId ∧ env.sender = me ∧ env.seq = 0 := by
  induction heard with
  | nil => simp
  | cons hears _ inductionHypothesis =>
      rw [List.forall_mem_cons]
      exact ⟨by rw [hears.eq]; exact ⟨rfl, rfl, rfl⟩, inductionHypothesis⟩

/-- The values that commands give a media dimension, in order. -/
def valuesOf (dimension : MediaDimension)
    (commands : List (ControlAction × UInt64)) : List MediaUpdate :=
  commands.filterMap fun command =>
    command.1.signal.mediaUpdate.filter fun update =>
      update.dimension = dimension

/-- The node's media state in a room ends with the values of the last command
of each dimension. -/
def EndsWithLast (me : String) (commands : List (ControlAction × UInt64))
    (room : Room) : Prop :=
  ∀ dimension last, (valuesOf dimension commands).getLast? = some last →
    ∃ m, room.member me = some m ∧ (m.mediaRegister dimension).2 = last

/-- What the commands write into a dimension, all of it under the first
sequence number. -/
theorem mediaEntries_of_hears
    {serde : SerdeJson} {me roomId : String}
    {commands : List (ControlAction × UInt64)} {envs : List SignalEnvelope}
    (heard : List.Forall₂ (Hears serde me roomId) commands envs)
    (dimension : MediaDimension) :
    envs.filterMap (SignalEnvelope.mediaEntry me dimension) =
      (valuesOf dimension commands).map fun update => (0, update) := by
  induction heard with
  | nil => rfl
  | @cons command env commands envs hears _ inductionHypothesis =>
      have entry : env.mediaEntry me dimension =
          (command.1.signal.mediaUpdate.filter fun update =>
            update.dimension = dimension).map fun update => (0, update) := by
        rw [hears.eq]
        exact if_pos rfl
      rw [valuesOf, List.filterMap_cons, List.filterMap_cons, entry,
        inductionHypothesis]
      cases command.1.signal.mediaUpdate.filter fun update =>
        update.dimension = dimension <;> rfl

/-- A room without a slot for a node stays as it is. -/
theorem member_applyAll_of_noSlot
    {room : Room} {me : String} {envs : List SignalEnvelope}
    (fromMe : ∀ env ∈ envs, env.sender = me)
    (noSlot : ¬room.HasSlot me) :
    (room.applyAll envs).member me = none := by
  induction envs generalizing room with
  | nil =>
      exact Indexed.notMem_keys_iff.mp fun known => noSlot (Or.inl known)
  | cons env envs inductionHypothesis =>
      rw [List.forall_mem_cons] at fromMe
      obtain ⟨rfl, fromMe⟩ := fromMe
      have writes := room.apply_writes env
      exact inductionHypothesis fromMe (writes.hasSlot_iff.not.mpr noSlot)

/-- The value of a register whose floor was raised. -/
theorem value_eq_iff_of_mediaAt
    {room : Room} {me : String} {dimension : MediaDimension}
    {held : MediaRegister} {value : MediaUpdate}
    (holds : room.mediaAt me dimension = held)
    (raised : held.1 ≠ 0) :
    (∃ m, room.member me = some m ∧ (m.mediaRegister dimension).2 = value) ↔
      held.2 = value := by
  obtain ⟨m, known, sameRegister⟩ := Room.member_of_mediaAt holds raised
  constructor
  · rintro ⟨other, otherKnown, rfl⟩
    cases known.symm.trans otherKnown
    rw [sameRegister]
  · rintro rfl
    exact ⟨m, known, by rw [sameRegister]⟩

/-- A dimension ends with the value of its last command exactly if the room can
take the node, and the dimension has not been written before and its first
command has that value too, or it has been written and holds that value
already. -/
theorem endsWithLast_iff
    {serde : SerdeJson} {me : String}
    (named : me ≠ "")
    {room : Room} {commands : List (ControlAction × UInt64)}
    {envs : List SignalEnvelope}
    (heard : List.Forall₂ (Hears serde me room.roomId) commands envs) :
    EndsWithLast me commands (room.applyAll envs) ↔
      ∀ dimension last, (valuesOf dimension commands).getLast? = some last →
        room.HasSlot me ∧
          if (room.mediaAt me dimension).1 = 0 then
            (valuesOf dimension commands).head? = some last
          else (room.mediaAt me dimension).2 = last := by
  have ours : ∀ env ∈ envs, env.roomId = room.roomId ∧ env.sender = me :=
    fun env member => (forall_of_hears heard env member).imp_right And.left
  refine forall₃_congr fun dimension last isLast => ?_
  by_cases slot : room.HasSlot me
  · obtain ⟨first, rest, values⟩ : ∃ first rest,
        valuesOf dimension commands = first :: rest :=
      List.exists_cons_of_ne_nil fun empty => by simp [empty] at isLast
    have settled := Room.mediaAt_applyAll named ours slot dimension
    rw [mediaEntries_of_hears heard, values, List.map_cons] at settled
    rw [and_iff_right slot, values, List.head?_cons, Option.some.injEq]
    split
    case isTrue fresh =>
      rw [LastWrite.writeAll_first fresh.le (not_isMax_bot) (by simp)]
        at settled
      exact value_eq_iff_of_mediaAt settled (Order.succ_ne_bot 0)
    case isFalse written =>
      have positive : 0 < (room.mediaAt me dimension).1 :=
        bot_lt_iff_ne_bot.mpr written
      rw [LastWrite.writeAll_refused] at settled
      · exact value_eq_iff_of_mediaAt settled written
      · rw [List.forall_mem_cons, List.forall_mem_map]
        exact ⟨positive, fun _ _ => positive⟩
  · refine iff_of_false ?_ fun both => slot both.1
    rintro ⟨m, known, _⟩
    rw [member_applyAll_of_noSlot (fun env member => (ours env member).2) slot]
      at known
    cases known

/-- For every room and all commands one node runs against it: the media state
ends with the last values exactly under the condition above, and the commands
publish under distinct sequence numbers exactly if there is at most one. -/
theorem commands_in_order_iff
    (serde : SerdeJson) (me : String)
    (named : me ≠ "")
    (room : Room) (commands : List (ControlAction × UInt64))
    (envs : List SignalEnvelope)
    (heard : List.Forall₂ (Hears serde me room.roomId) commands envs) :
    (EndsWithLast me commands (room.applyAll envs) ↔
        ∀ dimension last,
          (valuesOf dimension commands).getLast? = some last →
          room.HasSlot me ∧
            if (room.mediaAt me dimension).1 = 0 then
              (valuesOf dimension commands).head? = some last
            else (room.mediaAt me dimension).2 = last) ∧
      ((envs.map SignalEnvelope.seq).Nodup ↔ commands.length ≤ 1) := by
  refine ⟨endsWithLast_iff named heard, ?_⟩
  have seqs : envs.map SignalEnvelope.seq =
      List.replicate commands.length 0 := by
    refine List.eq_replicate_iff.mpr ⟨?_, ?_⟩
    · rw [List.length_map, heard.length_eq]
    · rw [List.forall_mem_map]
      exact fun env member => (forall_of_hears heard env member).2.2
  rw [seqs, List.nodup_replicate]

/-! ## Starting and stopping a screen share -/

/-- A command whose frame can be written and fits is heard. -/
theorem hears_of_toVec
    {serde : SerdeJson} {me room : String}
    {command : ControlAction × UInt64} {bytes : Bytes}
    (valid : command.1.signal.validate = .ok ())
    (written :
      serde.toVec (.broadcast room 0 command.2 command.1.signal) = .ok bytes)
    (fits : bytes.length ≤ maxEnvelopeBytes) :
    Hears serde me room command
      ((SignalEnvelope.broadcast room 0 command.2
        command.1.signal).withSender me) := by
  obtain ⟨printed, broadcasts⟩ :=
    control_eq_broadcast serde me room command.2 command.1
  refine ⟨(roomTopic room, bytes), printed, _, ?_,
    (MeetClient.fromBytes_of_toVec written).mpr ⟨fits, valid⟩, rfl⟩
  have published :
      ({ MeetClient.new room me with
          room := { Room.new room me with nextSeq := 0 + 1 } } :
        MeetClient).publish serde
          (.broadcast room 0 command.2 command.1.signal) =
        .ok (roomTopic room, bytes) :=
    MeetClient.publish_eq_ok_iff.mpr ⟨valid, bytes, written, rfl⟩
  rw [broadcasts, Option.map_eq_some_iff]
  exact ⟨(_, _), rfl,
    congrArg (Except.map fun publication => (publication, printed)) published⟩

/-- A screen share is started, and stopped a second later. -/
def shareCommands : List (ControlAction × UInt64) :=
  [(.share false, 1000), (.share true, 1001)]

/-- The envelope of a command for the room. -/
def shareEnvelope (command : ControlAction × UInt64) : SignalEnvelope :=
  .broadcast "r" 0 command.2 command.1.signal

/-- The envelopes of the two commands and their frames. -/
def shareFrames : List (SignalEnvelope × Bytes) :=
  shareCommands.map fun command =>
    (shareEnvelope command, (shareEnvelope command).toJson.render)

theorem shareFrames_distinct : (shareFrames.map Prod.snd).Nodup := by
  apply List.Nodup.of_map List.length
  have sizes : (shareFrames.map Prod.snd).map List.length =
      shareCommands.map fun command => (shareEnvelope command).wireSize := by
    simp [shareFrames, Function.comp_def, SignalEnvelope.length_render_toJson]
  rw [sizes]
  decide

/-- The serializer of the two envelopes. -/
def shareSerde : SerdeJson :=
  .ofTable shareFrames shareFrames_distinct

/-- What the room hears of the two commands. -/
def shareHeard : List SignalEnvelope :=
  shareCommands.map fun command =>
    (shareEnvelope command).withSender "ann"

theorem shareCommands_heard :
    List.Forall₂ (Hears shareSerde "ann" "r") shareCommands shareHeard := by
  refine List.forall₂_map_right_iff.mpr (List.forall₂_same.mpr ?_)
  intro command member
  have functional : (shareFrames.map Prod.fst).Nodup := by decide
  have fits : ∀ command ∈ shareCommands,
      (shareEnvelope command).wireSize ≤ maxEnvelopeBytes := by decide
  refine hears_of_toVec ?_
    (SerdeJson.toVec_ofTable functional (List.mem_map_of_mem member)) ?_
  · revert command
    decide
  · exact (SignalEnvelope.length_render_toJson _).trans_le
      (fits command member)

/-- A fresh room takes the first command, and the second has the same number. -/
theorem shareCommands_out_of_order :
    List.Forall₂ (Hears shareSerde "ann" "r") shareCommands shareHeard ∧
      ¬EndsWithLast "ann" shareCommands
        ((Room.new "r" "bob").applyAll shareHeard) ∧
      ¬(shareHeard.map SignalEnvelope.seq).Nodup := by
  refine ⟨shareCommands_heard, fun ends => ?_, by decide⟩
  obtain ⟨m, known, stopped⟩ := ends .sharing (.sharing false) (by decide)
  have sharing : (((Room.new "r" "bob").applyAll shareHeard).member
      "ann").map Member.sharing = some true := by decide
  rw [known] at sharing
  cases (Option.some.inj sharing).symm.trans
    (MediaUpdate.sharing.inj stopped)

/-- The first command alone takes effect. -/
theorem shareCommand_in_order :
    EndsWithLast "ann" (shareCommands.take 1)
      ((Room.new "r" "bob").applyAll (shareHeard.take 1)) := by
  refine (commands_in_order_iff shareSerde "ann" (by decide)
    (Room.new "r" "bob") (shareCommands.take 1) (shareHeard.take 1)
    (List.forall₂_take 1 shareCommands_heard)).1.mpr ?_
  intro dimension last isLast
  cases dimension with
  | av | hand => cases isLast
  | sharing =>
      cases isLast
      exact ⟨Or.inr (by decide), rfl⟩

end CeMeet
