import CeMeet.Foundation.Ledger
import CeMeet.Foundation.Word
import CeMeet.Meeting.Participant

/-!
# Restarts of a participant

A participant takes snapshots and saves them, and comes back from the last one
that was saved whenever it crashes.  Its outbound counter is then where that
snapshot had it, so a number is used twice exactly if it was given out after the
snapshot and no floor above it has been adopted in between.
-/

namespace CeMeet

/-- A participant, the snapshot it has taken last, and the one it would come
back from. -/
structure Life where
  /-- The client. -/
  client : MeetClient
  /-- The snapshot that was taken last. -/
  taken : Option RoomSnapshot := none
  /-- The snapshot that was saved last. -/
  saved : Option RoomSnapshot := none

namespace Life

/-- A command of the user, or what happens to the process.  After a crash a
freshness window is chosen again. -/
inductive Command
  | user (command : MeetClient.Command)
  | snapshot
  | save
  | crash (freshnessSecs : UInt64)

/-- An input of a participant that may crash. -/
abbrev Input := Mesh.Input String Publication Command MeetClient.Reading

/-- The client that a node starts with. -/
def reborn (room me : String) : Option RoomSnapshot → MeetClient
  | some snap => .restore snap
  | none => .new room me

/-- A node that has saved nothing yet. -/
def opening (room me : String) (freshnessSecs : UInt64) : Life :=
  { client := (reborn room me none).withFreshness freshnessSecs }

/-- Let the client take an input. -/
def attend (serde : SerdeJson) (life : Life) (input : MeetClient.Input) :
    MeetClient.Outcome × Life :=
  let (outcome, client) := life.client.step serde input
  (outcome, { life with client })

/-- Take one input. -/
def step (serde : SerdeJson) (room me : String) (life : Life) :
    Input → MeetClient.Outcome × Life
  | .command (.user command) => life.attend serde (.command command)
  | .command .snapshot =>
      ({}, { life with taken := some life.client.room.snapshot })
  | .command .save => ({}, { life with saved := life.taken <|> life.saved })
  | .command (.crash freshnessSecs) =>
      ({}, { client :=
               (reborn room me life.saved).withFreshness freshnessSecs
             saved := life.saved })
  | .arrival sender publication reading =>
      life.attend serde (.arrival sender publication reading)

/-! ## The counter -/

/-- The number that an input takes. -/
def number (life : Life) : Input → Option UInt64
  | .command (.user (.call _ _)) =>
      life.client.room.nextOutboundSeq.map Prod.fst
  | _ => none

/-- The counter in a snapshot. -/
def counter : Option RoomSnapshot → UInt64
  | some snap => snap.nextSeq
  | none => 0

/-- The counter of the client and in its snapshots. -/
def ledger (life : Life) : Ledger UInt64 where
  current := life.client.room.nextSeq
  copied := counter (life.taken <|> life.saved)
  kept := counter life.saved

/-- What an input does to the counter. -/
def event : Input → Ledger.Event UInt64
  | .command (.user (.call _ _)) => .take
  | .command (.user (.resumeOutboundFrom floor)) => .raise floor
  | .command (.user (.skipPeerTo _ _)) => .idle
  | .command .snapshot => .copy
  | .command .save => .keep
  | .command (.crash _) => .lose
  | .arrival _ _ _ => .idle

/-- The number that the counter gives out is the one it stands at, unless that
is the greatest. -/
theorem nextOutboundSeq_fst_iff {room : Room} {number : UInt64} :
    room.nextOutboundSeq.map Prod.fst = some number ↔
      number = room.nextSeq ∧ number ≠ UInt64.maxValue := by
  constructor
  · intro given
    obtain ⟨⟨seq, next⟩, allocated, rfl⟩ := Option.map_eq_some_iff.mp given
    obtain ⟨available, rfl, _⟩ := Room.nextOutboundSeq_eq_some_iff.mp allocated
    exact ⟨rfl, available⟩
  · rintro ⟨rfl, available⟩
    rw [Room.nextOutboundSeq, if_neg available]
    rfl

/-- Take one input, and tell the number it takes and what it does to the
counter. -/
def count (serde : SerdeJson) (room me : String) (life : Life) (input : Input) :
    (Option UInt64 × Ledger.Event UInt64) × Life :=
  ((life.number input, event input), (life.step serde room me input).2)

theorem counter_reborn (room me : String) (saved : Option RoomSnapshot) :
    (reborn room me saved).room.nextSeq = counter saved := by
  cases saved <;> rfl

/-- What reaches the roster leaves the counter alone. -/
theorem nextSeq_arrival
    (serde : SerdeJson) (client : MeetClient) (sender : String)
    (publication : Publication) (reading : MeetClient.Reading) :
    (client.step serde (.arrival sender publication reading)).2.room.nextSeq =
      client.room.nextSeq := by
  rw [(MeetClient.step_performs serde client _).room, MeetClient.operation]
  cases client.heard serde sender publication reading with
  | none => rfl
  | some env => exact (Room.apply_writes client.room env).nextSeq

/-- A call takes a number exactly if the counter gives one out. -/
theorem ledger_call
    (serde : SerdeJson) (life : Life) (call : MeetClient.HelperCall) (now : UInt64) :
    life.ledger.step .take =
      (life.client.room.nextOutboundSeq.map Prod.fst,
        (life.attend serde (.command (.call call now))).2.ledger) := by
  have next : (life.client.step serde (.command (.call call now))).2.room =
      (life.client.room.operate .nextOutboundSeq).2 :=
    (MeetClient.invoke_room serde life.client (call, now)).1
  have counted : (life.attend serde
      (.command (.call call now))).2.ledger.current =
        (life.client.room.operate .nextOutboundSeq).2.nextSeq :=
    congrArg Room.nextSeq next
  by_cases atTop : life.client.room.nextSeq = UInt64.maxValue
  · have stays : Order.succ life.ledger.current = life.ledger.current :=
      Order.succ_eq_iff_isMax.mpr (UInt64.isMax_iff_eq_maxValue.mpr atTop)
    rw [Ledger.step, if_pos stays, Room.nextOutboundSeq, if_pos atTop]
    rw [Room.operate_nextSeq, if_pos atTop] at counted
    exact Prod.ext rfl (Ledger.ext counted.symm rfl rfl)
  · have moves : ¬Order.succ life.ledger.current = life.ledger.current :=
      fun stays => atTop (UInt64.isMax_iff_eq_maxValue.mp
        (Order.succ_eq_iff_isMax.mp stays))
    rw [Ledger.step, if_neg moves, Room.nextOutboundSeq, if_neg atTop]
    rw [Room.operate_nextSeq, if_neg atTop] at counted
    refine Prod.ext rfl (Ledger.ext ?_ rfl rfl)
    exact (UInt64.succ_of_ne atTop).trans counted.symm

/-- The counter is kept as a ledger is. -/
theorem keeps_ledger (serde : SerdeJson) (room me : String) :
    Ledger.Keeps (count serde room me) ledger := by
  intro life input
  cases input with
  | command command =>
      cases command with
      | user command =>
          cases command with
          | call call now => exact ledger_call serde life call now
          | resumeOutboundFrom floor => rfl
          | skipPeerTo peer seq => rfl
      | snapshot => rfl
      | save =>
          cases taken : life.taken <;>
            simp [Ledger.step, event, ledger, count, number, step, taken]
      | crash freshnessSecs =>
          simp [Ledger.step, event, ledger, count, number, step,
            MeetClient.withFreshness, counter_reborn]
  | arrival sender publication reading =>
      have same := nextSeq_arrival serde life.client sender publication reading
      simp [Ledger.step, event, ledger, count, number, step, attend, same]

/-- A new node is at the first number, and has kept nothing else. -/
theorem consistent_opening (room me : String) (freshnessSecs : UInt64) :
    Ledger.Consistent (opening room me freshnessSecs).ledger where
  copied := le_rfl
  kept := le_rfl

/-! ## Runs across crashes -/

/-- The numbers that a node takes, with what happens to its counter. -/
def entries (serde : SerdeJson) (room me : String) (freshnessSecs : UInt64)
    (inputs : List Input) : List (Option UInt64 × Ledger.Event UInt64) :=
  Transducer.outputs (count serde room me) (opening room me freshnessSecs)
    inputs

/-- The frames that a node publishes. -/
def published (serde : SerdeJson) (room me : String) (freshnessSecs : UInt64)
    (inputs : List Input) : List Publication :=
  MeetClient.publications (Transducer.outputs (step serde room me)
    (opening room me freshnessSecs) inputs)

/-- A frame is written from a valid envelope under the number that was taken
for it. -/
theorem number_of_published
    {serde : SerdeJson} {room me : String} {life : Life} {input : Input}
    {publication : Publication}
    (published : (life.step serde room me input).1.publication =
      some publication) :
    ∃ env, MeetClient.written serde publication = some env ∧
      life.number input = some env.seq := by
  have attends : ∃ own, (life.client.step serde own).1.publication =
      some publication ∧
        ∀ call now, own = .command (.call call now) →
          input = .command (.user (.call call now)) := by
    cases input with
    | command command =>
        cases command with
        | user command =>
            refine ⟨.command command, published, fun call now same => ?_⟩
            cases same
            rfl
        | snapshot | save | crash => cases published
    | arrival sender publication reading =>
        exact ⟨.arrival sender publication reading, published,
          fun call now same => by cases same⟩
  obtain ⟨own, sent, isCall⟩ := attends
  obtain ⟨call, now, same, _, frame, counts⟩ := MeetClient.step_publishes sent
  have available : life.client.room.nextSeq ≠ UInt64.maxValue :=
    (counts.trans_le (UInt64.le_maxValue _)).ne
  refine ⟨_, MeetClient.written_of_isFrameOf frame, ?_⟩
  rw [isCall call now same]
  exact nextOutboundSeq_fst_iff.mpr ⟨rfl, available⟩

/-- What is published is published under numbers that were taken, in their
order. -/
theorem published_sublist_numbers
    (serde : SerdeJson) (room me : String) (life : Life)
    (inputs : List Input) :
    ((MeetClient.envelopesOf serde (MeetClient.publications
        (Transducer.outputs (step serde room me) life inputs))).map
          SignalEnvelope.seq).Sublist
      (Ledger.numbers
        (Transducer.outputs (count serde room me) life inputs)) := by
  induction inputs generalizing life with
  | nil => exact List.Sublist.slnil
  | cons input inputs inductionHypothesis =>
      have rest := inductionHypothesis (life.step serde room me input).2
      rw [Transducer.outputs_cons, Transducer.outputs_cons,
        MeetClient.publications, Ledger.numbers_cons]
      cases published : (life.step serde room me input).1.publication with
      | none =>
          rw [List.filterMap_cons_none published]
          exact rest.trans (List.sublist_append_right _ _)
      | some publication =>
          obtain ⟨env, isWritten, taken⟩ := number_of_published published
          have given : (life.count serde room me input).1.1 =
              some env.seq := taken
          rw [List.filterMap_cons_some published, MeetClient.envelopesOf,
            List.filterMap_cons_some isWritten, List.map_cons, given]
          exact rest.cons_cons _

/-- The greatest number is never taken. -/
theorem lt_maxValue_of_taken
    {serde : SerdeJson} {room me : String} {life : Life}
    {inputs : List Input} {number : UInt64}
    (taken : number ∈ Ledger.numbers
      (Transducer.outputs (count serde room me) life inputs)) :
    number < UInt64.maxValue := by
  obtain ⟨output, member, given⟩ := List.mem_filterMap.mp taken
  obtain ⟨done, input, rest, _, same⟩ := Transducer.mem_outputs_iff.mp member
  rw [← same] at given
  unfold count Life.number at given
  dsimp only at given
  split at given
  case h_1 =>
    exact lt_of_le_of_ne (UInt64.le_maxValue _)
      (nextOutboundSeq_fst_iff.mp given).2
  case h_2 => cases given

/-- Over every run of a node, with its crashes, the numbers under which it
publishes are among those that it takes, in their order; and these ascend
exactly if the node recollects, whenever it takes one, all those that it took
before: if a snapshot that was taken after the number was saved before the next
crash, or a floor above the number has been adopted since. -/
theorem numbers_ascend_iff
    (serde : SerdeJson) (room me : String) (freshnessSecs : UInt64)
    (inputs : List Input) :
    ((MeetClient.envelopesOf serde
        (published serde room me freshnessSecs inputs)).map
          SignalEnvelope.seq).Sublist
        (Ledger.numbers (entries serde room me freshnessSecs inputs)) ∧
      ((Ledger.numbers (entries serde room me freshnessSecs inputs)).Pairwise
          (fun earlier later => earlier < later) ↔
        Ledger.RecollectsAll
          (entries serde room me freshnessSecs inputs)) :=
  ⟨published_sublist_numbers serde room me _ inputs,
    (keeps_ledger serde room me).ascending_iff
      (consistent_opening room me freshnessSecs) inputs⟩

/-- A snapshot that is taken but not saved recollects nothing. -/
example (serde : SerdeJson) :
    Ledger.numbers (entries serde "r" "ann" 0
      [.command (.user (.call .keepalive 1000)),
        .command .snapshot,
        .command (.crash 0),
        .command (.user (.call .keepalive 1001))]) = [0, 0] := rfl

/-! ## Between two crashes -/

/-- Everything a node keeps is its own. -/
structure Owned (me : String) (life : Life) : Prop where
  /-- The client. -/
  client : life.client.room.me = me
  /-- The snapshot that was taken last. -/
  taken : ∀ snap ∈ life.taken, snap.me = me
  /-- The snapshot that was saved last. -/
  saved : ∀ snap ∈ life.saved, snap.me = me

theorem reborn_me {room me : String} {saved : Option RoomSnapshot}
    (owned : ∀ snap ∈ saved, snap.me = me) :
    (reborn room me saved).room.me = me := by
  cases saved with
  | none => rfl
  | some snap => exact owned snap rfl

theorem Owned.step {me : String} {life : Life} (owned : Owned me life)
    (serde : SerdeJson) (room : String) (input : Input) :
    Owned me (life.step serde room me input).2 := by
  have attends : ∀ own, Owned me (life.attend serde own).2 := fun own =>
    { client := (MeetClient.step_performs serde life.client
        own).filters.me.trans owned.client
      taken := owned.taken
      saved := owned.saved }
  cases input with
  | command command =>
      cases command with
      | user command => exact attends _
      | snapshot =>
          refine ⟨owned.client, fun snap same => ?_, owned.saved⟩
          cases same
          exact owned.client
      | save =>
          refine ⟨owned.client, owned.taken, fun snap same => ?_⟩
          rcases (Option.orElse_eq_some _ _ _).mp same with
            fromTaken | ⟨_, fromSaved⟩
          · exact owned.taken snap fromTaken
          · exact owned.saved snap fromSaved
      | crash freshnessSecs =>
          exact ⟨reborn_me owned.saved, by simp [Life.step], owned.saved⟩
  | arrival sender publication reading => exact attends _

theorem owned_final
    (serde : SerdeJson) (room me : String) (freshnessSecs : UInt64)
    (inputs : List Input) :
    Owned me (Transducer.final (step serde room me)
      (opening room me freshnessSecs) inputs) :=
  Transducer.invariant (motive := Owned me)
    ⟨rfl, by simp [opening], by simp [opening]⟩
    (fun _ input owned => owned.step serde room input) inputs

/-- A node has an empty router when it starts and after every crash. -/
theorem router_reborn (room me : String) (saved : Option RoomSnapshot) :
    (reborn room me saved).router = .withWindow defaultWindow := by
  cases saved <;> rfl

/-- The input that the client takes, if it is the one concerned. -/
def attended : Input → Option MeetClient.Input
  | .command (.user command) => some (.command command)
  | .command _ => none
  | .arrival sender publication reading =>
      some (.arrival sender publication reading)

/-- What arrives at the client arrived at the node. -/
theorem arrival_of_attended
    {inputs : List Input} {sender : String} {publication : Publication}
    {reading : MeetClient.Reading}
    (arrival : .arrival sender publication reading ∈
      inputs.filterMap attended) :
    .arrival sender publication reading ∈ inputs := by
  obtain ⟨input, member, same⟩ := List.mem_filterMap.mp arrival
  cases input with
  | command command => cases command <;> cases same
  | arrival other publication reading =>
      cases same
      exact member

/-- As long as it does not crash, a node hands over what its client hands
over. -/
theorem handedOver_of_crashless
    (serde : SerdeJson) (room me : String) (life : Life)
    {inputs : List Input}
    (crashless : ∀ freshnessSecs, .command (.crash freshnessSecs) ∉ inputs) :
    (Transducer.outputs (step serde room me) life inputs).flatMap
        MeetClient.Outcome.handedOver =
      (life.client.outcomes serde (inputs.filterMap attended)).flatMap
        MeetClient.Outcome.handedOver := by
  induction inputs generalizing life with
  | nil => rfl
  | cons input inputs inductionHypothesis =>
      have rest := fun next : Life => inductionHypothesis next
        fun freshnessSecs member =>
          crashless freshnessSecs (List.mem_cons_of_mem _ member)
      rw [Transducer.outputs_cons, List.flatMap_cons, rest]
      cases input with
      | command command =>
          cases command with
          | user command => rfl
          | snapshot => rfl
          | save => rfl
          | crash freshnessSecs =>
              exact absurd List.mem_cons_self (crashless freshnessSecs)
      | arrival sender publication reading => rfl

end Life
end CeMeet
