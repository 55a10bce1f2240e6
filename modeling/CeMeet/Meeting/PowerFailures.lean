import CeMeet.Meeting.Restarts
import CeMeet.Room.Durability

/-!
# Restarts from a disk

A participant saves its snapshots under one name of a directory, step by step,
while its client goes on; it may be killed and the power may fail at any moment,
and it comes back from whatever is loaded then.  A snapshot counts as kept once
its save has synced the directory.  The numbers that the participant takes
ascend if each of them is recollected whenever a later one is taken.
-/

namespace CeMeet

/-- A client, and the disk on which its snapshots are saved. -/
structure Installation where
  /-- The client. -/
  client : MeetClient
  /-- The disk, and the save in progress. -/
  saving : Replacement.Saving String RoomSnapshot.Save

namespace Installation

open Replacement (Saving)

/-- What happens to a participant and its disk. -/
inductive Event
  | input (input : MeetClient.Input)
  | save (pid : UInt32)
  | writes (amount : Nat)
  | syncs
  | renames
  | settles
  | fails
  | killed (freshnessSecs : UInt64)
  | powerFails (moment : Nat) (lost : Nat → List UInt8)
      (freshnessSecs : UInt64)

/-- The save of the snapshot that the client would take now. -/
def saveNow (node : Installation) (path : String) (pid : UInt32) :
    RoomSnapshot.Save :=
  { pid, snap := node.client.room.snapshot, dest := path }

/-- What an event is for the disk. -/
def onDisk (node : Installation) (path : String) :
    Event → Option (Replacement.Event RoomSnapshot.Save)
  | .input _ => none
  | .save pid => some (.opens (node.saveNow path pid))
  | .writes amount => some (.writes amount)
  | .syncs => some .syncs
  | .renames => some .renames
  | .settles => some .settles
  | .fails | .killed _ => some .stops
  | .powerFails moment lost _ => some (.crashes moment lost)

/-- The client that a node comes back with. -/
def woken (parse : Bytes → Except String Json) (room me path : String)
    (files : Files String) (freshnessSecs : UInt64) : MeetClient :=
  (Life.reborn room me
    (RoomSnapshot.load parse files path).toOption).withFreshness freshnessSecs

/-- A node that comes up on some files. -/
def opening (parse : Bytes → Except String Json) (room me path : String)
    (files : Files String) (freshnessSecs : UInt64) : Installation where
  client := woken parse room me path files freshnessSecs
  saving := .idle files

/-- Let an event happen. -/
def step (serde : SerdeJson) (parse : Bytes → Except String Json)
    (room me path : String) (node : Installation) (event : Event) :
    Installation :=
  let saving := match node.onDisk path event with
    | some event => node.saving.step RoomSnapshot.Save.replacement event
    | none => node.saving
  let client := match event with
    | .input input => (node.client.step serde input).2
    | .killed secs | .powerFails _ _ secs =>
        woken parse room me path saving.disk.files secs
    | _ => node.client
  { client, saving }

/-- The number that an event takes. -/
def number (node : Installation) : Event → Option UInt64
  | .input (.command (.call _ _)) =>
      node.client.room.nextOutboundSeq.map Prod.fst
  | _ => none

/-- What an event does to the counter: a save copies it when it begins, and has
kept the copy when it has synced the directory. -/
def happening (node : Installation) : Event → Ledger.Event UInt64
  | .input (.command (.call _ _)) => .take
  | .input (.command (.resumeOutboundFrom floor)) => .raise floor
  | .input (.command (.skipPeerTo _ _)) | .input (.arrival _ _ _) => .idle
  | .save _ => if node.saving.job.isNone then .copy else .idle
  | .settles =>
      match node.saving.job with
      | some (_, .renamed) => .keep
      | _ => .idle
  | .writes _ | .syncs | .renames | .fails => .idle
  | .killed _ | .powerFails .. => .lose

/-- Let an event happen, and tell the number it takes and what it does to the
counter. -/
def count (serde : SerdeJson) (parse : Bytes → Except String Json)
    (room me path : String) (node : Installation) (event : Event) :
    (Option UInt64 × Ledger.Event UInt64) × Installation :=
  ((node.number event, node.happening event),
    node.step serde parse room me path event)

/-! ## What is known of a disk -/

section Invariants

variable {serde : SerdeJson} {parse : Bytes → Except String Json}
variable {room me path : String} {node : Installation}

/-- The save in progress is one of an earlier moment of the client. -/
structure Sound (path : String) (node : Installation) : Prop where
  /-- Nothing but whole saves is put in the place of the file. -/
  keeps : Saving.Keeps RoomSnapshot.Save.replacement node.saving path
    fun _ => True
  /-- The counter was not ahead when the save began. -/
  behind : ∀ save stage, node.saving.job = some (save, stage) →
    save.snap.nextSeq ≤ node.client.room.nextSeq ∧ save.dest = path

/-- A file holds a snapshot that was taken after a number. -/
def Past (number : UInt64) (contents : Option (List UInt8)) : Prop :=
  ∃ snap : RoomSnapshot, number < snap.nextSeq ∧ contents = some snap.toBytes

/-- What is recollected of a number is so. -/
structure Knows (path : String) (number : UInt64) (past : Ledger Bool)
    (node : Installation) : Prop where
  /-- The counter is past the number. -/
  current : past.current = true → number < node.client.room.nextSeq
  /-- The save in progress is past it. -/
  copied : past.copied = true → ∀ save stage,
    node.saving.job = some (save, stage) → number < save.snap.nextSeq
  /-- Whatever fails, the file is past it. -/
  kept : past.kept = true →
    Saving.Keeps RoomSnapshot.Save.replacement node.saving path (Past number)
  /-- The counter is not behind the file. -/
  ahead : past.kept = true → number < node.client.room.nextSeq

/-- A node comes back past every number that its file is past. -/
theorem lt_nextSeq_woken
    (reads : ∀ value : Json, parse value.render = .ok value)
    {files : Files String} {number : UInt64}
    (past : Past number (files.read path)) (freshnessSecs : UInt64) :
    number < (woken parse room me path files freshnessSecs).room.nextSeq := by
  obtain ⟨snap, before, held⟩ := past
  have loaded : RoomSnapshot.load parse files path = .ok snap := by
    rw [RoomSnapshot.load, held]
    exact RoomSnapshot.fromBytes_toBytes (reads _)
  rw [woken, loaded]
  exact before

/-- A step of the client keeps what is known. -/
theorem Sound.input (sound : Sound path node) (input : MeetClient.Input) :
    Sound path (node.step serde parse room me path (.input input)) where
  keeps := sound.keeps
  behind := fun save stage runs => by
    obtain ⟨behind, own⟩ := sound.behind save stage runs
    exact ⟨behind.trans
      (MeetClient.nextSeq_le_of_operation serde node.client input), own⟩

/-- A step of the disk that begins no save keeps what is known. -/
theorem Sound.disk (sound : Sound path node)
    {event : Replacement.Event RoomSnapshot.Save}
    (begun : ∀ save, event ≠ .opens save) :
    Sound path
      { node with
        saving := node.saving.step RoomSnapshot.Save.replacement event } where
  keeps := sound.keeps.step
    { separate := fun save same => absurd same (begun save)
      offers := fun save same => absurd same (begun save) }
  behind := fun save stage runs => by
    obtain ⟨earlier, before⟩ := Saving.job_of_step begun runs
    exact sound.behind save earlier before

/-- A node that comes back has no save in progress. -/
theorem Sound.restart (sound : Sound path node)
    {event : Replacement.Event RoomSnapshot.Save} (client : MeetClient)
    (ends : (node.saving.step RoomSnapshot.Save.replacement event).job = none)
    (begun : ∀ save, event ≠ .opens save) :
    Sound path
      { client
        saving := node.saving.step RoomSnapshot.Save.replacement event } where
  keeps := (sound.disk begun).keeps
  behind := fun save stage runs => by
    rw [ends] at runs
    cases runs

/-- A save that begins is one of this moment. -/
theorem Sound.save
    (separate : ∀ pid seq, RoomSnapshot.tempName pid seq ≠ path)
    (sound : Sound path node) (pid : UInt32) :
    Sound path (node.step serde parse room me path (.save pid)) where
  keeps := by
    have admissible : Saving.Admissible RoomSnapshot.Save.replacement path
        (fun _ => True) (.opens (node.saveNow path pid)) :=
      { separate := fun save same => by
          cases same
          exact separate _ _
        offers := fun _ _ _ => trivial }
    exact sound.keeps.step admissible
  behind := fun save stage runs => by
    change (Saving.step _ node.saving (.opens _)).job = _ at runs
    rw [Saving.step] at runs
    split at runs
    case h_1 =>
      cases runs
      exact ⟨le_rfl, rfl⟩
    case h_2 => exact sound.behind save stage runs

/-- Every event keeps a node sound. -/
theorem Sound.step
    (separate : ∀ pid seq, RoomSnapshot.tempName pid seq ≠ path)
    (sound : Sound path node) (event : Event) :
    Sound path (node.step serde parse room me path event) := by
  cases event with
  | input input => exact sound.input input
  | save pid => exact sound.save separate pid
  | writes | syncs | renames | settles | fails => exact sound.disk nofun
  | killed | powerFails => exact sound.restart _ rfl nofun

/-- As the client goes on, what is recollected stays so. -/
theorem Knows.grow {number : UInt64} {past : Ledger Bool}
    (knows : Knows path number past node) {client : MeetClient}
    (grows : node.client.room.nextSeq ≤ client.room.nextSeq) :
    Knows path number past { node with client } where
  current := fun isPast => (knows.current isPast).trans_le grows
  copied := knows.copied
  kept := knows.kept
  ahead := fun isPast => (knows.ahead isPast).trans_le grows

theorem Knows.input {number : UInt64} {past : Ledger Bool}
    (knows : Knows path number past node) (input : MeetClient.Input) :
    Knows path number
      (Ledger.recollect number past (node.happening (.input input)))
      (node.step serde parse room me path (.input input)) := by
  have grown := knows.grow
    (MeetClient.nextSeq_le_of_operation serde node.client input)
  cases input with
  | command command =>
      cases command with
      | call call now => exact grown
      | skipPeerTo peer seq => exact grown
      | resumeOutboundFrom floor =>
          refine { grown with current := fun isPast => ?_ }
          rcases Bool.or_eq_true_iff.mp isPast with before | raised
          · exact grown.current before
          · exact (of_decide_eq_true raised).trans_le (le_max_right _ _)
  | arrival sender publication reading => exact grown

/-- A step of the disk that begins no save keeps what is recollected. -/
theorem Knows.disk {number : UInt64} {past : Ledger Bool}
    (knows : Knows path number past node)
    {event : Replacement.Event RoomSnapshot.Save}
    (begun : ∀ save, event ≠ .opens save) :
    Knows path number past
      { node with
        saving := node.saving.step RoomSnapshot.Save.replacement event } where
  current := knows.current
  copied := fun isPast save stage runs => by
    obtain ⟨earlier, before⟩ := Saving.job_of_step begun runs
    exact knows.copied isPast save earlier before
  kept := fun isPast => (knows.kept isPast).step
    { separate := fun save same => absurd same (begun save)
      offers := fun save same => absurd same (begun save) }
  ahead := knows.ahead

/-- A save that begins copies the counter. -/
theorem Knows.save
    (separate : ∀ pid seq, RoomSnapshot.tempName pid seq ≠ path)
    {number : UInt64} {past : Ledger Bool}
    (knows : Knows path number past node) (pid : UInt32) :
    Knows path number
      (Ledger.recollect number past (node.happening (.save pid)))
      (node.step serde parse room me path (.save pid)) := by
  have kept : past.kept = true → Saving.Keeps RoomSnapshot.Save.replacement
      (node.step serde parse room me path (.save pid)).saving path
      (Past number) := by
    intro isPast
    have admissible : Saving.Admissible RoomSnapshot.Save.replacement path
        (Past number) (.opens (node.saveNow path pid)) :=
      { separate := fun save same => by
          cases same
          exact separate _ _
        offers := fun save same _ => by
          cases same
          exact ⟨_, knows.ahead isPast, rfl⟩ }
    exact (knows.kept isPast).step admissible
  cases runs : node.saving.job with
  | none =>
      rw [happening, runs]
      refine
        { current := knows.current
          copied := fun isPast save stage begun => ?_
          kept := kept
          ahead := knows.ahead }
      change (Saving.step _ node.saving (.opens _)).job = _ at begun
      rw [Saving.step, runs] at begun
      cases begun
      exact knows.current isPast
  | some job =>
      rw [happening, runs]
      refine
        { current := knows.current
          copied := fun isPast save stage begun => ?_
          kept := kept
          ahead := knows.ahead }
      change (Saving.step _ node.saving (.opens _)).job = _ at begun
      rw [Saving.step, runs] at begun
      exact knows.copied isPast save stage begun

/-- A save that has synced the directory has kept its copy. -/
theorem Knows.settles (sound : Sound path node)
    {number : UInt64} {past : Ledger Bool}
    (knows : Knows path number past node) :
    Knows path number
      (Ledger.recollect number past (node.happening .settles))
      (node.step serde parse room me path .settles) := by
  have stepped : Knows path number past
      { node with
        saving := node.saving.step RoomSnapshot.Save.replacement .settles } :=
    knows.disk nofun
  cases runs : node.saving.job with
  | none =>
      rw [happening, runs]
      exact stepped
  | some job =>
      obtain ⟨save, stage⟩ := job
      cases stage with
      | writing | synced =>
          rw [happening, runs]
          exact stepped
      | renamed =>
          have replaced : node.saving.disk.files.read save.dest =
              some save.replacement.bytes :=
            sound.keeps.sound save .renamed runs
          obtain ⟨behind, own⟩ := sound.behind save .renamed runs
          have settled : (node.step serde parse room me path .settles).saving =
              { disk := node.saving.disk.syncDir, job := none } := by
            change Saving.step RoomSnapshot.Save.replacement node.saving
              .settles = _
            rw [Saving.step, runs]
          rw [own] at replaced
          rw [happening, runs]
          exact
            { current := knows.current
              copied := fun _ other stage begun => by
                rw [settled] at begun
                cases begun
              kept := fun isPast => by
                have copied := knows.copied isPast save _ runs
                rw [settled]
                exact .at_rest
                  (sound.keeps.disk.syncDir ⟨save.snap, copied, replaced⟩)
              ahead := fun isPast =>
                (knows.copied isPast save _ runs).trans_le behind }

/-- A node that comes back stands where its file does. -/
theorem Knows.restart
    (reads : ∀ value : Json, parse value.render = .ok value)
    {number : UInt64} {past : Ledger Bool}
    (knows : Knows path number past node)
    {event : Replacement.Event RoomSnapshot.Save}
    (ends : (node.saving.step RoomSnapshot.Save.replacement event).job = none)
    (begun : ∀ save, event ≠ .opens save) (freshnessSecs : UInt64) :
    Knows path number (Ledger.recollect number past .lose)
      { client := woken parse room me path
          (node.saving.step RoomSnapshot.Save.replacement event).disk.files
          freshnessSecs
        saving := node.saving.step RoomSnapshot.Save.replacement event } := by
  let saving := node.saving.step RoomSnapshot.Save.replacement event
  have past : past.kept = true → Saving.Keeps RoomSnapshot.Save.replacement
      saving path (Past number) := (knows.disk begun).kept
  have ahead : ∀ isPast, number <
      (woken parse room me path saving.disk.files freshnessSecs).room.nextSeq :=
    fun isPast => lt_nextSeq_woken reads (past isPast).disk.read freshnessSecs
  exact
    { current := ahead
      copied := fun _ save stage runs => by
        rw [ends] at runs
        cases runs
      kept := past
      ahead := ahead }

/-- Every event is recollected. -/
theorem Knows.step
    (reads : ∀ value : Json, parse value.render = .ok value)
    (separate : ∀ pid seq, RoomSnapshot.tempName pid seq ≠ path)
    (sound : Sound path node) {number : UInt64} {past : Ledger Bool}
    (knows : Knows path number past node) (event : Event) :
    Knows path number
      (Ledger.recollect number past (node.happening event))
      (node.step serde parse room me path event) := by
  cases event with
  | input input => exact knows.input input
  | save pid => exact knows.save separate pid
  | settles => exact knows.settles sound
  | writes | syncs | renames | fails => exact knows.disk nofun
  | killed freshnessSecs =>
      have ends : (node.saving.step RoomSnapshot.Save.replacement .stops).job =
          none := rfl
      exact knows.restart reads ends nofun freshnessSecs
  | powerFails moment lost freshnessSecs =>
      have ends : (node.saving.step RoomSnapshot.Save.replacement
          (.crashes moment lost)).job = none := rfl
      exact knows.restart reads ends nofun freshnessSecs

end Invariants

/-! ## Runs -/

/-- The numbers that a node takes from the time it comes up on some files, with
what happens to its counter. -/
def entries (serde : SerdeJson) (parse : Bytes → Except String Json)
    (room me path : String) (files : Files String) (freshnessSecs : UInt64)
    (events : List Event) : List (Option UInt64 × Ledger.Event UInt64) :=
  Transducer.outputs (count serde parse room me path)
    (opening parse room me path files freshnessSecs) events

end Installation
end CeMeet
