import CeMeet.Foundation.Disk
import CeMeet.Foundation.Replacement

/-!
# Replacing files on a disk

Replacements are made one after another.  Each syncs its temporary file before
the rename and the directory after it.  Any of them may fail or be killed at any
point, and so may the power.
-/

universe u v

namespace Replacement

/-- What is left to do for a replacement. -/
inductive Stage
  | writing (node written : Nat)
  | synced
  | renamed

/-- A disk, and the replacement that is being made. -/
structure Saving (κ : Type u) (ι : Type v) where
  /-- The disk. -/
  disk : Disk κ
  /-- The replacement and how far it has come. -/
  job : Option (ι × Stage)

/-- What happens next. -/
inductive Event (ι : Type v)
  /-- A replacement opens its temporary file. -/
  | opens (job : ι)
  /-- A piece of at most some size is written. -/
  | writes (amount : Nat)
  /-- The temporary file is synced. -/
  | syncs
  /-- The temporary file is renamed. -/
  | renames
  /-- The directory is synced. -/
  | settles
  /-- The replacement fails or is killed, or ends without syncing the
  directory. -/
  | stops
  /-- The power fails. -/
  | crashes (moment : Nat) (lost : Nat → List UInt8)

namespace Saving

variable {κ : Type u} {ι : Type v} [DecidableEq κ]

/-- Take one step.  What does not come next does not happen. -/
def step (jobs : ι → Replacement κ) (saving : Saving κ ι) :
    Event ι → Saving κ ι
  | .opens job =>
      match saving.job with
      | none =>
          let (node, disk) := saving.disk.create (jobs job).temp
          { disk, job := some (job, .writing node 0) }
      | some _ => saving
  | .writes amount =>
      match saving.job with
      | some (job, .writing node written) =>
          let piece := ((jobs job).bytes.drop written).take amount
          { disk := saving.disk.write node written piece
            job := some (job, .writing node (written + piece.length)) }
      | _ => saving
  | .syncs =>
      match saving.job with
      | some (job, .writing node written) =>
          if written < (jobs job).bytes.length then saving
          else { disk := saving.disk.syncFile node, job := some (job, .synced) }
      | _ => saving
  | .renames =>
      match saving.job with
      | some (job, .synced) =>
          match saving.disk.rename (jobs job).temp (jobs job).dest with
          | some disk => { disk, job := some (job, .renamed) }
          | none => { saving with job := none }
      | _ => saving
  | .settles =>
      match saving.job with
      | some (_, .renamed) => { disk := saving.disk.syncDir, job := none }
      | _ => { saving with disk := saving.disk.syncDir }
  | .stops => { saving with job := none }
  | .crashes moment lost =>
      { disk := saving.disk.crash moment lost, job := none }

/-- The state after a list of events. -/
def run (jobs : ι → Replacement κ) (saving : Saving κ ι)
    (events : List (Event ι)) : Saving κ ι :=
  events.foldl (step jobs) saving

/-- A disk on which nothing is being replaced. -/
def idle (files : Files κ) : Saving κ ι :=
  { disk := .settled files, job := none }

/-- Only the opening of a temporary file begins a replacement. -/
theorem job_of_step
    {jobs : ι → Replacement κ} {saving : Saving κ ι} {event : Event ι}
    (begun : ∀ job, event ≠ .opens job) {job : ι} {stage : Stage}
    (runs : (step jobs saving event).job = some (job, stage)) :
    ∃ earlier, saving.job = some (job, earlier) := by
  cases event with
  | opens opened => exact absurd rfl (begun opened)
  | writes | syncs | renames | settles =>
      rw [step] at runs
      grind
  | stops | crashes => cases runs

/-! ## What a file is left with -/

/-- What a replacement in progress relies on. -/
def Sound (job : Replacement κ) (disk : Disk κ) : Stage → Prop
  | .writing node written =>
      disk.files.inode job.temp = some node ∧
        disk.files.contents node = job.bytes.take written ∧
        written ≤ job.bytes.length
  | .synced =>
      ∃ node, disk.files.inode job.temp = some node ∧
        disk.files.contents node = job.bytes ∧ disk.synced node = true
  | .renamed => disk.files.read job.dest = some job.bytes

/-- Whatever happens next, a file holds something of a kind, and the
replacement in progress will not put anything else in its place. -/
structure Keeps (jobs : ι → Replacement κ) (saving : Saving κ ι) (dest : κ)
    (allowed : Option (List UInt8) → Prop) : Prop where
  /-- The file holds something of that kind. -/
  disk : saving.disk.Keeps dest allowed
  /-- The replacement in progress is sound. -/
  sound : ∀ job stage, saving.job = some (job, stage) →
    Sound (jobs job) saving.disk stage
  /-- It does not open the file. -/
  separate : ∀ job stage, saving.job = some (job, stage) →
    (jobs job).temp ≠ dest
  /-- It has contents of that kind for the file. -/
  offers : ∀ job stage, saving.job = some (job, stage) →
    (jobs job).dest = dest → allowed (some (jobs job).bytes)

/-- A replacement that may be made beside a file that holds something of a
kind. -/
structure Admissible (jobs : ι → Replacement κ) (dest : κ)
    (allowed : Option (List UInt8) → Prop) (event : Event ι) : Prop where
  /-- It does not open the file. -/
  separate : ∀ job, event = .opens job → (jobs job).temp ≠ dest
  /-- It has contents of that kind for the file. -/
  offers : ∀ job, event = .opens job → (jobs job).dest = dest →
    allowed (some (jobs job).bytes)

omit [DecidableEq κ] in
/-- A piece is written after what was written before. -/
theorem Sound.write {job : Replacement κ} {disk : Disk κ} {node written : Nat}
    (sound : Sound job disk (.writing node written)) (amount : Nat) :
    let piece := (job.bytes.drop written).take amount
    Sound job (disk.write node written piece)
      (.writing node (written + piece.length)) := by
  intro piece
  obtain ⟨opened, contents, inside⟩ := sound
  have whole : (job.bytes.drop written).take piece.length = piece := by
    rw [List.length_take]
    exact List.take_eq_take_min.symm
  have atEnd : (job.bytes.take written).length = written :=
    List.length_take_of_le inside
  refine ⟨opened, ?_, ?_⟩
  · change Function.update disk.files.contents node
        (Files.patch (disk.files.contents node) written piece) node = _
    rw [Function.update_self, contents, Files.patch_at_end atEnd, List.take_add,
      whole]
  · have fits : piece.length ≤ (job.bytes.drop written).length := by
      rw [List.length_take]
      exact Nat.min_le_right _ _
    rw [List.length_drop] at fits
    omega

omit [DecidableEq κ] in
/-- The temporary file is synced when all is written. -/
theorem Sound.sync {job : Replacement κ} {disk : Disk κ} {node written : Nat}
    (sound : Sound job disk (.writing node written))
    (complete : ¬written < job.bytes.length) :
    Sound job (disk.syncFile node) .synced := by
  obtain ⟨opened, contents, _⟩ := sound
  refine ⟨node, opened, ?_, Function.update_self ..⟩
  rw [← List.take_of_length_le (Nat.not_lt.mp complete)]
  exact contents

namespace Keeps

variable {jobs : ι → Replacement κ} {saving : Saving κ ι} {dest : κ}
  {allowed : Option (List UInt8) → Prop}

omit [DecidableEq κ] in
/-- Nothing is being replaced. -/
theorem at_rest {disk : Disk κ} (kept : disk.Keeps dest allowed) :
    Keeps jobs ({ disk, job := none } : Saving κ ι) dest allowed where
  disk := kept
  sound := nofun
  separate := nofun
  offers := nofun

omit [DecidableEq κ] in
/-- The replacement in progress comes further. -/
theorem advance (keeps : Keeps jobs saving dest allowed)
    {job : ι} {stage : Stage} (runs : saving.job = some (job, stage))
    {disk : Disk κ} (kept : disk.Keeps dest allowed)
    {next : Stage} (sound : Sound (jobs job) disk next) :
    Keeps jobs { disk, job := some (job, next) } dest allowed where
  disk := kept
  sound := fun _ _ same => by
    cases same
    exact sound
  separate := fun _ _ same => by
    cases same
    exact keeps.separate job stage runs
  offers := fun _ _ same => by
    cases same
    exact keeps.offers job stage runs

theorem opens (keeps : Keeps jobs saving dest allowed) {job : ι}
    (admissible : Admissible jobs dest allowed (.opens job)) :
    Keeps jobs (step jobs saving (.opens job)) dest allowed := by
  rw [step]
  split
  case h_2 => exact keeps
  case h_1 =>
    have separate := admissible.separate job rfl
    obtain ⟨opened, blank, _⟩ :=
      saving.disk.files.create_spec (jobs job).temp
    have emptied : (saving.disk.create (jobs job).temp).2.files.contents
        (saving.disk.create (jobs job).temp).1 = [] := by
      rw [Files.read, opened] at blank
      exact Option.some.inj blank
    exact
      { disk := keeps.disk.create separate
        sound := fun _ _ same => by
          cases same
          exact ⟨opened, emptied, Nat.zero_le _⟩
        separate := fun _ _ same => by
          cases same
          exact separate
        offers := fun _ _ same => by
          cases same
          exact admissible.offers job rfl }

theorem writes (keeps : Keeps jobs saving dest allowed) (amount : Nat) :
    Keeps jobs (step jobs saving (.writes amount)) dest allowed := by
  rw [step]
  split
  case h_2 => exact keeps
  case h_1 job node written runs =>
    have sound := keeps.sound job _ runs
    exact keeps.advance runs
      (keeps.disk.write sound.1 (keeps.separate job _ runs) _ _)
      (sound.write amount)

theorem syncs (keeps : Keeps jobs saving dest allowed) :
    Keeps jobs (step jobs saving .syncs) dest allowed := by
  rw [step]
  split
  case h_2 => exact keeps
  case h_1 job node written runs =>
    split
    case isTrue => exact keeps
    case isFalse complete =>
      exact keeps.advance runs (keeps.disk.syncFile node)
        ((keeps.sound job _ runs).sync complete)

theorem renames (keeps : Keeps jobs saving dest allowed) :
    Keeps jobs (step jobs saving .renames) dest allowed := by
  rw [step]
  split
  case h_2 => exact keeps
  case h_1 job runs =>
    obtain ⟨node, opened, contents, synced⟩ := keeps.sound job _ runs
    obtain ⟨renamed, succeeds, moved, kept⟩ :=
      keeps.disk.rename opened (keeps.separate job _ runs)
        fun same => ⟨contents ▸ keeps.offers job _ runs same, synced⟩
    rw [succeeds]
    refine keeps.advance runs kept ?_
    change renamed.files.read (jobs job).dest = some (jobs job).bytes
    simp [moved, Files.read, Files.move, opened, contents]

theorem settles (keeps : Keeps jobs saving dest allowed) :
    Keeps jobs (step jobs saving .settles) dest allowed := by
  have settled := keeps.disk.syncDir keeps.disk.read
  rw [step]
  split
  case h_1 => exact at_rest settled
  case h_2 =>
    exact
      { disk := settled
        sound := keeps.sound
        separate := keeps.separate
        offers := keeps.offers }

/-- Each event leaves the file with something of that kind. -/
theorem step (keeps : Keeps jobs saving dest allowed) {event : Event ι}
    (admissible : Admissible jobs dest allowed event) :
    Keeps jobs (Saving.step jobs saving event) dest allowed := by
  cases event with
  | opens job => exact keeps.opens admissible
  | writes amount => exact keeps.writes amount
  | syncs => exact keeps.syncs
  | renames => exact keeps.renames
  | settles => exact keeps.settles
  | stops => exact at_rest keeps.disk
  | crashes moment lost => exact at_rest (keeps.disk.crash moment lost)

/-- So does any list of events. -/
theorem run (keeps : Keeps jobs saving dest allowed) {events : List (Event ι)}
    (admissible : ∀ event ∈ events, Admissible jobs dest allowed event) :
    Keeps jobs (Saving.run jobs saving events) dest allowed := by
  induction events generalizing saving with
  | nil => exact keeps
  | cons event events inductionHypothesis =>
      rw [List.forall_mem_cons] at admissible
      exact inductionHypothesis (keeps.step admissible.1) admissible.2

end Keeps

end Saving
end Replacement
