import CeMeet.Foundation.Files

/-!
# A directory on a disk

The contents of a file outlast a failure of the power once the file has been
synced, and the directory does once that has been.  Otherwise the directory is
left as it was at some moment since it was last synced, and the contents of a
file may be anything.
-/

universe u

namespace Files

variable {κ : Type u} [DecidableEq κ]

theorem fresh_le_create (files : Files κ) (name : κ) :
    files.fresh ≤ (files.create name).2.fresh := by
  unfold create
  split
  · exact Nat.le_refl _
  · exact Nat.le_succ _

/-- Opening a file leaves alone what is in use under other names or none. -/
theorem create_apart (files : Files κ) {name : κ} {node : Nat}
    (used : node < files.fresh) (elsewhere : files.inode name ≠ some node) :
    node ≠ (files.create name).1 ∧
      (files.create name).2.contents node = files.contents node := by
  unfold create
  cases found : files.inode name with
  | some other =>
      have distinct : node ≠ other := fun same => elsewhere (same ▸ found)
      exact ⟨distinct, Function.update_of_ne distinct _ _⟩
  | none =>
      have distinct : node ≠ files.fresh := Nat.ne_of_lt used
      exact ⟨distinct, Function.update_of_ne distinct _ _⟩

end Files

/-- A directory of files on a disk. -/
structure Disk (κ : Type u) where
  /-- The files as the processes see them. -/
  files : Files κ
  /-- The files at all moments since the directory was last synced. -/
  past : List (Files κ)
  /-- Whether the contents of an inode have been synced. -/
  synced : Nat → Bool
  /-- This moment is one of them. -/
  current : files ∈ past
  /-- No inode has gone out of use. -/
  fresh_le : ∀ old ∈ past, old.fresh ≤ files.fresh

namespace Disk

variable {κ : Type u}

/-- A disk on which everything has been synced. -/
def settled (files : Files κ) : Disk κ where
  files := files
  past := [files]
  synced _ := true
  current := List.mem_singleton_self files
  fresh_le := fun _ member =>
    Nat.le_of_eq (congrArg Files.fresh (List.mem_singleton.mp member))

/-- Let the files change. -/
def become (disk : Disk κ) (files : Files κ) (synced : Nat → Bool)
    (grows : disk.files.fresh ≤ files.fresh) : Disk κ where
  files := files
  past := files :: disk.past
  synced := synced
  current := List.mem_cons_self
  fresh_le := fun old member => by
    rcases List.mem_cons.mp member with rfl | earlier
    · exact Nat.le_refl _
    · exact Nat.le_trans (disk.fresh_le old earlier) grows

/-- Write a piece to an open file. -/
def write (disk : Disk κ) (node offset : Nat) (piece : List UInt8) : Disk κ :=
  disk.become (disk.files.write node offset piece)
    (Function.update disk.synced node false) (Nat.le_refl _)

/-- Sync an open file. -/
def syncFile (disk : Disk κ) (node : Nat) : Disk κ :=
  { disk with synced := Function.update disk.synced node true }

/-- Sync the directory. -/
def syncDir (disk : Disk κ) : Disk κ where
  files := disk.files
  past := [disk.files]
  synced := disk.synced
  current := List.mem_singleton_self disk.files
  fresh_le := fun _ member =>
    Nat.le_of_eq (congrArg Files.fresh (List.mem_singleton.mp member))

/-- The files at a moment, counted back from now. -/
def atMoment (disk : Disk κ) (moment : Nat) : Files κ :=
  disk.past[moment]?.getD disk.files

theorem atMoment_mem (disk : Disk κ) (moment : Nat) :
    disk.atMoment moment ∈ disk.past := by
  rw [atMoment]
  cases found : disk.past[moment]? with
  | none => exact disk.current
  | some old => exact List.mem_of_getElem? found

/-- The files after a failure of the power that leaves the directory as it was
at a moment, and something else of what was not synced. -/
def survivor (disk : Disk κ) (moment : Nat) (lost : Nat → List UInt8) :
    Files κ where
  inode := (disk.atMoment moment).inode
  contents node :=
    if disk.synced node then disk.files.contents node else lost node
  fresh := disk.files.fresh
  inode_lt := fun name node found =>
    Nat.lt_of_lt_of_le ((disk.atMoment moment).inode_lt name node found)
      (disk.fresh_le _ (disk.atMoment_mem moment))
  unshared := (disk.atMoment moment).unshared

/-- Let the power fail. -/
def crash (disk : Disk κ) (moment : Nat) (lost : Nat → List UInt8) : Disk κ :=
  settled (disk.survivor moment lost)

variable [DecidableEq κ]

/-- Open a file for writing, creating it or truncating it. -/
def create (disk : Disk κ) (name : κ) : Nat × Disk κ :=
  ((disk.files.create name).1,
    disk.become (disk.files.create name).2
      (Function.update disk.synced (disk.files.create name).1 false)
      (disk.files.fresh_le_create name))

/-- Rename a file over another one, unless it is gone. -/
def rename (disk : Disk κ) (source dest : κ) : Option (Disk κ) :=
  if (disk.files.inode source).isSome then
    some (disk.become (disk.files.move source dest) disk.synced
      (Nat.le_refl _))
  else none

/-! ## What a file is left with -/

/-- Whatever fails, a file holds something of a kind: at every moment to which
the directory may return, its contents are of that kind and synced, and no file
that may be open for writing has its inode. -/
structure Keeps (disk : Disk κ) (dest : κ)
    (allowed : Option (List UInt8) → Prop) : Prop where
  /-- The contents are of that kind. -/
  kept : ∀ old ∈ disk.past,
    allowed ((old.inode dest).map disk.files.contents)
  /-- They are synced. -/
  safe : ∀ old ∈ disk.past, ∀ node, old.inode dest = some node →
    disk.synced node = true
  /-- No other file has the inode. -/
  apart : ∀ old ∈ disk.past, ∀ name node,
    disk.files.inode name = some node → old.inode dest = some node →
      name = dest

namespace Keeps

variable {disk : Disk κ} {dest : κ} {allowed : Option (List UInt8) → Prop}

omit [DecidableEq κ] in
theorem settled {files : Files κ} (holds : allowed (files.read dest)) :
    (Disk.settled files).Keeps dest allowed where
  kept := fun old member => by
    rw [List.mem_singleton.mp member]
    exact holds
  safe := fun _ _ _ _ => rfl
  apart := fun old member name node named shared => by
    rw [List.mem_singleton.mp member] at shared
    exact files.unshared name dest node named shared

omit [DecidableEq κ] in
theorem read (keeps : disk.Keeps dest allowed) :
    allowed (disk.files.read dest) :=
  keeps.kept disk.files disk.current

omit [DecidableEq κ] in
/-- A change of the files that leaves the inodes alone which the file may
return to. -/
theorem become
    (keeps : disk.Keeps dest allowed)
    {files : Files κ} {synced : Nat → Bool}
    (grows : disk.files.fresh ≤ files.fresh)
    (untouched : ∀ old ∈ disk.past, ∀ node, old.inode dest = some node →
      files.contents node = disk.files.contents node ∧
        synced node = disk.synced node)
    (apart : ∀ old ∈ disk.past, ∀ name node,
      files.inode name = some node → old.inode dest = some node → name = dest)
    (holds : allowed (files.read dest))
    (safe : ∀ node, files.inode dest = some node → synced node = true) :
    (disk.become files synced grows).Keeps dest allowed where
  kept := fun old member => by
    rcases List.mem_cons.mp member with rfl | earlier
    · exact holds
    · have before := keeps.kept old earlier
      cases found : old.inode dest with
      | none =>
          rw [found] at before
          exact before
      | some node =>
          rw [found] at before
          change allowed (some (files.contents node))
          rw [(untouched old earlier node found).1]
          exact before
  safe := fun old member node found => by
    rcases List.mem_cons.mp member with rfl | earlier
    · exact safe node found
    · exact (untouched old earlier node found).2.trans
        (keeps.safe old earlier node found)
  apart := fun old member name node named shared => by
    rcases List.mem_cons.mp member with rfl | earlier
    · exact old.unshared name dest node named shared
    · exact apart old earlier name node named shared

omit [DecidableEq κ] in
/-- Another file may be written to. -/
theorem write (keeps : disk.Keeps dest allowed) {name : κ} {node : Nat}
    (opened : disk.files.inode name = some node) (different : name ≠ dest)
    (offset : Nat) (piece : List UInt8) :
    (disk.write node offset piece).Keeps dest allowed := by
  have elsewhere : ∀ old ∈ disk.past, old.inode dest ≠ some node :=
    fun old member shared =>
      different (keeps.apart old member name node opened shared)
  have same := (Files.write_spec opened offset piece).2 dest different.symm
  have grows : disk.files.fresh ≤ (disk.files.write node offset piece).fresh :=
    Nat.le_refl _
  refine keeps.become grows ?_ ?_ ?_ ?_
  · intro old member other found
    have distinct : other ≠ node := fun shared =>
      elsewhere old member (shared ▸ found)
    exact ⟨Function.update_of_ne distinct _ _,
      Function.update_of_ne distinct _ _⟩
  · exact keeps.apart
  · rw [same]
    exact keeps.read
  · intro other found
    have distinct : other ≠ node := fun shared =>
      elsewhere disk.files disk.current (shared ▸ found)
    rw [Function.update_of_ne distinct]
    exact keeps.safe disk.files disk.current other found

/-- Another file may be opened. -/
theorem create (keeps : disk.Keeps dest allowed) {name : κ}
    (different : name ≠ dest) :
    (disk.create name).2.Keeps dest allowed := by
  obtain ⟨opened, _, others⟩ := disk.files.create_spec name
  have kept := others dest different.symm
  have elsewhere : ∀ old ∈ disk.past, ∀ node, old.inode dest = some node →
      node ≠ (disk.files.create name).1 ∧
        (disk.files.create name).2.contents node =
          disk.files.contents node := by
    intro old member node found
    have used := Nat.lt_of_lt_of_le (old.inode_lt dest node found)
      (disk.fresh_le old member)
    exact disk.files.create_apart used fun named =>
      different (keeps.apart old member name node named found)
  unfold Disk.create
  refine keeps.become (disk.files.fresh_le_create name) ?_ ?_ ?_ ?_
  · intro old member node found
    obtain ⟨distinct, same⟩ := elsewhere old member node found
    exact ⟨same, Function.update_of_ne distinct _ _⟩
  · intro old member other node named shared
    by_cases new : other = name
    · rw [new, opened] at named
      exact absurd (Option.some.inj named).symm
        (elsewhere old member node shared).1
    · rw [(others other new).1] at named
      exact keeps.apart old member other node named shared
  · rw [kept.2]
    exact keeps.read
  · intro node found
    rw [kept.1] at found
    have distinct := (elsewhere disk.files disk.current node found).1
    rw [Function.update_of_ne distinct]
    exact keeps.safe disk.files disk.current node found

/-- A synced file of that kind may be put in the place of the file, and any
other in the place of another. -/
theorem rename (keeps : disk.Keeps dest allowed) {source target : κ}
    {node : Nat} (opened : disk.files.inode source = some node)
    (different : source ≠ dest)
    (replaces : target = dest →
      allowed (some (disk.files.contents node)) ∧ disk.synced node = true) :
    ∃ renamed, disk.rename source target = some renamed ∧
      renamed.files = disk.files.move source target ∧
      renamed.Keeps dest allowed := by
  refine ⟨_, if_pos (by rw [opened]; rfl), rfl, ?_⟩
  refine keeps.become _ (fun _ _ _ _ => ⟨rfl, rfl⟩) ?_ ?_ ?_
  · intro old member name other named shared
    change (if name = target then _ else if name = source then _ else _) = _
      at named
    split at named
    · exact absurd (keeps.apart old member source other named shared) different
    · split at named
      · cases named
      · exact keeps.apart old member name other named shared
  · by_cases same : target = dest
    · have moved : (disk.files.move source target).read dest =
          some (disk.files.contents node) := by
        simp [Files.read, Files.move, same, opened]
      rw [moved]
      exact (replaces same).1
    · have kept : (disk.files.move source target).read dest =
          disk.files.read dest := by
        simp [Files.read, Files.move, Ne.symm same, different.symm]
      rw [kept]
      exact keeps.read
  · intro other found
    by_cases same : target = dest
    · have moved : other = node := by
        simpa [Files.move, same, opened, eq_comm] using found
      rw [moved]
      exact (replaces same).2
    · have kept : disk.files.inode dest = some other := by
        simpa [Files.move, Ne.symm same, different.symm] using found
      exact keeps.safe disk.files disk.current other kept

omit [DecidableEq κ] in
theorem syncFile (keeps : disk.Keeps dest allowed) (node : Nat) :
    (disk.syncFile node).Keeps dest allowed where
  kept := keeps.kept
  safe := fun old member other found => by
    have before := keeps.safe old member other found
    change Function.update disk.synced node true other = true
    by_cases same : other = node
    · rw [same, Function.update_self]
    · rw [Function.update_of_ne same]
      exact before
  apart := keeps.apart

omit [DecidableEq κ] in
/-- Once the directory is synced, there is no way back. -/
theorem syncDir {narrower : Option (List UInt8) → Prop}
    (keeps : disk.Keeps dest allowed)
    (holds : narrower (disk.files.read dest)) :
    disk.syncDir.Keeps dest narrower where
  kept := fun old member => by
    rw [List.mem_singleton.mp member]
    exact holds
  safe := fun old member => by
    rw [List.mem_singleton.mp member]
    exact keeps.safe disk.files disk.current
  apart := fun old member => by
    rw [List.mem_singleton.mp member]
    exact keeps.apart disk.files disk.current

omit [DecidableEq κ] in
/-- A failure of the power leaves something of that kind. -/
theorem crash (keeps : disk.Keeps dest allowed) (moment : Nat)
    (lost : Nat → List UInt8) :
    (disk.crash moment lost).Keeps dest allowed := by
  refine settled ?_
  have member := disk.atMoment_mem moment
  have before := keeps.kept _ member
  change allowed (((disk.atMoment moment).inode dest).map _)
  cases found : (disk.atMoment moment).inode dest with
  | none =>
      rw [found] at before
      exact before
  | some node =>
      rw [found] at before
      change allowed (some (if disk.synced node then _ else _))
      rw [if_pos (keeps.safe _ member node found)]
      exact before

end Keeps
end Disk
