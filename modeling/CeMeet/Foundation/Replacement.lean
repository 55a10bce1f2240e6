import CeMeet.Foundation.Files

/-!
# Replacing files by way of temporary ones

A replacement writes the new contents of a file to a temporary one and renames
that over the file.  Any number of replacements may take turns, and each may
never come to its end.  Every destination then always holds what it held before,
or all that some replacement has for it, exactly if no two replacements share a
temporary file and none has another's, or its own, as its destination.
-/

universe u v

/-- A replacement of a file. -/
structure Replacement (κ : Type u) where
  /-- The temporary file. -/
  temp : κ
  /-- The file to be replaced. -/
  dest : κ
  /-- The new contents. -/
  bytes : List UInt8

namespace Replacement

/-- How far a replacement has come. -/
inductive Progress
  | idle
  | writing (node written : Nat)
  | finished (replaced : Bool)

variable {κ : Type u} [DecidableEq κ]

/-- Take one step: open the temporary file, write a piece of at most the given
size, or rename when everything is written. -/
def step (job : Replacement κ) (amount : Nat) (files : Files κ) :
    Progress → Progress × Files κ
  | .idle =>
      let (node, files) := files.create job.temp
      (.writing node 0, files)
  | .writing node written =>
      if written < job.bytes.length then
        let piece := (job.bytes.drop written).take amount
        (.writing node (written + piece.length),
          files.write node written piece)
      else
        match files.rename job.temp job.dest with
        | some files => (.finished true, files)
        | none => (.finished false, files)
  | .finished replaced => (.finished replaced, files)

theorem step_write
    {job : Replacement κ} {written : Nat}
    (unfinished : written < job.bytes.length)
    (amount : Nat) (files : Files κ) (node : Nat) :
    let piece := (job.bytes.drop written).take amount
    job.step amount files (.writing node written) =
      (.writing node (written + piece.length),
        files.write node written piece) :=
  if_pos unfinished

theorem step_rename
    {job : Replacement κ} {files renamed : Files κ} {written : Nat}
    (complete : job.bytes.length ≤ written)
    (succeeds : files.rename job.temp job.dest = some renamed)
    (amount node : Nat) :
    job.step amount files (.writing node written) =
      (.finished true, renamed) := by
  change (if _ then _ else _) = _
  rw [if_neg (Nat.not_lt.mpr complete), succeeds]

/-- What a replacement relies on: its temporary file is still there, with all
that was written to it. -/
def Sound (job : Replacement κ) (files : Files κ) (progress : Progress) :
    Prop :=
  ∀ node written, progress = .writing node written →
    files.inode job.temp = some node ∧
      files.read job.temp = some (job.bytes.take written)

/-- What a step of a replacement does to files. -/
structure Steps (job : Replacement κ) (before after : Files κ) : Prop where
  /-- Only the temporary file and the destination change. -/
  others : ∀ name, name ≠ job.temp → name ≠ job.dest →
    after.inode name = before.inode name ∧ after.read name = before.read name
  /-- The destination is kept or replaced as a whole. -/
  dest : after.read job.dest = before.read job.dest ∨
    after.read job.dest = some job.bytes

/-- Opening the temporary file empties it. -/
theorem sound_create
    (job : Replacement κ) (files : Files κ)
    (separate : job.dest ≠ job.temp) :
    job.Sound (files.create job.temp).2
        (.writing (files.create job.temp).1 0) ∧
      Steps job files (files.create job.temp).2 := by
  obtain ⟨opened, blank, others⟩ := files.create_spec job.temp
  constructor
  · intro node written same
    cases same
    exact ⟨opened, blank⟩
  · exact
      { others := fun name different _ => others name different
        dest := .inl (others job.dest separate).2 }

omit [DecidableEq κ] in
/-- Writing a piece adds it to the temporary file. -/
theorem Sound.write
    {job : Replacement κ} {files : Files κ} {node written : Nat}
    (sound : job.Sound files (.writing node written))
    (separate : job.dest ≠ job.temp)
    (unfinished : written < job.bytes.length)
    (amount : Nat) :
    let piece := (job.bytes.drop written).take amount
    job.Sound (files.write node written piece)
        (.writing node (written + piece.length)) ∧
      Steps job files (files.write node written piece) := by
  intro piece
  obtain ⟨opened, contents⟩ := sound node written rfl
  obtain ⟨updated, others⟩ := files.write_spec opened written piece
  constructor
  · intro _ _ same
    cases same
    refine ⟨opened, updated.trans ?_⟩
    have stored : files.contents node = job.bytes.take written := by
      rw [Files.read, opened] at contents
      exact Option.some.inj contents
    have whole : (job.bytes.drop written).take piece.length = piece := by
      rw [List.length_take]
      exact List.take_eq_take_min.symm
    rw [stored, List.take_add, whole, Files.patch_at_end]
    exact List.length_take_of_le (Nat.le_of_lt unfinished)
  · exact
      { others := fun name different _ => ⟨rfl, others name different⟩
        dest := .inl (others job.dest separate) }

/-- Renaming the complete temporary file replaces the destination by all of the
new contents. -/
theorem Sound.rename
    {job : Replacement κ} {files : Files κ} {node written : Nat}
    (sound : job.Sound files (.writing node written))
    (complete : job.bytes.length ≤ written) :
    ∃ renamed, files.rename job.temp job.dest = some renamed ∧
      Steps job files renamed := by
  obtain ⟨opened, contents⟩ := sound node written rfl
  obtain ⟨renamed, succeeds, replaced, others⟩ :=
    Files.rename_spec opened job.dest
  refine ⟨renamed, succeeds, { others, dest := .inr ?_ }⟩
  rw [replaced, contents, List.take_of_length_le complete]

theorem Sound.step
    {job : Replacement κ} {files : Files κ} {progress : Progress}
    (sound : job.Sound files progress)
    (separate : job.dest ≠ job.temp)
    (amount : Nat) :
    job.Sound (job.step amount files progress).2
        (job.step amount files progress).1 ∧
      Steps job files (job.step amount files progress).2 := by
  cases progress with
  | idle => exact sound_create job files separate
  | writing node written =>
      by_cases unfinished : written < job.bytes.length
      · rw [step_write unfinished]
        exact sound.write separate unfinished amount
      · have complete := Nat.not_lt.mp unfinished
        obtain ⟨renamed, succeeds, steps⟩ := sound.rename complete
        rw [step_rename complete succeeds]
        refine ⟨?_, steps⟩
        intro _ _ impossible
        cases impossible
  | finished replaced =>
      constructor
      · intro _ _ impossible
        cases impossible
      · exact
          { others := fun _ _ _ => ⟨rfl, rfl⟩
            dest := .inl rfl }

end Replacement

namespace Replacement

variable {κ : Type u} {ι : Type v} [DecidableEq κ] [DecidableEq ι]

/-- The files, and how far each replacement has come. -/
structure State (κ : Type u) (ι : Type v) where
  /-- The files. -/
  files : Files κ
  /-- The progress of each replacement. -/
  progress : ι → Progress

/-- The state before any replacement has begun. -/
def State.start (files : Files κ) : State κ ι :=
  { files, progress := fun _ => .idle }

/-- Let one replacement take a step, with a bound on the size of a piece. -/
def turn (jobs : ι → Replacement κ) (state : State κ ι) (next : ι × Nat) :
    State κ ι :=
  let (progress, files) := (jobs next.1).step next.2 state.files
    (state.progress next.1)
  { files, progress := Function.update state.progress next.1 progress }

/-- Let replacements take turns.  A crash ends the schedule. -/
def run (jobs : ι → Replacement κ) (files : Files κ)
    (schedule : List (ι × Nat)) : State κ ι :=
  schedule.foldl (turn jobs) (.start files)

/-- Every destination holds what it held before, or all that a replacement has
for it. -/
def Isolated (jobs : ι → Replacement κ) (before after : Files κ) : Prop :=
  ∀ i, after.read (jobs i).dest = before.read (jobs i).dest ∨
    ∃ j, (jobs j).dest = (jobs i).dest ∧
      after.read (jobs i).dest = some (jobs j).bytes

/-- No temporary file is shared, or a destination. -/
structure Separate (jobs : ι → Replacement κ) : Prop where
  /-- No two replacements share a temporary file. -/
  temps : Function.Injective fun i => (jobs i).temp
  /-- No destination is a temporary file. -/
  dests : ∀ i j, (jobs i).dest ≠ (jobs j).temp

/-- What holds after every turn of separate replacements. -/
structure Invariant (jobs : ι → Replacement κ) (before : Files κ)
    (state : State κ ι) : Prop where
  /-- The destinations are isolated. -/
  isolated : Isolated jobs before state.files
  /-- The temporary files hold what was written to them. -/
  sound : ∀ i, (jobs i).Sound state.files (state.progress i)

omit [DecidableEq κ] [DecidableEq ι] in
theorem Steps.sound
    {jobs : ι → Replacement κ} {i j : ι} {before after : Files κ}
    {progress : Progress}
    (steps : Steps (jobs i) before after)
    (separate : Separate jobs)
    (different : j ≠ i)
    (sound : (jobs j).Sound before progress) :
    (jobs j).Sound after progress := by
  have frame := steps.others (jobs j).temp
    (fun same => different (separate.temps same)) (separate.dests i j).symm
  intro node written same
  rw [frame.1, frame.2]
  exact sound node written same

omit [DecidableEq κ] [DecidableEq ι] in
theorem Steps.isolated
    {jobs : ι → Replacement κ} {i : ι} {before files after : Files κ}
    (steps : Steps (jobs i) files after)
    (separate : Separate jobs)
    (isolated : Isolated jobs before files) :
    Isolated jobs before after := by
  intro j
  by_cases same : (jobs j).dest = (jobs i).dest
  · rcases steps.dest with kept | replaced
    · rw [same, kept, ← same]
      exact isolated j
    · exact .inr ⟨i, same.symm, by rw [same, replaced]⟩
  · rw [(steps.others (jobs j).dest (separate.dests j i) same).2]
    exact isolated j

theorem Invariant.turn
    {jobs : ι → Replacement κ} {before : Files κ} {state : State κ ι}
    (invariant : Invariant jobs before state)
    (separate : Separate jobs)
    (next : ι × Nat) :
    Invariant jobs before (Replacement.turn jobs state next) := by
  obtain ⟨soundNext, steps⟩ := (invariant.sound next.1).step
    (separate.dests next.1 next.1) next.2
  constructor
  · exact steps.isolated separate invariant.isolated
  · intro i
    unfold Replacement.turn
    by_cases same : i = next.1
    · subst same
      simp only [Function.update_self]
      exact soundNext
    · simp only [Function.update_of_ne same]
      exact steps.sound separate same (invariant.sound i)

/-- Separate replacements are isolated, however they take turns. -/
theorem isolated_of_separate
    {jobs : ι → Replacement κ}
    (separate : Separate jobs)
    (files : Files κ) (schedule : List (ι × Nat)) :
    Isolated jobs files (run jobs files schedule).files := by
  have start : Invariant jobs files (State.start files) :=
    { isolated := fun _ => .inl rfl
      sound := fun _ => nofun }
  suffices kept : ∀ state, Invariant jobs files state →
      Invariant jobs files (schedule.foldl (turn jobs) state) from
    (kept _ start).isolated
  induction schedule with
  | nil => exact fun _ invariant => invariant
  | cons next schedule inductionHypothesis =>
      exact fun _ invariant =>
        inductionHypothesis _ (invariant.turn separate next)

/-! ## Replacements that are not separate -/

omit [DecidableEq κ] [DecidableEq ι] in
theorem not_isolated_of_blank
    {jobs : ι → Replacement κ} {after : Files κ} {i : ι}
    (filled : ∀ j, (jobs j).bytes ≠ [])
    (blank : after.read (jobs i).dest = some []) :
    ¬Isolated jobs .empty after := by
  intro isolated
  rcases isolated i with kept | ⟨j, _, replaced⟩
  · rw [blank] at kept
    cases kept
  · rw [blank] at replaced
    exact filled j (Option.some.inj replaced).symm

@[simp] theorem turn_files
    (jobs : ι → Replacement κ) (state : State κ ι) (i : ι) (amount : Nat) :
    (turn jobs state (i, amount)).files =
      ((jobs i).step amount state.files (state.progress i)).2 := rfl

@[simp] theorem turn_progress_self
    (jobs : ι → Replacement κ) (state : State κ ι) (i : ι) (amount : Nat) :
    (turn jobs state (i, amount)).progress i =
      ((jobs i).step amount state.files (state.progress i)).1 :=
  Function.update_self _ _ _

theorem turn_progress_of_ne
    {i j : ι} (different : j ≠ i)
    (jobs : ι → Replacement κ) (state : State κ ι) (amount : Nat) :
    (turn jobs state (i, amount)).progress j = state.progress j :=
  Function.update_of_ne different _ _

/-- A temporary file that is a destination is seen there when it is opened. -/
theorem not_isolated_of_dest
    {jobs : ι → Replacement κ} {i j : ι}
    (filled : ∀ k, (jobs k).bytes ≠ [])
    (same : (jobs i).dest = (jobs j).temp) :
    ¬Isolated jobs .empty (run jobs .empty [(j, 0)]).files := by
  refine not_isolated_of_blank (i := i) filled ?_
  rw [same]
  exact (Files.create_spec .empty (jobs j).temp).2.1

/-- A replacement that opens the temporary file of another one just before that
is renamed truncates what is put in place. -/
theorem not_isolated_of_shared
    {jobs : ι → Replacement κ} {i j : ι}
    (filled : ∀ k, (jobs k).bytes ≠ [])
    (different : i ≠ j)
    (shared : (jobs i).temp = (jobs j).temp) :
    ¬Isolated jobs .empty
      (run jobs .empty
        [(i, 0), (i, (jobs i).bytes.length), (j, 0), (i, 0)]).files := by
  refine not_isolated_of_blank (i := i) filled ?_
  let opened : State κ ι := turn jobs (.start .empty) (i, 0)
  let written : State κ ι := turn jobs opened (i, (jobs i).bytes.length)
  let truncated : State κ ι := turn jobs written (j, 0)
  change (turn jobs truncated (i, 0)).files.read (jobs i).dest = some []
  have started : truncated.progress i =
      .writing (Files.empty.create (jobs i).temp).1 (jobs i).bytes.length := by
    have begun : opened.progress i =
        .writing (Files.empty.create (jobs i).temp).1 0 :=
      turn_progress_self jobs (.start .empty) i 0
    rw [turn_progress_of_ne different, turn_progress_self, begun]
    rw [step_write (List.length_pos_iff.mpr (filled i))]
    simp
  have idle : written.progress j = .idle := by
    rw [turn_progress_of_ne different.symm, turn_progress_of_ne different.symm]
    rfl
  have blank := Files.create_spec written.files (jobs j).temp
  have created : truncated.files = (written.files.create (jobs j).temp).2 := by
    rw [turn_files, idle]
    rfl
  rw [← created, ← shared] at blank
  obtain ⟨found, blank, _⟩ := blank
  obtain ⟨renamed, succeeds, replaced, _⟩ :=
    Files.rename_spec found (jobs i).dest
  rw [turn_files, started, step_rename (Nat.le_refl _) succeeds]
  exact replaced.trans blank

/-- Replacements by something are isolated, whatever was there before and
however they take turns, exactly if they are separate. -/
theorem isolated_iff_separate
    {jobs : ι → Replacement κ}
    (filled : ∀ i, (jobs i).bytes ≠ []) :
    (∀ files schedule, Isolated jobs files (run jobs files schedule).files) ↔
      Separate jobs := by
  constructor
  · intro isolated
    constructor
    · intro i j shared
      by_contra different
      exact not_isolated_of_shared filled different shared
        (isolated .empty _)
    · intro i j same
      exact not_isolated_of_dest filled same (isolated .empty _)
  · exact isolated_of_separate

end Replacement
