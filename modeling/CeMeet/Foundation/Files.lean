import Mathlib.Logic.Function.Basic

/-!
# A directory of files

Names lead to inodes, and inodes have contents.  An open file is an inode: what
is written to it stays with it when its name changes.  No two names lead to one
inode.
-/

universe u

/-- A directory of files. -/
structure Files (κ : Type u) where
  /-- The inode that a name leads to. -/
  inode : κ → Option Nat
  /-- The contents of an inode. -/
  contents : Nat → List UInt8
  /-- An inode from which on none is in use. -/
  fresh : Nat
  /-- The inodes in use. -/
  inode_lt : ∀ name node, inode name = some node → node < fresh
  /-- Names do not share an inode. -/
  unshared : ∀ left right node,
    inode left = some node → inode right = some node → left = right

namespace Files

variable {κ : Type u}

/-- The directory without files. -/
def empty : Files κ where
  inode _ := none
  contents _ := []
  fresh := 0
  inode_lt := nofun
  unshared := nofun

/-- The contents of the file of a name. -/
def read (files : Files κ) (name : κ) : Option (List UInt8) :=
  (files.inode name).map files.contents

/-- Replace the contents of an inode. -/
def store (files : Files κ) (node : Nat) (contents : List UInt8) : Files κ :=
  { files with contents := Function.update files.contents node contents }

/-- Contents with a piece written over them at an offset.  A hole is filled with
zeros. -/
def patch (contents : List UInt8) (offset : Nat) (piece : List UInt8) :
    List UInt8 :=
  contents.take offset ++ List.replicate (offset - contents.length) 0 ++
    piece ++ contents.drop (offset + piece.length)

/-- A piece at the end is appended. -/
theorem patch_at_end
    {contents : List UInt8} {offset : Nat}
    (atEnd : contents.length = offset)
    (piece : List UInt8) :
    patch contents offset piece = contents ++ piece := by
  subst atEnd
  simp [patch]

/-- Write a piece to an open file. -/
def write (files : Files κ) (node offset : Nat) (piece : List UInt8) :
    Files κ :=
  files.store node (patch (files.contents node) offset piece)

variable [DecidableEq κ]

/-- Give a name a new inode. -/
def link (files : Files κ) (name : κ) : Files κ where
  inode := Function.update files.inode name (some files.fresh)
  contents := files.contents
  fresh := files.fresh + 1
  inode_lt := by
    intro other node found
    by_cases same : other = name
    · rw [same, Function.update_self] at found
      cases found
      exact Nat.lt_succ_self _
    · rw [Function.update_of_ne same] at found
      exact Nat.lt_succ_of_lt (files.inode_lt other node found)
  unshared := by
    intro left right node leftFound rightFound
    by_cases leftNew : left = name <;> by_cases rightNew : right = name
    · rw [leftNew, rightNew]
    · rw [leftNew, Function.update_self] at leftFound
      rw [Function.update_of_ne rightNew] at rightFound
      cases leftFound
      exact absurd (files.inode_lt right _ rightFound) (Nat.lt_irrefl _)
    · rw [rightNew, Function.update_self] at rightFound
      rw [Function.update_of_ne leftNew] at leftFound
      cases rightFound
      exact absurd (files.inode_lt left _ leftFound) (Nat.lt_irrefl _)
    · rw [Function.update_of_ne leftNew] at leftFound
      rw [Function.update_of_ne rightNew] at rightFound
      exact files.unshared left right node leftFound rightFound

/-- Open a file for writing, creating it or truncating it. -/
def create (files : Files κ) (name : κ) : Nat × Files κ :=
  match files.inode name with
  | some node => (node, files.store node [])
  | none => (files.fresh, (files.link name).store files.fresh [])

/-- Let a name lead where another led, which then leads nowhere. -/
def move (files : Files κ) (source dest : κ) : Files κ where
  inode name :=
    if name = dest then files.inode source
    else if name = source then none
    else files.inode name
  contents := files.contents
  fresh := files.fresh
  inode_lt := by
    intro name node found
    split at found
    · exact files.inode_lt source node found
    · split at found
      · cases found
      · exact files.inode_lt name node found
  unshared := by
    intro left right node leftFound rightFound
    split at leftFound
    next leftDest =>
      split at rightFound
      next rightDest => rw [leftDest, rightDest]
      next =>
        split at rightFound
        next => cases rightFound
        next rightKept =>
          exact absurd
            (files.unshared right source node rightFound leftFound) rightKept
    next =>
      split at leftFound
      next => cases leftFound
      next leftKept =>
        split at rightFound
        next =>
          exact absurd
            (files.unshared left source node leftFound rightFound) leftKept
        next =>
          split at rightFound
          next => cases rightFound
          next => exact files.unshared left right node leftFound rightFound

/-- Rename a file over another one, unless it is gone. -/
def rename (files : Files κ) (source dest : κ) : Option (Files κ) :=
  if (files.inode source).isSome then some (files.move source dest) else none

/-! ## What operations leave alone -/

omit [DecidableEq κ] in
theorem read_store
    (files : Files κ) (node : Nat) (contents : List UInt8) (name : κ) :
    (files.store node contents).read name =
      if files.inode name = some node then some contents
      else files.read name := by
  unfold read store
  cases found : files.inode name with
  | none => simp
  | some other =>
      by_cases same : other = node
      · simp [same]
      · simp [same]

@[simp] theorem inode_link
    (files : Files κ) (name other : κ) :
    (files.link name).inode other =
      if other = name then some files.fresh else files.inode other :=
  Function.update_apply _ _ _ _

/-- A file that is created is open and empty, and no other file is touched. -/
theorem create_spec (files : Files κ) (name : κ) :
    (files.create name).2.inode name = some (files.create name).1 ∧
      (files.create name).2.read name = some [] ∧
      ∀ other ≠ name,
        (files.create name).2.inode other = files.inode other ∧
          (files.create name).2.read other = files.read other := by
  unfold create
  cases found : files.inode name with
  | some node =>
      refine ⟨found, by rw [read_store, if_pos found], ?_⟩
      intro other different
      refine ⟨rfl, ?_⟩
      rw [read_store, if_neg]
      exact fun shared => different (files.unshared other name node shared found)
  | none =>
      have linked : (files.link name).inode name = some files.fresh := by simp
      refine ⟨linked, by rw [read_store, if_pos linked], ?_⟩
      intro other different
      have kept : (files.link name).inode other = files.inode other := by
        simp [different]
      refine ⟨kept, ?_⟩
      rw [read_store, if_neg, read, kept]
      · rfl
      · intro shared
        rw [kept] at shared
        exact Nat.lt_irrefl _ (files.inode_lt other _ shared)

omit [DecidableEq κ] in
/-- A write reaches the file whose inode is open, and no other file. -/
theorem write_spec
    {files : Files κ} {name : κ} {node : Nat}
    (opened : files.inode name = some node)
    (offset : Nat) (piece : List UInt8) :
    (files.write node offset piece).read name =
        some (patch (files.contents node) offset piece) ∧
      ∀ other ≠ name,
        (files.write node offset piece).read other = files.read other := by
  unfold write
  refine ⟨by rw [read_store, if_pos opened], ?_⟩
  intro other different
  rw [read_store, if_neg]
  exact fun shared =>
    different (files.unshared other name node shared opened)

/-- A rename puts one file in the place of another, and touches no third. -/
theorem rename_spec
    {files : Files κ} {source : κ} {node : Nat}
    (opened : files.inode source = some node) (dest : κ) :
    ∃ renamed, files.rename source dest = some renamed ∧
      renamed.read dest = files.read source ∧
      ∀ other, other ≠ source → other ≠ dest →
        renamed.inode other = files.inode other ∧
          renamed.read other = files.read other := by
  refine ⟨files.move source dest, ?_, ?_, ?_⟩
  · rw [rename, opened]
    rfl
  · simp [read, move]
  · intro other notSource notDest
    simp [read, move, notSource, notDest]

end Files
