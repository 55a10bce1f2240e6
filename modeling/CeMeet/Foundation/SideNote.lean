import Mathlib.Data.List.Induction
import Mathlib.Order.Lattice
import Mathlib.Tactic.Common

/-!
# Notes beside a register

A register takes every write that is not below its number, and a write may
carry a note, which stays until a later write carries another one.  A write
that comes after one of a greater number is refused with its note, so the note
that stays is that of the greatest number among those that come in time.
-/

universe u v

namespace SideNote

variable {σ : Type u} {ν : Type v} [LinearOrder σ]

/-- A numbered write, which may carry a note. -/
def write (held entry : σ × Option ν) : σ × Option ν :=
  if entry.1 < held.1 then held else (entry.1, entry.2.or held.2)

/-- What is held after a list of writes. -/
def writeAll (held : σ × Option ν) (entries : List (σ × Option ν)) :
    σ × Option ν :=
  entries.foldl write held

@[simp] theorem writeAll_nil (held : σ × Option ν) :
    writeAll held [] = held := rfl

theorem writeAll_append
    (held : σ × Option ν) (done rest : List (σ × Option ν)) :
    writeAll held (done ++ rest) = writeAll (writeAll held done) rest :=
  List.foldl_append

theorem writeAll_concat
    (held : σ × Option ν) (done : List (σ × Option ν))
    (entry : σ × Option ν) :
    writeAll held (done ++ [entry]) = write (writeAll held done) entry :=
  writeAll_append held done [entry]

/-- The number held is the greatest one written. -/
theorem number_writeAll_le_iff
    {held : σ × Option ν} {entries : List (σ × Option ν)} {bound : σ} :
    (writeAll held entries).1 ≤ bound ↔
      held.1 ≤ bound ∧ ∀ entry ∈ entries, entry.1 ≤ bound := by
  induction entries using List.reverseRecOn with
  | nil => simp
  | append_singleton entries entry inductionHypothesis =>
      rw [writeAll_concat, write, List.forall_mem_append,
        List.forall_mem_singleton, ← and_assoc, ← inductionHypothesis]
      split
      case isTrue refused =>
        exact (and_iff_left_of_imp fun below => refused.le.trans below).symm
      case isFalse taken =>
        exact (and_iff_right_of_imp fun below =>
          (not_lt.mp taken).trans below).symm

/-- A write that comes before all those of a greater number. -/
def Timely (entries : List (σ × Option ν)) (entry : σ × Option ν) : Prop :=
  ∃ done rest, entries = done ++ entry :: rest ∧
    ∀ earlier ∈ done, earlier.1 ≤ entry.1

theorem Timely.mem
    {entries : List (σ × Option ν)} {entry : σ × Option ν}
    (timely : Timely entries entry) : entry ∈ entries := by
  obtain ⟨done, rest, rfl, _⟩ := timely
  exact List.mem_append_right _ List.mem_cons_self

theorem timely_concat_iff
    {entries : List (σ × Option ν)} {last entry : σ × Option ν} :
    Timely (entries ++ [last]) entry ↔
      Timely entries entry ∨
        entry = last ∧ ∀ earlier ∈ entries, earlier.1 ≤ last.1 := by
  constructor
  · rintro ⟨done, rest, split, before⟩
    cases rest using List.reverseRecOn with
    | nil =>
        obtain ⟨rfl, same⟩ := List.append_inj' split rfl
        cases same
        exact Or.inr ⟨rfl, before⟩
    | append_singleton rest final =>
        rw [← List.cons_append, ← List.append_assoc] at split
        obtain ⟨rfl, _⟩ := List.append_inj' split rfl
        exact Or.inl ⟨done, rest, rfl, before⟩
  · rintro (⟨done, rest, rfl, before⟩ | ⟨rfl, before⟩)
    · exact ⟨done, rest ++ [last], by simp, before⟩
    · exact ⟨entries, [], rfl, before⟩

/-- A note of the greatest number among those that come in time. -/
def LastTimely (entries : List (σ × Option ν)) (number : σ) (note : ν) :
    Prop :=
  Timely entries (number, some note) ∧
    ∀ other otherNote, Timely entries (other, some otherNote) →
      other ≤ number

/-- A write without a note, or one that comes too late, changes no note. -/
theorem lastTimely_concat_iff
    {entries : List (σ × Option ν)} {last : σ × Option ν}
    (ignored : last.2 = none ∨ ¬∀ earlier ∈ entries, earlier.1 ≤ last.1)
    {number : σ} {note : ν} :
    LastTimely (entries ++ [last]) number note ↔
      LastTimely entries number note := by
  have timely : ∀ number note, Timely (entries ++ [last]) (number, some note) ↔
      Timely entries (number, some note) := by
    intro number note
    rw [timely_concat_iff]
    refine or_iff_left ?_
    rintro ⟨rfl, before⟩
    exact ignored.elim nofun fun late => late before
  simp only [LastTimely, timely]

/-- The note of a write that comes in time after all others is the last one. -/
theorem lastTimely_concat_of_noted
    {entries : List (σ × Option ν)} {last : σ × Option ν} {latest : ν}
    (consistent : ∀ entry ∈ entries ++ [last], ∀ other ∈ entries ++ [last],
      entry.1 = other.1 → entry = other)
    (before : ∀ earlier ∈ entries, earlier.1 ≤ last.1)
    (noted : last.2 = some latest)
    (note : ν) :
    (∃ number, LastTimely (entries ++ [last]) number note) ↔
      latest = note := by
  have timely : Timely (entries ++ [last]) (last.1, some latest) :=
    timely_concat_iff.mpr (Or.inr ⟨by rw [← noted], before⟩)
  have greatest : ∀ entry ∈ entries ++ [last], entry.1 ≤ last.1 := by
    intro entry member
    rcases List.mem_append.mp member with earlier | final
    · exact before entry earlier
    · rw [List.mem_singleton.mp final]
  constructor
  · rintro ⟨number, lastTimely, above⟩
    have sameNumber : number = last.1 :=
      le_antisymm (greatest _ lastTimely.mem) (above _ _ timely)
    have same := consistent _ lastTimely.mem _ timely.mem sameNumber
    exact (Option.some.inj (congrArg Prod.snd same)).symm
  · rintro rfl
    exact ⟨last.1, timely, fun _ _ other => greatest _ other.mem⟩

/-- A register that takes every number at the start ends with the note of the
greatest number that comes in time. -/
theorem note_writeAll_eq_some_iff
    {start : σ} (startsOpen : ∀ number, start ≤ number)
    {entries : List (σ × Option ν)}
    (consistent : ∀ entry ∈ entries, ∀ other ∈ entries,
      entry.1 = other.1 → entry = other)
    {note : ν} :
    (writeAll (start, none) entries).2 = some note ↔
      ∃ number, LastTimely entries number note := by
  induction entries using List.reverseRecOn with
  | nil =>
      refine iff_of_false (by simp) ?_
      rintro ⟨number, timely, _⟩
      cases timely.mem
  | append_singleton entries entry inductionHypothesis =>
      have earlier := inductionHypothesis fun left leftMember right rightMember =>
        consistent left (List.mem_append_left _ leftMember) right
          (List.mem_append_left _ rightMember)
      have inTime : (writeAll (start, none) entries).1 ≤ entry.1 ↔
          ∀ other ∈ entries, other.1 ≤ entry.1 := by
        rw [number_writeAll_le_iff, and_iff_right (startsOpen _)]
      rw [writeAll_concat, write]
      split
      case isTrue refused =>
        have late := mt inTime.mpr (not_le.mpr refused)
        simp only [earlier, lastTimely_concat_iff (Or.inr late)]
      case isFalse taken =>
        have before := inTime.mp (not_lt.mp taken)
        cases noted : entry.2 with
        | none =>
            simp only [Option.none_or, earlier,
              lastTimely_concat_iff (Or.inl noted)]
        | some latest =>
            rw [Option.some_or, Option.some_inj]
            exact (lastTimely_concat_of_noted consistent before noted note).symm

end SideNote
