import Mathlib.Data.List.Induction
import Mathlib.Order.SuccPred.Basic

/-!
# Registers with a floor

A register holds a value and the floor below which writes are refused; a write
raises the floor past its number.  If every number stands for one value, a
register that has taken any sequence of writes, with any repetitions, holds the
value of the greatest number.  At the greatest number of the order the floor
cannot pass the number and repetitions are taken again, to no effect.
-/

universe u v

namespace LastWrite

variable {σ : Type u} {β : Type v} [LinearOrder σ] [SuccOrder σ]

/-- Write a numbered value into a register. -/
def write (register entry : σ × β) : σ × β :=
  if entry.1 < register.1 then register else (Order.succ entry.1, entry.2)

/-- The register after a list of writes. -/
def writeAll (register : σ × β) (entries : List (σ × β)) : σ × β :=
  entries.foldl write register

@[simp] theorem writeAll_nil (register : σ × β) :
    writeAll register [] = register := rfl

theorem writeAll_append (register : σ × β) (done rest : List (σ × β)) :
    writeAll register (done ++ rest) =
      writeAll (writeAll register done) rest :=
  List.foldl_append

theorem writeAll_concat
    (register : σ × β) (done : List (σ × β)) (entry : σ × β) :
    writeAll register (done ++ [entry]) =
      write (writeAll register done) entry :=
  writeAll_append register done [entry]

/-- Writes below the floor leave a register as it is. -/
theorem writeAll_refused
    {register : σ × β} {entries : List (σ × β)}
    (below : ∀ entry ∈ entries, entry.1 < register.1) :
    writeAll register entries = register := by
  induction entries using List.reverseRecOn with
  | nil => rfl
  | append_singleton entries entry inductionHypothesis =>
      rw [writeAll_concat, inductionHypothesis fun other member =>
        below other (List.mem_append_left _ member), write,
        if_pos (below entry (by simp))]

/-- Of writes under one number only the first is taken. -/
theorem writeAll_first
    {register entry : σ × β} {entries : List (σ × β)}
    (taken : register.1 ≤ entry.1)
    (notMax : ¬IsMax entry.1)
    (same : ∀ other ∈ entries, other.1 = entry.1) :
    writeAll register (entry :: entries) =
      (Order.succ entry.1, entry.2) := by
  have written : write register entry = (Order.succ entry.1, entry.2) :=
    if_neg (not_lt.mpr taken)
  change writeAll (write register entry) entries = _
  rw [written]
  refine writeAll_refused fun other member => ?_
  rw [same other member]
  exact Order.lt_succ_of_not_isMax notMax

/-- Every number stands for one value. -/
def Consistent (entries : List (σ × β)) : Prop :=
  ∀ entry ∈ entries, ∀ other ∈ entries,
    entry.1 = other.1 → entry = other

/-- The floor is as low as the starting floor and the writes allow. -/
theorem floor_writeAll_le
    {register : σ × β} {entries : List (σ × β)} {bound : σ}
    (start : register.1 ≤ bound)
    (below : ∀ entry ∈ entries, Order.succ entry.1 ≤ bound) :
    (writeAll register entries).1 ≤ bound := by
  induction entries using List.reverseRecOn with
  | nil => exact start
  | append_singleton entries entry inductionHypothesis =>
      rw [writeAll_concat, write]
      split
      · exact inductionHypothesis fun other member =>
          below other (List.mem_append_left _ member)
      · exact below entry (by simp)

/-- A register that refuses nothing at the start ends with the value of the
greatest number. -/
theorem writeAll_eq_of_greatest
    {register : σ × β} {entries : List (σ × β)} {greatest : σ × β}
    (startsOpen : ∀ number, register.1 ≤ number)
    (consistent : Consistent entries)
    (member : greatest ∈ entries)
    (isGreatest : ∀ entry ∈ entries, entry.1 ≤ greatest.1) :
    writeAll register entries = (Order.succ greatest.1, greatest.2) := by
  induction entries using List.reverseRecOn with
  | nil => cases member
  | append_singleton entries entry inductionHypothesis =>
      have earlier : greatest ∈ entries →
          writeAll register entries =
            (Order.succ greatest.1, greatest.2) := fun before =>
        inductionHypothesis
          (fun left leftMember right rightMember =>
            consistent left (List.mem_append_left _ leftMember) right
              (List.mem_append_left _ rightMember))
          before
          (fun other otherMember =>
            isGreatest other (List.mem_append_left _ otherMember))
      rw [writeAll_concat, write]
      by_cases same : entry.1 = greatest.1
      · obtain rfl := consistent entry (by simp) greatest member same
        split
        case isTrue refused =>
          by_cases before : entry ∈ entries
          · exact earlier before
          · have notAbove : (writeAll register entries).1 ≤ entry.1 := by
              refine floor_writeAll_le (startsOpen _) fun other otherMember => ?_
              have known := List.mem_append_left [entry] otherMember
              refine Order.succ_le_of_lt
                (lt_of_le_of_ne (isGreatest other known) fun equal => ?_)
              exact before (consistent other known entry member equal ▸
                otherMember)
            exact absurd refused (not_lt.mpr notAbove)
        case isFalse => rfl
      · have before : greatest ∈ entries := by
          rcases List.mem_append.mp member with before | last
          · exact before
          · rw [List.mem_singleton] at last
            exact absurd (congrArg Prod.fst last.symm) same
        have lower := lt_of_le_of_ne (isGreatest entry (by simp)) same
        rw [earlier before, if_pos (lower.trans_le (Order.le_succ _))]

end LastWrite
