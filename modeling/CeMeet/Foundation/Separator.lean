import Mathlib.Data.List.Basic
import Mathlib.Data.String.Basic
import Mathlib.Tactic.Common

/-!
# Texts behind a separator

A part without a separator, the separator and whatever stands on its other side
can be told apart again.  The decimal digits of a number are such a part for
every separator that is not a digit.
-/

namespace Separator

variable {α : Type*} {sep : α} {left right rest others : List α}

/-- The first separator ends a part that has none. -/
theorem append_cons_inj
    (leftFree : sep ∉ left) (rightFree : sep ∉ right) :
    left ++ sep :: rest = right ++ sep :: others ↔
      left = right ∧ rest = others := by
  induction left generalizing right with
  | nil =>
      cases right with
      | nil => simp
      | cons head right =>
          rw [List.mem_cons, not_or] at rightFree
          simp [rightFree.1]
  | cons head left inductionHypothesis =>
      rw [List.mem_cons, not_or] at leftFree
      cases right with
      | nil => simp [Ne.symm leftFree.1]
      | cons other right =>
          rw [List.mem_cons, not_or] at rightFree
          simp only [List.cons_append, List.cons.injEq,
            inductionHypothesis leftFree.2 rightFree.2, and_assoc]

/-- The last separator begins a part that has none. -/
theorem append_cons_inj_last
    (restFree : sep ∉ rest) (othersFree : sep ∉ others) :
    left ++ sep :: rest = right ++ sep :: others ↔
      left = right ∧ rest = others := by
  have reversed : ∀ front back : List α,
      (front ++ sep :: back).reverse =
        back.reverse ++ sep :: front.reverse := by
    intro front back
    simp
  rw [← List.reverse_inj, reversed, reversed,
    append_cons_inj (by simpa using restFree) (by simpa using othersFree),
    List.reverse_inj, List.reverse_inj, and_comm]

/-- Different numbers have different digits. -/
theorem toString_inj {left right : Nat} :
    toString left = toString right ↔ left = right := by
  refine ⟨fun same => ?_, fun same => by rw [same]⟩
  have digits := congrArg
    (fun text : String => Nat.ofDigitChars 10 text.toList 0) same
  simpa [toString] using digits

theorem notMem_toString {sep : Char} (notDigit : sep.isDigit = false)
    (number : Nat) : sep ∉ (toString number).toList := by
  intro member
  have digit : sep.isDigit = true := by
    rw [Nat.toString_eq_repr, Nat.toList_repr] at member
    exact Nat.isDigit_of_mem_toDigits (by decide) (by decide) member
  rw [notDigit] at digit
  cases digit

/-- A number, a separator and any text. -/
def numbered (sep : Char) (number : Nat) (text : String) : String :=
  toString number ++ .singleton sep ++ text

theorem numbered_inj
    {sep : Char} (notDigit : sep.isDigit = false)
    {left right : Nat} {text other : String} :
    numbered sep left text = numbered sep right other ↔
      left = right ∧ text = other := by
  have toList : ∀ number text, (numbered sep number text).toList =
      (toString number).toList ++ sep :: text.toList := by
    intro number text
    simp [numbered]
  rw [← String.toList_inj, toList, toList,
    append_cons_inj (notMem_toString notDigit left)
      (notMem_toString notDigit right),
    String.toList_inj, String.toList_inj, toString_inj]

end Separator
