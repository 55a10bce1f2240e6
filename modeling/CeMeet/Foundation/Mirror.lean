import CeMeet.Foundation.Transducer
import Mathlib.Data.Finset.Basic

/-!
# Mirrors of a set

A consumer that cannot see a set can keep a copy of it from a log of changes.
This module has the changes that a log reports in bulk, the removal and the
toggling of a list of members, and the rule by which a copy that follows every
single step follows a run.
-/

universe u v w x

namespace Mirror

variable {κ : Type u} [DecidableEq κ]

/-- Remove every member of a list. -/
def remove (mirror : Finset κ) (removed : List κ) : Finset κ :=
  removed.foldl Finset.erase mirror

/-- Remove a member that is there, and add one that is not. -/
def toggle (mirror : Finset κ) (k : κ) : Finset κ :=
  if k ∈ mirror then mirror.erase k else insert k mirror

/-- Toggle the members of a list, one after the other. -/
def toggleAll (mirror : Finset κ) (toggled : List κ) : Finset κ :=
  toggled.foldl toggle mirror

@[simp] theorem mem_remove
    {mirror : Finset κ} {removed : List κ} {k : κ} :
    k ∈ remove mirror removed ↔ k ∈ mirror ∧ k ∉ removed := by
  induction removed generalizing mirror with
  | nil => simp [remove]
  | cons first removed inductionHypothesis =>
      change k ∈ remove (mirror.erase first) removed ↔ _
      rw [inductionHypothesis, Finset.mem_erase, List.mem_cons, not_or]
      tauto

theorem mem_toggle {mirror : Finset κ} {first k : κ} :
    k ∈ toggle mirror first ↔ (k ∈ mirror ↔ k ≠ first) := by
  unfold toggle
  by_cases same : k = first
  · subst same
    by_cases member : k ∈ mirror <;> simp [member]
  · by_cases member : first ∈ mirror <;> simp [member, same]

theorem mem_toggleAll_of_notMem
    {mirror : Finset κ} {toggled : List κ} {k : κ}
    (unlisted : k ∉ toggled) :
    k ∈ toggleAll mirror toggled ↔ k ∈ mirror := by
  induction toggled generalizing mirror with
  | nil => rfl
  | cons first toggled inductionHypothesis =>
      rw [List.mem_cons, not_or] at unlisted
      change k ∈ toggleAll (toggle mirror first) toggled ↔ _
      rw [inductionHypothesis unlisted.2, mem_toggle]
      exact iff_true_right unlisted.1

/-- Toggling distinct members swaps exactly those in and out. -/
theorem mem_toggleAll
    {mirror : Finset κ} {toggled : List κ}
    (distinct : toggled.Nodup)
    {k : κ} :
    k ∈ toggleAll mirror toggled ↔ (k ∈ mirror ↔ k ∉ toggled) := by
  induction toggled generalizing mirror with
  | nil => simp [toggleAll]
  | cons first toggled inductionHypothesis =>
      obtain ⟨fresh, distinct⟩ := List.nodup_cons.mp distinct
      change k ∈ toggleAll (toggle mirror first) toggled ↔ _
      rw [inductionHypothesis distinct, mem_toggle, List.mem_cons, not_or]
      by_cases same : k = first
      · subst same
        simp [fresh]
      · simp [same]

end Mirror

namespace Transducer

variable {σ : Type u} {ι : Type v} {ω : Type w} {υ : Type x}

/-- What is computed from the outputs of every single step of a run is computed
from the outputs of the run. -/
theorem view_final
    {step : σ → ι → ω × σ} {state : σ}
    (view : σ → υ) (follow : υ → ω → υ)
    (inputs : List ι)
    (follows : ∀ current, ∀ input ∈ inputs,
      view (step current input).2 =
        follow (view current) (step current input).1) :
    view (final step state inputs) =
      (outputs step state inputs).foldl follow (view state) := by
  induction inputs generalizing state with
  | nil => rfl
  | cons input inputs inductionHypothesis =>
      rw [final_cons, outputs_cons, List.foldl_cons,
        ← follows state input List.mem_cons_self]
      exact inductionHypothesis fun current other member =>
        follows current other (List.mem_cons_of_mem input member)

end Transducer
