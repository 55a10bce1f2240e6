import Mathlib.Data.Finset.Lattice.Fold
import Mathlib.Logic.Function.Basic

/-!
# Replicas that exchange joins

Any number of replicas hold a value of a join-semilattice.  A replica joins the
weight of an event it observes, publishes its value, and absorbs a value that
was published at any earlier time, by any replica, any number of times.  Every
replica remembers which events have reached it, directly or inside a published
value.  Whatever the order of the actions, a replica's value is the join of the
weights of exactly these events.
-/

universe u v w

/-- Replicas with the events that have reached them, and everything published so
far. -/
@[ext] structure Gossip (ι : Type u) (ε : Type v) (α : Type w) where
  /-- The value of each replica. -/
  value : ι → α
  /-- The events that have reached each replica. -/
  seen : ι → Finset ε
  /-- The published values, each with the events that had reached it. -/
  archive : List (α × Finset ε)

namespace Gossip

variable {ι : Type u} {ε : Type v} {α : Type w}

/-- What a replica does. -/
inductive Action (ι : Type u) (ε : Type v)
  | observe (replica : ι) (event : ε)
  | publish (replica : ι)
  | absorb (replica : ι) (index : Nat)
  | idle

section Values

variable [SemilatticeSup α] [OrderBot α]

/-- Replicas that no event has reached. -/
def start : Gossip ι ε α :=
  { value := fun _ => ⊥, seen := fun _ => ∅, archive := [] }

/-- Every value, held or published, is the join of the events that reached
it. -/
structure Summarizes (weight : ε → α) (gossip : Gossip ι ε α) : Prop where
  /-- The values held. -/
  value : ∀ replica, gossip.value replica = (gossip.seen replica).sup weight
  /-- The values published. -/
  archive : ∀ entry ∈ gossip.archive, entry.1 = entry.2.sup weight

theorem summarizes_start (weight : ε → α) :
    Summarizes weight (start : Gossip ι ε α) where
  value := fun _ => Finset.sup_empty.symm
  archive := by simp [start]

end Values

section Actions

variable [DecidableEq ι] [DecidableEq ε] [SemilatticeSup α]

/-- Perform one action. -/
def act (weight : ε → α) (gossip : Gossip ι ε α) :
    Action ι ε → Gossip ι ε α
  | .observe replica event =>
      { gossip with
        value := Function.update gossip.value replica
          (gossip.value replica ⊔ weight event)
        seen := Function.update gossip.seen replica
          (insert event (gossip.seen replica)) }
  | .publish replica =>
      { gossip with
        archive := gossip.archive ++
          [(gossip.value replica, gossip.seen replica)] }
  | .absorb replica index =>
      match gossip.archive[index]? with
      | some (value, seen) =>
          { gossip with
            value := Function.update gossip.value replica
              (gossip.value replica ⊔ value)
            seen := Function.update gossip.seen replica
              (gossip.seen replica ∪ seen) }
      | none => gossip
  | .idle => gossip

/-- Perform actions one after the other. -/
def run (weight : ε → α) (gossip : Gossip ι ε α)
    (actions : List (Action ι ε)) : Gossip ι ε α :=
  actions.foldl (act weight) gossip

/-- Every event that has reached a value satisfies a predicate. -/
structure Witnessed (observed : ε → Prop) (gossip : Gossip ι ε α) : Prop where
  /-- The values held. -/
  seen : ∀ replica, ∀ event ∈ gossip.seen replica, observed event
  /-- The values published. -/
  archive : ∀ entry ∈ gossip.archive, ∀ event ∈ entry.2, observed event

theorem Witnessed.act
    {weight : ε → α}
    {observed : ε → Prop}
    {gossip : Gossip ι ε α}
    (witnessed : Witnessed observed gossip)
    {action : Action ι ε}
    (observes : ∀ replica event, action = .observe replica event →
      observed event) :
    Witnessed observed (gossip.act weight action) := by
  cases action with
  | observe replica event =>
      refine ⟨fun other seen member => ?_, witnessed.archive⟩
      by_cases same : other = replica
      · subst same
        simp only [Gossip.act, Function.update_self, Finset.mem_insert] at member
        rcases member with rfl | member
        · exact observes other seen rfl
        · exact witnessed.seen other seen member
      · simp only [Gossip.act, Function.update_of_ne same] at member
        exact witnessed.seen other seen member
  | publish replica =>
      refine ⟨witnessed.seen, fun entry member => ?_⟩
      rcases List.mem_append.mp member with member | member
      · exact witnessed.archive entry member
      · rw [List.mem_singleton.mp member]
        exact witnessed.seen replica
  | absorb replica index =>
      unfold Gossip.act
      dsimp only
      split
      next value absorbed found =>
        refine ⟨fun other seen member => ?_, witnessed.archive⟩
        by_cases same : other = replica
        · subst same
          simp only [Function.update_self, Finset.mem_union] at member
          rcases member with member | member
          · exact witnessed.seen other seen member
          · exact witnessed.archive _ (List.mem_of_getElem? found) seen member
        · simp only [Function.update_of_ne same] at member
          exact witnessed.seen other seen member
      next => exact witnessed
  | idle => exact witnessed

end Actions

section Runs

variable [DecidableEq ι] [DecidableEq ε] [SemilatticeSup α] [OrderBot α]

/-- One action keeps the values joins. -/
theorem Summarizes.act
    {weight : ε → α}
    {gossip : Gossip ι ε α}
    (summarizes : Summarizes weight gossip)
    (action : Action ι ε) :
    Summarizes weight (gossip.act weight action) := by
  cases action with
  | observe replica event =>
      refine ⟨fun other => ?_, summarizes.archive⟩
      by_cases same : other = replica
      · subst same
        simp [Gossip.act, summarizes.value other, sup_comm]
      · simp [Gossip.act, same, summarizes.value other]
  | publish replica =>
      refine ⟨summarizes.value, fun entry member => ?_⟩
      rcases List.mem_append.mp member with member | member
      · exact summarizes.archive entry member
      · rw [List.mem_singleton.mp member]
        exact summarizes.value replica
  | absorb replica index =>
      unfold Gossip.act
      dsimp only
      split
      next value seen found =>
        have absorbed : value = seen.sup weight :=
          summarizes.archive _ (List.mem_of_getElem? found)
        refine ⟨fun other => ?_, summarizes.archive⟩
        by_cases same : other = replica
        · subst same
          simp [summarizes.value other, absorbed, Finset.sup_union]
        · simp [same, summarizes.value other]
      next => exact summarizes
  | idle => exact summarizes

/-- In every run the value of a replica is the join of the events that have
reached it. -/
theorem summarizes_run (weight : ε → α) (actions : List (Action ι ε)) :
    Summarizes weight ((start : Gossip ι ε α).run weight actions) := by
  induction actions using List.reverseRecOn with
  | nil => exact summarizes_start weight
  | append_singleton actions action inductionHypothesis =>
      rw [run, List.foldl_append]
      exact inductionHypothesis.act action

/-- Only events that some replica has observed reach a replica. -/
theorem witnessed_run
    (weight : ε → α)
    (observed : ε → Prop)
    (actions : List (Action ι ε))
    (observes : ∀ replica event, .observe replica event ∈ actions →
      observed event) :
    Witnessed observed ((start : Gossip ι ε α).run weight actions) := by
  induction actions using List.reverseRecOn with
  | nil => exact ⟨by simp [run, start], by simp [run, start]⟩
  | append_singleton actions action inductionHypothesis =>
      rw [run, List.foldl_append]
      refine (inductionHypothesis fun replica event member => observes replica
        event (List.mem_append_left _ member)).act ?_
      rintro replica event rfl
      exact observes replica event (by simp)

end Runs

end Gossip
