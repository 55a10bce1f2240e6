import CeMeet.Foundation.Transducer
import Mathlib.Data.List.Pairwise
import Mathlib.Order.SuccPred.Basic

/-!
# Counters that lose what was not kept

A counter gives out numbers, and every now and then is copied and the copy is
kept.  A loss puts the counter back to what was kept last.  The numbers given
out ascend exactly if every number is recollected whenever a later one is given
out: a copy taken after it was kept before the next loss, or a floor above it
has been adopted since.  Where what is kept may also be newer than known, this
is still enough.
-/

universe u v w

/-- A counter, the last copy of it, and the copy that was kept last. -/
@[ext] structure Ledger (α : Type u) where
  /-- The next number. -/
  current : α
  /-- The copy that would be kept. -/
  copied : α
  /-- What a loss goes back to. -/
  kept : α

namespace Ledger

/-- What happens to a counter. -/
inductive Event (α : Type u)
  | take
  | raise (floor : α)
  | copy
  | keep
  | lose
  | idle

section Run

variable {α : Type u} [LinearOrder α] [SuccOrder α]

/-- Let an event happen; the greatest number is never given out. -/
def step (ledger : Ledger α) : Event α → Option α × Ledger α
  | .take =>
      if Order.succ ledger.current = ledger.current then (none, ledger)
      else
        (some ledger.current,
          { ledger with current := Order.succ ledger.current })
  | .raise floor =>
      (none, { ledger with current := max ledger.current floor })
  | .copy => (none, { ledger with copied := ledger.current })
  | .keep => (none, { ledger with kept := ledger.copied })
  | .lose =>
      (none,
        { current := ledger.kept, copied := ledger.kept, kept := ledger.kept })
  | .idle => (none, ledger)

/-- Which of the three are past a number, after an event. -/
def recollect (number : α) (past : Ledger Bool) : Event α → Ledger Bool
  | .take | .idle => past
  | .raise floor =>
      { past with current := past.current || decide (number < floor) }
  | .copy => { past with copied := past.current }
  | .keep => { past with kept := past.copied }
  | .lose => { current := past.kept, copied := past.kept, kept := past.kept }

/-- A number that was just given out. -/
def justTaken : Ledger Bool :=
  { current := true, copied := false, kept := false }

/-- Whenever a number is given out, the counter is known to be past an earlier
one.  Each event comes with the number that it gives out. -/
def Recollects (number : α) (past : Ledger Bool) :
    List (Option α × Event α) → Prop
  | [] => True
  | (given, event) :: rest =>
      (given.isSome = true → past.current = true) ∧
        Recollects number (recollect number past event) rest

/-- Whenever a number is given out, all earlier ones are recollected. -/
def RecollectsAll : List (Option α × Event α) → Prop
  | [] => True
  | (none, _) :: rest => RecollectsAll rest
  | (some number, _) :: rest =>
      Recollects number justTaken rest ∧ RecollectsAll rest

instance decidableRecollects (number : α) (past : Ledger Bool) :
    (entries : List (Option α × Event α)) →
      Decidable (Recollects number past entries)
  | [] => inferInstanceAs (Decidable True)
  | (_, event) :: rest =>
      have := decidableRecollects number (recollect number past event) rest
      inferInstanceAs (Decidable (_ ∧ _))

instance decidableRecollectsAll :
    (entries : List (Option α × Event α)) → Decidable (RecollectsAll entries)
  | [] => inferInstanceAs (Decidable True)
  | (none, _) :: rest => decidableRecollectsAll rest
  | (some number, _) :: rest =>
      have := decidableRecollects number justTaken rest
      have := decidableRecollectsAll rest
      inferInstanceAs (Decidable (_ ∧ _))

/-- The numbers that are given out. -/
def numbers (entries : List (Option α × Event α)) : List α :=
  entries.filterMap Prod.fst

omit [LinearOrder α] [SuccOrder α] in
theorem numbers_cons (entry : Option α × Event α)
    (rest : List (Option α × Event α)) :
    numbers (entry :: rest) = entry.1.toList ++ numbers rest := by
  obtain ⟨_ | number, event⟩ := entry <;> rfl

omit [SuccOrder α] in
theorem recollectsAll_cons_iff {entry : Option α × Event α}
    {rest : List (Option α × Event α)} :
    RecollectsAll (entry :: rest) ↔
      (∀ number, entry.1 = some number → Recollects number justTaken rest) ∧
        RecollectsAll rest := by
  obtain ⟨_ | number, event⟩ := entry <;> simp [RecollectsAll]

omit [SuccOrder α] in
/-- The first numbers ascend if all that follow are greater. -/
theorem ascending_cons_iff {entry : Option α × Event α}
    {rest : List (Option α × Event α)} :
    (numbers (entry :: rest)).Pairwise
        (fun earlier later => earlier < later) ↔
      (∀ number, entry.1 = some number →
          ∀ later ∈ numbers rest, number < later) ∧
        (numbers rest).Pairwise fun earlier later => earlier < later := by
  obtain ⟨_ | number, event⟩ := entry <;> simp [numbers]

/-- The copies are not ahead of the counter. -/
structure Consistent (ledger : Ledger α) : Prop where
  /-- The last copy is not ahead. -/
  copied : ledger.copied ≤ ledger.current
  /-- What was kept is not ahead. -/
  kept : ledger.kept ≤ ledger.current

/-- Whatever is past a number is known to be. -/
structure Knows (number : α) (past : Ledger Bool) (ledger : Ledger α) :
    Prop where
  /-- The counter. -/
  current : past.current = true ↔ number < ledger.current
  /-- The last copy. -/
  copied : past.copied = true ↔ number < ledger.copied
  /-- What was kept. -/
  kept : past.kept = true ↔ number < ledger.kept

theorem step_take_eq_some_iff {ledger : Ledger α} {number : α} :
    (ledger.step .take).1 = some number ↔
      number = ledger.current ∧ ¬IsMax ledger.current := by
  rw [step]
  split
  case isTrue atTop =>
    exact iff_of_false nofun fun taken =>
      taken.2 (Order.succ_eq_iff_isMax.mp atTop)
  case isFalse available =>
    rw [Order.succ_eq_iff_isMax] at available
    rw [Option.some.injEq, eq_comm]
    exact (and_iff_left available).symm

/-- Only a taking event gives a number. -/
theorem eq_take_of_step {ledger : Ledger α} {event : Event α} {number : α}
    (given : (ledger.step event).1 = some number) : event = .take := by
  cases event <;> first | rfl | cases given

theorem Consistent.step {ledger : Ledger α} (consistent : Consistent ledger)
    (event : Event α) : Consistent (ledger.step event).2 := by
  cases event with
  | take =>
      rw [Ledger.step]
      split
      case isTrue => exact consistent
      case isFalse =>
        exact ⟨consistent.copied.trans (Order.le_succ _),
          consistent.kept.trans (Order.le_succ _)⟩
  | raise floor =>
      exact ⟨consistent.copied.trans (le_max_left _ _),
        consistent.kept.trans (le_max_left _ _)⟩
  | copy => exact ⟨le_rfl, consistent.kept⟩
  | keep => exact ⟨consistent.copied, consistent.copied⟩
  | lose => exact ⟨le_rfl, le_rfl⟩
  | idle => exact consistent

/-- The counter is past a number that it has just given out, and nothing else
is. -/
theorem knows_justTaken {ledger : Ledger α} {number : α}
    (consistent : Consistent ledger)
    (given : (ledger.step .take).1 = some number) :
    Knows number justTaken (ledger.step .take).2 := by
  obtain ⟨rfl, available⟩ := step_take_eq_some_iff.mp given
  rw [step, if_neg fun atTop =>
    available (Order.succ_eq_iff_isMax.mp atTop)]
  exact
    { current := iff_of_true rfl (Order.lt_succ_of_not_isMax available)
      copied := iff_of_false Bool.false_ne_true consistent.copied.not_gt
      kept := iff_of_false Bool.false_ne_true consistent.kept.not_gt }

/-- An event is followed, unless it gives out a number that is not past the one
in question. -/
theorem Knows.step {number : α} {past : Ledger Bool} {ledger : Ledger α}
    (knows : Knows number past ledger) {event : Event α}
    (ascends : ∀ given, (ledger.step event).1 = some given → number < given) :
    Knows number (recollect number past event) (ledger.step event).2 := by
  cases event with
  | take =>
      by_cases atTop : Order.succ ledger.current = ledger.current
      · rw [Ledger.step, if_pos atTop]
        exact knows
      · rw [Ledger.step, if_neg atTop] at ascends ⊢
        have isPast : number < ledger.current := ascends _ rfl
        exact
          { current := iff_of_true (knows.current.mpr isPast)
              (isPast.trans_le (Order.le_succ _))
            copied := knows.copied
            kept := knows.kept }
  | raise floor =>
      refine { current := ?_, copied := knows.copied, kept := knows.kept }
      simp [recollect, Ledger.step, knows.current]
  | copy =>
      exact
        { current := knows.current
          copied := knows.current
          kept := knows.kept }
  | keep =>
      exact
        { current := knows.current
          copied := knows.copied
          kept := knows.copied }
  | lose =>
      exact
        { current := knows.kept
          copied := knows.kept
          kept := knows.kept }
  | idle => exact knows

end Run

section Machine

variable {α : Type u} [LinearOrder α] [SuccOrder α] {σ : Type v} {ι : Type w}
variable {machine : σ → ι → (Option α × Event α) × σ} {observe : σ → Ledger α}

/-- A machine keeps a ledger if it tells for every input what happens to the
ledger and which number is given out. -/
def Keeps (machine : σ → ι → (Option α × Event α) × σ)
    (observe : σ → Ledger α) : Prop :=
  ∀ state input, (observe state).step (machine state input).1.2 =
    ((machine state input).1.1, observe (machine state input).2)

/-- A number that is given out is the one the counter stands at. -/
theorem Keeps.eq_current (keeps : Keeps machine observe) {state : σ}
    {input : ι} {number : α}
    (given : (machine state input).1.1 = some number) :
    number = (observe state).current := by
  have same := (congrArg Prod.fst (keeps state input)).trans given
  rw [eq_take_of_step same] at same
  exact (step_take_eq_some_iff.mp same).1

theorem Keeps.knows_justTaken (keeps : Keeps machine observe) {state : σ}
    (consistent : Consistent (observe state)) {input : ι} {number : α}
    (given : (machine state input).1.1 = some number) :
    Knows number justTaken (observe (machine state input).2) := by
  have follows := keeps state input
  have same := (congrArg Prod.fst follows).trans given
  rw [eq_take_of_step same] at follows same
  have knows := Ledger.knows_justTaken consistent same
  rwa [follows] at knows

/-- The numbers that follow one are greater exactly if it is recollected
whenever they are given out. -/
theorem Keeps.recollects_iff (keeps : Keeps machine observe) {state : σ}
    {number : α} {past : Ledger Bool}
    (knows : Knows number past (observe state)) (inputs : List ι) :
    (∀ later ∈ numbers (Transducer.outputs machine state inputs),
        number < later) ↔
      Recollects number past (Transducer.outputs machine state inputs) := by
  induction inputs generalizing state past with
  | nil => simp [numbers, Recollects]
  | cons input inputs inductionHypothesis =>
      have follows := keeps state input
      have asked : (∀ later, (machine state input).1.1 = some later →
            number < later) ↔
          ((machine state input).1.1.isSome = true → past.current = true) := by
        rw [knows.current, Option.isSome_iff_exists]
        constructor
        · rintro above ⟨later, given⟩
          rw [← keeps.eq_current given]
          exact above later given
        · intro above later given
          rw [keeps.eq_current given]
          exact above ⟨later, given⟩
      have known : (∀ later, (machine state input).1.1 = some later →
          number < later) →
            Knows number (recollect number past (machine state input).1.2)
              (observe (machine state input).2) := by
        intro above
        rw [show observe (machine state input).2 = _ from
          (congrArg Prod.snd follows).symm]
        exact knows.step fun later given =>
          above later ((congrArg Prod.fst follows).symm.trans given)
      rw [Transducer.outputs_cons, Recollects, ← asked, numbers_cons]
      simp only [List.mem_append, Option.mem_toList, or_imp, forall_and]
      exact and_congr_right fun above => inductionHypothesis (known above)

/-- The numbers that a run gives out ascend exactly if each of them is
recollected whenever a later one is given out. -/
theorem Keeps.ascending_iff (keeps : Keeps machine observe) {start : σ}
    (consistent : Consistent (observe start)) (inputs : List ι) :
    (numbers (Transducer.outputs machine start inputs)).Pairwise
        (fun earlier later => earlier < later) ↔
      RecollectsAll (Transducer.outputs machine start inputs) := by
  induction inputs generalizing start with
  | nil => simp [numbers, RecollectsAll]
  | cons input inputs inductionHypothesis =>
      have follows := keeps start input
      have later := consistent.step (machine start input).1.2
      rw [follows] at later
      rw [Transducer.outputs_cons, ascending_cons_iff, recollectsAll_cons_iff,
        inductionHypothesis later]
      refine and_congr_left' (forall₂_congr fun number given => ?_)
      exact keeps.recollects_iff (keeps.knows_justTaken consistent given) inputs

end Machine

end Ledger
