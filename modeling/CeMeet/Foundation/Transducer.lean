import Mathlib.Data.List.Induction

/-!
# Runs of a state machine with outputs

A machine is given by its step function alone.  This module names the outputs
and the final state of a run, splits both at any point of the input, and states
the two rules by which a fact about single steps becomes a fact about runs.
-/

universe u v w t

namespace Transducer

variable {σ : Type u} {ι : Type v} {ω : Type w}

/-- The outputs of a run, one for each input, and the state it ends in. -/
def run (step : σ → ι → ω × σ) : σ → List ι → List ω × σ
  | state, [] => ([], state)
  | state, input :: inputs =>
      let (output, next) := step state input
      let (outputs, last) := run step next inputs
      (output :: outputs, last)

/-- The outputs of a run, in order. -/
def outputs (step : σ → ι → ω × σ) (state : σ) (inputs : List ι) : List ω :=
  (run step state inputs).1

/-- The state in which a run ends. -/
def final (step : σ → ι → ω × σ) (state : σ) (inputs : List ι) : σ :=
  (run step state inputs).2

variable {step : σ → ι → ω × σ} {state : σ}

@[simp] theorem outputs_nil : outputs step state [] = [] := rfl

@[simp] theorem final_nil : final step state [] = state := rfl

@[simp] theorem outputs_cons (input : ι) (inputs : List ι) :
    outputs step state (input :: inputs) =
      (step state input).1 :: outputs step (step state input).2 inputs := rfl

@[simp] theorem final_cons (input : ι) (inputs : List ι) :
    final step state (input :: inputs) =
      final step (step state input).2 inputs := rfl

theorem outputs_append (done rest : List ι) :
    outputs step state (done ++ rest) =
      outputs step state done ++ outputs step (final step state done) rest := by
  induction done generalizing state with
  | nil => rfl
  | cons input done inductionHypothesis =>
      simp [inductionHypothesis]

theorem final_append (done rest : List ι) :
    final step state (done ++ rest) =
      final step (final step state done) rest := by
  induction done generalizing state with
  | nil => rfl
  | cons input done inductionHypothesis =>
      simp [inductionHypothesis]

theorem outputs_concat (done : List ι) (input : ι) :
    outputs step state (done ++ [input]) =
      outputs step state done ++ [(step (final step state done) input).1] := by
  rw [outputs_append, outputs_cons, outputs_nil]

theorem final_concat (done : List ι) (input : ι) :
    final step state (done ++ [input]) =
      (step (final step state done) input).2 := by
  rw [final_append, final_cons, final_nil]

@[simp] theorem length_outputs (inputs : List ι) :
    (outputs step state inputs).length = inputs.length := by
  induction inputs generalizing state with
  | nil => rfl
  | cons input inputs inductionHypothesis =>
      simp [inductionHypothesis]

/-- The answer to an input is computed from the state before it. -/
theorem getElem?_outputs_concat (done : List ι) (input : ι) :
    (outputs step state (done ++ [input]))[done.length]? =
      some (step (final step state done) input).1 := by
  rw [outputs_concat, List.getElem?_append_right (by simp)]
  simp

/-- An output answers some input of the run. -/
theorem mem_outputs_iff {inputs : List ι} {output : ω} :
    output ∈ outputs step state inputs ↔
      ∃ done input rest, inputs = done ++ input :: rest ∧
        (step (final step state done) input).1 = output := by
  induction inputs generalizing state with
  | nil => simp
  | cons first inputs inductionHypothesis =>
      rw [outputs_cons, List.mem_cons, inductionHypothesis]
      constructor
      · rintro (rfl | ⟨done, input, rest, rfl, same⟩)
        · exact ⟨[], first, inputs, rfl, rfl⟩
        · exact ⟨first :: done, input, rest, rfl, same⟩
      · rintro ⟨done, input, rest, split, same⟩
        cases done with
        | nil =>
            cases split
            exact Or.inl same.symm
        | cons _ done =>
            cases split
            exact Or.inr ⟨done, input, rest, rfl, same⟩

/-- An invariant of every step is an invariant of every run. -/
theorem invariant {motive : σ → Prop}
    (start : motive state)
    (preserved : ∀ current input,
      motive current → motive (step current input).2)
    (inputs : List ι) :
    motive (final step state inputs) := by
  induction inputs generalizing state with
  | nil => exact start
  | cons input inputs inductionHypothesis =>
      exact inductionHypothesis (preserved state input start)

/-- Machines whose steps keep a relation between their states and give equal
outputs give equal outputs along every run, and stay related. -/
theorem bisimulation {τ : Type u} {other : τ → ι → ω × τ} {start : τ}
    {relates : σ → τ → Prop}
    (related : relates state start)
    (keeps : ∀ left right input, relates left right →
      (step left input).1 = (other right input).1 ∧
        relates (step left input).2 (other right input).2)
    (inputs : List ι) :
    outputs step state inputs = outputs other start inputs ∧
      relates (final step state inputs) (final other start inputs) := by
  induction inputs generalizing state start with
  | nil => exact ⟨rfl, related⟩
  | cons input inputs inductionHypothesis =>
      obtain ⟨sameOutput, relatedNext⟩ := keeps state start input related
      obtain ⟨sameOutputs, relatedLast⟩ := inductionHypothesis relatedNext
      exact ⟨by rw [outputs_cons, outputs_cons, sameOutput, sameOutputs],
        relatedLast⟩

/-- The inputs that another machine takes along a run; some inputs mean nothing
to it. -/
def translate {κ : Type t} (select : σ → ι → Option κ)
    (step : σ → ι → ω × σ) : σ → List ι → List κ
  | _, [] => []
  | state, input :: inputs =>
      (select state input).toList ++
        translate select step (step state input).2 inputs

/-- A machine that follows another one step by step, and rests where an input
means nothing to it, shows the same along every run. -/
theorem simulation {τ υ ρ : Type*} {κ : Type t}
    {part : τ → κ → υ × τ} {start : τ}
    (select : σ → ι → Option κ) (shows : ω → List ρ) (partShows : υ → List ρ)
    (relates : σ → τ → Prop) (related : relates state start) {inputs : List ι}
    (follows : ∀ input ∈ inputs, ∀ current other selected,
      relates current other → select current input = some selected →
      shows (step current input).1 = partShows (part other selected).1 ∧
        relates (step current input).2 (part other selected).2)
    (rests : ∀ input ∈ inputs, ∀ current other,
      relates current other → select current input = none →
      shows (step current input).1 = [] ∧
        relates (step current input).2 other) :
    (outputs step state inputs).flatMap shows =
        (outputs part start
          (translate select step state inputs)).flatMap partShows ∧
      relates (final step state inputs)
        (final part start (translate select step state inputs)) := by
  induction inputs generalizing state start with
  | nil => exact ⟨rfl, related⟩
  | cons input inputs inductionHypothesis =>
      have later := fun (next : σ) (other : τ) (relatedNext : relates next other) =>
        inductionHypothesis relatedNext
          (fun input member =>
            follows input (List.mem_cons_of_mem _ member))
          fun input member => rests input (List.mem_cons_of_mem _ member)
      rw [outputs_cons, List.flatMap_cons, final_cons, translate]
      cases selects : select state input with
      | none =>
          obtain ⟨silent, relatedNext⟩ :=
            rests input List.mem_cons_self state start related selects
          rw [silent]
          exact later _ _ relatedNext
      | some selected =>
          obtain ⟨same, relatedNext⟩ :=
            follows input List.mem_cons_self state start selected related selects
          obtain ⟨sameLater, relatedLast⟩ := later _ _ relatedNext
          rw [same, sameLater]
          exact ⟨rfl, relatedLast⟩

/-- The outputs at the inputs that some component answers. -/
def outputsAt {κ : Type t} (select : ι → Option κ)
    (step : σ → ι → ω × σ) (state : σ) (inputs : List ι) : List ω :=
  (inputs.zip (outputs step state inputs)).filterMap
    fun answered => (select answered.1).map fun _ => answered.2

/-- A component that selects every input answers them all. -/
theorem outputsAt_of_all {κ : Type t} {select : ι → Option κ}
    {inputs : List ι} (all : ∀ input ∈ inputs, (select input).isSome) :
    outputsAt select step state inputs = outputs step state inputs := by
  induction inputs generalizing state with
  | nil => rfl
  | cons input inputs inductionHypothesis =>
      obtain ⟨selected, selects⟩ :=
        Option.isSome_iff_exists.mp (all input List.mem_cons_self)
      rw [outputs_cons, ← inductionHypothesis fun other member =>
        all other (List.mem_cons_of_mem _ member)]
      simp [outputsAt, selects]

/-- A component that answers the inputs it selects and that no other input
touches runs as it would on its own inputs alone. -/
theorem projection {τ : Type u} {κ : Type t}
    (valid : σ → Prop) (observe : σ → τ)
    (select : ι → Option κ) (part : τ → κ → ω × τ)
    (start : valid state)
    (preserved : ∀ current input,
      valid current → valid (step current input).2)
    (own : ∀ current input selected,
      valid current → select input = some selected →
      (step current input).1 = (part (observe current) selected).1 ∧
        observe (step current input).2 =
          (part (observe current) selected).2)
    (foreign : ∀ current input, valid current → select input = none →
      observe (step current input).2 = observe current)
    (inputs : List ι) :
    outputsAt select step state inputs =
        outputs part (observe state) (inputs.filterMap select) ∧
      observe (final step state inputs) =
        final part (observe state) (inputs.filterMap select) := by
  induction inputs generalizing state with
  | nil => exact ⟨rfl, rfl⟩
  | cons input inputs inductionHypothesis =>
      obtain ⟨sameOutputs, sameFinal⟩ :=
        inductionHypothesis (preserved state input start)
      cases selects : select input with
      | none =>
          rw [foreign state input start selects] at sameOutputs sameFinal
          rw [List.filterMap_cons_none selects, final_cons, sameFinal,
            ← sameOutputs]
          simp [outputsAt, selects]
      | some selected =>
          obtain ⟨sameOutput, sameNext⟩ :=
            own state input selected start selects
          rw [sameNext] at sameOutputs sameFinal
          rw [List.filterMap_cons_some selects, final_cons, final_cons,
            sameFinal, outputs_cons, ← sameOutputs, ← sameOutput]
          simp [outputsAt, selects]

/-- A relation between what a machine has read, what it has answered and where
it stands holds along every run if one more step keeps it.  The next input may
be assumed to be the one that follows in the run under consideration. -/
theorem history_induction {motive : List ι → List ω → σ → Prop}
    (inputs : List ι)
    (start : motive [] [] state)
    (preserved : ∀ done input rest,
      inputs = done ++ input :: rest →
      motive done (outputs step state done) (final step state done) →
      motive (done ++ [input])
        (outputs step state done ++ [(step (final step state done) input).1])
        (step (final step state done) input).2) :
    motive inputs (outputs step state inputs) (final step state inputs) := by
  suffices prefixes : ∀ done rest, inputs = done ++ rest →
      motive done (outputs step state done) (final step state done) from
    prefixes inputs [] (List.append_nil inputs).symm
  intro done
  induction done using List.reverseRecOn with
  | nil => exact fun _ _ => start
  | append_singleton done input inductionHypothesis =>
      intro rest split
      rw [List.append_assoc, List.singleton_append] at split
      rw [outputs_concat, final_concat]
      exact preserved done input rest split
        (inductionHypothesis (input :: rest) split)

end Transducer
