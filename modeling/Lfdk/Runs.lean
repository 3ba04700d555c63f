import Mathlib.Tactic

/-!
# Runs of a state-passing program

A run feeds a list of inputs to a step function, one after another. Each stage
of a run keeps the input, the state on both sides and the output, so that a
property of every stage is a statement about the list of stages.

An invariant is proved for one step and then holds at every stage. A property of
stages that is decided before each of them is decided before the run. Two programs
that agree on every step from related states return the same outputs over a
whole run and end in related states.
-/

namespace Lfdk.Runs

universe u v w x
variable {ι : Type u} {σ : Type v} {ρ : Type w} {τ : Type x}

/-- One step of a run with the states around it. -/
structure Stage (ι : Type u) (σ : Type v) (ρ : Type w) where
  input : ι
  before : σ
  output : ρ
  after : σ

/-- A stage of this step function. -/
def Stage.Of (step : ι → σ → ρ × σ) (stage : Stage ι σ ρ) : Prop :=
  step stage.input stage.before = (stage.output, stage.after)

/-- All stages of a run, in order. -/
def stages (step : ι → σ → ρ × σ) : List ι → σ → List (Stage ι σ ρ)
  | [], _ => []
  | input :: rest, state =>
      ⟨input, state, (step input state).1, (step input state).2⟩ ::
        stages step rest (step input state).2

/-- The outputs of a run, in order. -/
def outputs (step : ι → σ → ρ × σ) (inputs : List ι) (state : σ) : List ρ :=
  (stages step inputs state).map Stage.output

/-- The state a run ends in. -/
def final (step : ι → σ → ρ × σ) (inputs : List ι) (state : σ) : σ :=
  inputs.foldl (fun current input => (step input current).2) state

/-- A run without inputs has no stages, so anything holds of all of them. -/
@[simp] theorem stages_nil (step : ι → σ → ρ × σ) (state : σ) : stages step [] state = [] := rfl

/-- The first stage of a run is its first step, and the others are those of the run from there. -/
@[simp] theorem stages_cons (step : ι → σ → ρ × σ) (input : ι) (rest : List ι) (state : σ) :
    stages step (input :: rest) state =
      ⟨input, state, (step input state).1, (step input state).2⟩ ::
        stages step rest (step input state).2 := rfl

/-- A property that holds at the start and survives every step with an input of
the run holds before every stage, and every stage is a step of the program. -/
theorem stages_invariant (step : ι → σ → ρ × σ) (Holds : σ → Prop) (inputs : List ι) (state : σ)
    (start : Holds state)
    (preserved : ∀ input ∈ inputs, ∀ current, Holds current → Holds (step input current).2) :
    ∀ stage ∈ stages step inputs state,
      stage.input ∈ inputs ∧ Holds stage.before ∧ stage.Of step := by
  induction inputs generalizing state with
  | nil => simp
  | cons input rest inductionHypothesis =>
    intro stage member
    rcases List.mem_cons.mp member with rfl | later
    · exact ⟨List.mem_cons_self, start, rfl⟩
    · have next : Holds (step input state).2 := preserved input List.mem_cons_self state start
      obtain ⟨listed, held, ran⟩ := inductionHypothesis (step input state).2 next
        (fun other inside => preserved other (List.mem_cons_of_mem input inside)) stage later
      exact ⟨List.mem_cons_of_mem input listed, held, ran⟩

/-- A property that holds at the start and survives every step with an input of
the run holds where the run ends. -/
theorem final_invariant (step : ι → σ → ρ × σ) (Holds : σ → Prop) (inputs : List ι) (state : σ)
    (start : Holds state)
    (preserved : ∀ input ∈ inputs, ∀ current, Holds current → Holds (step input current).2) :
    Holds (final step inputs state) := by
  induction inputs generalizing state with
  | nil => exact start
  | cons input rest inductionHypothesis =>
    exact inductionHypothesis _ (preserved input List.mem_cons_self state start)
      (fun other inside => preserved other (List.mem_cons_of_mem input inside))

/-- Every stage is a step of the program, whatever the states are. -/
theorem stages_are_steps (step : ι → σ → ρ × σ) (inputs : List ι) (state : σ) :
    ∀ stage ∈ stages step inputs state, stage.input ∈ inputs ∧ stage.Of step := by
  intro stage member
  obtain ⟨listed, _, ran⟩ := stages_invariant step (fun _ => True) inputs state trivial
    (fun _ _ _ _ => trivial) stage member
  exact ⟨listed, ran⟩

/-- What every stage of a run shows can be decided before it. As long as all stages
so far were allowed, an invariant holds, and under it a stage is fine exactly
when it was allowed. -/
theorem stages_iff (step : ι → σ → ρ × σ) (Holds : σ → Prop) (Allowed : ι → σ → Prop)
    (Fine : Stage ι σ ρ → Prop) (inputs : List ι) (state : σ) (start : Holds state)
    (decided : ∀ input ∈ inputs, ∀ current, Holds current →
      (Fine ⟨input, current, (step input current).1, (step input current).2⟩ ↔
        Allowed input current))
    (preserved : ∀ input ∈ inputs, ∀ current, Holds current → Allowed input current →
      Holds (step input current).2) :
    (∀ stage ∈ stages step inputs state, Fine stage) ↔
      ∀ stage ∈ stages step inputs state, Allowed stage.input stage.before := by
  induction inputs generalizing state with
  | nil => simp
  | cons input rest inductionHypothesis =>
    rw [stages_cons, List.forall_mem_cons, List.forall_mem_cons,
      decided input List.mem_cons_self state start]
    refine and_congr_right fun allowed => ?_
    exact inductionHypothesis _ (preserved input List.mem_cons_self state start allowed)
      (fun other inside => decided other (List.mem_cons_of_mem input inside))
      (fun other inside => preserved other (List.mem_cons_of_mem input inside))

/-- Two programs that answer alike from related states, and stay related, answer
alike over every run. The induction carries the relation from stage to stage. -/
theorem simulation (step : ι → σ → ρ × σ) (other : ι → τ → ρ × τ) (Related : σ → τ → Prop)
    (inputs : List ι) (left : σ) (right : τ) (start : Related left right)
    (simulated : ∀ input ∈ inputs, ∀ state image, Related state image →
      (step input state).1 = (other input image).1 ∧
        Related (step input state).2 (other input image).2) :
    outputs step inputs left = outputs other inputs right ∧
      Related (final step inputs left) (final other inputs right) := by
  induction inputs generalizing left right with
  | nil => exact ⟨rfl, start⟩
  | cons input rest inductionHypothesis =>
    obtain ⟨same, related⟩ := simulated input List.mem_cons_self left right start
    obtain ⟨outputsSame, finalRelated⟩ := inductionHypothesis _ _ related
      (fun next inside => simulated next (List.mem_cons_of_mem input inside))
    refine ⟨?_, finalRelated⟩
    simp only [outputs, stages_cons, List.map_cons] at outputsSame ⊢
    rw [same, outputsSame]

end Lfdk.Runs
