import Mathlib.Data.List.Basic

/-!
# Runs of a deterministic transition

A component is a step function on an explicit state.  Everything the environment may choose
(arguments, clock readings, allocator results, the thread that moves next) is part of the input,
so a run is a list of inputs.  `Along` judges a condition on every input in the state in which it
is taken, and `Throughout` a property of every state that the run reaches.

The invariant rule turns a step lemma into a statement about runs.  The exactness rule does the
same for a step lemma that is an equivalence: the property holds throughout a run if and only if
every step meets the condition.  The simulation rule compares two components input by input.
-/

namespace HiFetch.Transition

variable {State Input Output Abstract : Type*} (step : State → Input → State)

/-- The state after all inputs have been taken in order. -/
def run (start : State) (inputs : List Input) : State :=
  inputs.foldl step start

@[simp]
theorem run_nil (start : State) : run step start [] = start := rfl

@[simp]
theorem run_cons (start : State) (input : Input) (rest : List Input) :
    run step start (input :: rest) = run step (step start input) rest := rfl

theorem run_append (start : State) (first second : List Input) :
    run step start (first ++ second) = run step (run step start first) second :=
  List.foldl_append

/-- Every input meets `condition` in the state in which it is taken. -/
def Along (condition : State → Input → Prop) : State → List Input → Prop
  | _, [] => True
  | state, input :: rest => condition state input ∧ Along condition (step state input) rest

@[simp]
theorem along_nil (condition : State → Input → Prop) (start : State) :
    Along step condition start [] := trivial

@[simp]
theorem along_cons (condition : State → Input → Prop) (start : State) (input : Input)
    (rest : List Input) :
    Along step condition start (input :: rest) ↔
      condition start input ∧ Along step condition (step start input) rest := Iff.rfl

theorem along_append (condition : State → Input → Prop) (start : State)
    (first second : List Input) :
    Along step condition start (first ++ second) ↔
      Along step condition start first ∧ Along step condition (run step start first) second := by
  induction first generalizing start with
  | nil => simp
  | cons input rest ih => rw [List.cons_append, along_cons, ih, along_cons, and_assoc, run_cons]

/-- `property` holds in the start state and in every state that the run reaches. -/
def Throughout (property : State → Prop) (start : State) (inputs : List Input) : Prop :=
  ∀ taken, taken <+: inputs → property (run step start taken)

theorem throughout_nil (property : State → Prop) (start : State) :
    Throughout step property start [] ↔ property start := by
  simp [Throughout]

theorem throughout_cons (property : State → Prop) (start : State) (input : Input)
    (rest : List Input) :
    Throughout step property start (input :: rest) ↔
      property start ∧ Throughout step property (step start input) rest := by
  constructor
  · intro h
    refine ⟨h [] List.nil_prefix, fun taken htaken ↦ ?_⟩
    exact h (input :: taken) ((List.prefix_cons_inj input).2 htaken)
  · rintro ⟨hstart, hrest⟩ taken htaken
    cases taken with
    | nil => exact hstart
    | cons head taken =>
      obtain ⟨rfl, htail⟩ := List.cons_prefix_cons.1 htaken
      exact hrest taken htail

variable {step}

theorem Throughout.last {property : State → Prop} {start : State} {inputs : List Input}
    (h : Throughout step property start inputs) : property (run step start inputs) :=
  h inputs List.prefix_rfl

/-- A condition that asks nothing of the state is a condition on each input alone. -/
theorem along_of_forall {condition : Input → Prop} {start : State} {inputs : List Input}
    (h : ∀ input ∈ inputs, condition input) :
    Along step (fun _ input ↦ condition input) start inputs := by
  induction inputs generalizing start with
  | nil => trivial
  | cons input rest ih =>
    constructor
    · exact h input List.mem_cons_self
    · apply ih
      intro other hother
      exact h other (List.mem_cons_of_mem _ hother)

theorem Along.and {first second : State → Input → Prop} {start : State} {inputs : List Input}
    (hfirst : Along step first start inputs) (hsecond : Along step second start inputs) :
    Along step (fun state input ↦ first state input ∧ second state input) start inputs := by
  induction inputs generalizing start with
  | nil => trivial
  | cons input rest ih => exact ⟨⟨hfirst.1, hsecond.1⟩, ih hfirst.2 hsecond.2⟩

/-- A property of every state reached is a condition on the state after each step. -/
theorem Throughout.along_next {property : State → Prop} {start : State} {inputs : List Input}
    (h : Throughout step property start inputs) :
    Along step (fun state input ↦ property (step state input)) start inputs := by
  induction inputs generalizing start with
  | nil => trivial
  | cons input rest ih =>
    have hrest := ((throughout_cons step property start input rest).1 h).2
    exact ⟨hrest [] List.nil_prefix, ih hrest⟩

/-- The invariant rule: what every allowed step preserves holds throughout the run. -/
theorem throughout_of_along {invariant : State → Prop} {condition : State → Input → Prop}
    (hstep : ∀ state input, invariant state → condition state input →
      invariant (step state input))
    {start : State} {inputs : List Input} (hstart : invariant start)
    (halong : Along step condition start inputs) :
    Throughout step invariant start inputs := by
  induction inputs generalizing start with
  | nil => exact (throughout_nil step invariant start).2 hstart
  | cons input rest ih =>
    exact (throughout_cons step invariant start input rest).2
      ⟨hstart, ih (hstep _ _ hstart halong.1) halong.2⟩

/-- The invariant rule for steps that need no condition. -/
theorem throughout_of_step {invariant : State → Prop}
    (hstep : ∀ state input, invariant state → invariant (step state input))
    {start : State} (inputs : List Input) (hstart : invariant start) :
    Throughout step invariant start inputs :=
  throughout_of_along (fun state input h _ ↦ hstep state input h) hstart
    (along_of_forall fun _ _ ↦ trivial)

/-- The invariant rule for what each step does: it is read off the invariant at every step. -/
theorem along_of_invariant {invariant : State → Prop} {condition conclusion : State → Input → Prop}
    (hstep : ∀ state input, invariant state → condition state input →
      invariant (step state input) ∧ conclusion state input)
    {start : State} {inputs : List Input} (hstart : invariant start)
    (halong : Along step condition start inputs) : Along step conclusion start inputs := by
  induction inputs generalizing start with
  | nil => trivial
  | cons input rest ih =>
    obtain ⟨hnext, hconclusion⟩ := hstep start input hstart halong.1
    exact ⟨hconclusion, ih hnext halong.2⟩

/-- Two conditions that the invariant makes equivalent hold along the same runs. -/
theorem along_iff_of_invariant {invariant : State → Prop}
    {allowed first second : State → Input → Prop}
    (hstep : ∀ state input, invariant state → allowed state input →
      invariant (step state input) ∧ (first state input ↔ second state input))
    {start : State} {inputs : List Input} (hstart : invariant start)
    (hallowed : Along step allowed start inputs) :
    Along step first start inputs ↔ Along step second start inputs := by
  induction inputs generalizing start with
  | nil => exact Iff.rfl
  | cons input rest ih =>
    obtain ⟨hnext, hiff⟩ := hstep start input hstart hallowed.1
    rw [along_cons, along_cons, hiff, ih hnext hallowed.2]

/-- Equivalent conditions hold along the same runs. -/
theorem along_congr {first second : State → Input → Prop}
    (h : ∀ state input, first state input ↔ second state input) {start : State}
    {inputs : List Input} : Along step first start inputs ↔ Along step second start inputs := by
  have hstep : ∀ state input, True → True → True ∧ (first state input ↔ second state input) :=
    fun state input _ _ ↦ ⟨trivial, h state input⟩
  exact along_iff_of_invariant hstep trivial (along_of_forall fun _ _ ↦ trivial)

/-- The exactness rule.  Where `base` and `property` hold, a step keeps `property` exactly when it
meets `condition`, and a step that meets it keeps `base`. -/
theorem throughout_iff_along_of_kept {base property : State → Prop}
    {allowed condition : State → Input → Prop}
    (hbase : ∀ state input, base state → property state → allowed state input →
      condition state input → base (step state input))
    (hexact : ∀ state input, base state → property state → allowed state input →
      (property (step state input) ↔ condition state input))
    {start : State} {inputs : List Input} (hstart : base start) (hproperty : property start)
    (hallowed : Along step allowed start inputs) :
    Throughout step property start inputs ↔ Along step condition start inputs := by
  induction inputs generalizing start with
  | nil => simp [throughout_nil, hproperty]
  | cons input rest ih =>
    rw [throughout_cons, along_cons]
    have hnext := hexact start input hstart hproperty hallowed.1
    constructor
    · rintro ⟨-, hrest⟩
      have hkept : property (step start input) := hrest [] List.nil_prefix
      have hcondition := hnext.1 hkept
      have hbaseNext := hbase _ _ hstart hproperty hallowed.1 hcondition
      exact ⟨hcondition, (ih hbaseNext hkept hallowed.2).1 hrest⟩
    · rintro ⟨hcondition, hrest⟩
      have hkept := hnext.2 hcondition
      have hbaseNext := hbase _ _ hstart hproperty hallowed.1 hcondition
      exact ⟨hproperty, (ih hbaseNext hkept hallowed.2).2 hrest⟩

/-- The exactness rule for a base that every allowed step keeps. -/
theorem throughout_iff_along {base property : State → Prop}
    {allowed condition : State → Input → Prop}
    (hbase : ∀ state input, base state → allowed state input → base (step state input))
    (hexact : ∀ state input, base state → property state → allowed state input →
      (property (step state input) ↔ condition state input))
    {start : State} {inputs : List Input} (hstart : base start) (hproperty : property start)
    (hallowed : Along step allowed start inputs) :
    Throughout step property start inputs ↔ Along step condition start inputs :=
  throughout_iff_along_of_kept (fun state input h _ hallow _ ↦ hbase state input h hallow) hexact
    hstart hproperty hallowed

/-- The exactness rule for a property that is its own base. -/
theorem throughout_iff_along_of_step {property : State → Prop}
    {allowed condition : State → Input → Prop}
    (hexact : ∀ state input, property state → allowed state input →
      (property (step state input) ↔ condition state input))
    {start : State} {inputs : List Input} (hproperty : property start)
    (hallowed : Along step allowed start inputs) :
    Throughout step property start inputs ↔ Along step condition start inputs := by
  have hbase : ∀ state input, (fun _ ↦ True) state → allowed state input →
      (fun _ : State ↦ True) (step state input) := fun _ _ _ _ ↦ trivial
  exact throughout_iff_along hbase (fun state input _ h hallow ↦ hexact state input h hallow)
    trivial hproperty hallowed

/-- The results of the steps of a run, in order. -/
def outputs (step : State → Input → State) (output : State → Input → Output) :
    State → List Input → List Output
  | _, [] => []
  | state, input :: rest => output state input :: outputs step output (step state input) rest

/-- The results depend on the inputs alone. -/
theorem outputs_eq_map_iff {output : State → Input → Output} {expected : Input → Output}
    {start : State} {inputs : List Input} :
    outputs step output start inputs = inputs.map expected ↔
      Along step (fun state input ↦ output state input = expected input) start inputs := by
  induction inputs generalizing start with
  | nil => simp [outputs]
  | cons input rest ih => rw [outputs, List.map_cons, List.cons.injEq, ih, along_cons]

/-- The simulation rule: related states take every allowed input to related states and give the
same result, so whole runs give the same results and end in related states. -/
theorem simulation {abstractStep : Abstract → Input → Abstract}
    {output : State → Input → Output} {abstractOutput : Abstract → Input → Output}
    {related : State → Abstract → Prop} {allowed : Input → Prop}
    (hstep : ∀ state abstract input, related state abstract → allowed input →
      related (step state input) (abstractStep abstract input) ∧
        output state input = abstractOutput abstract input)
    {start : State} {abstract : Abstract} {inputs : List Input}
    (hstart : related start abstract) (hallowed : ∀ input ∈ inputs, allowed input) :
    related (run step start inputs) (run abstractStep abstract inputs) ∧
      outputs step output start inputs = outputs abstractStep abstractOutput abstract inputs := by
  induction inputs generalizing start abstract with
  | nil => exact ⟨hstart, rfl⟩
  | cons input rest ih =>
    obtain ⟨hrelated, hresult⟩ := hstep start abstract input hstart
      (hallowed input List.mem_cons_self)
    obtain ⟨hend, hrest⟩ := ih hrelated fun other hother ↦
      hallowed other (List.mem_cons_of_mem _ hother)
    exact ⟨hend, by simp only [outputs, hresult, hrest]⟩

end HiFetch.Transition
