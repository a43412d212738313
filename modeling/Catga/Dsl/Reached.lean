import Catga.Dsl.Traces

/-!
# What a run reaches

A check of steps holds along a run when it holds at every step the run reaches, in the state it
reaches it in.  Two checks matter for checkpoints: that the limits of a record are kept, and that
no conditional directly follows another one inside a branch.
-/

namespace Catga.Dsl

open List

variable {σ : Type}

/-- Where a step stands. -/
structure Place where
  /-- How many branches are around it; a step of a flow has none. -/
  depth : Nat
  /-- Whether the step before it, in the same branch or flow, is a conditional. -/
  follows : Bool

variable {path : Path} {state : σ} {index : Nat} {env : Env} {hooks : Option (LifecycleHooks σ)}
  {check : Place → Step σ → σ → Bool} {merge : List σ → Action σ} {branches : List (DslFlow σ)}
  {steps : List (Step σ)}

mutual

/-- `check` holds at every step that a run of `step` reaches. -/
def Step.along (check : Place → Step σ → σ → Bool) (env : Env) (path : Path) (place : Place) :
    Step σ → σ → Bool
  | .action run, state => check place (.action run) state
  | .forEach operation, state => check place (.forEach operation) state
  | .ifElse condition thenBranch elseBranch, state =>
    check place (.ifElse condition thenBranch elseBranch) state &&
      if condition state then thenBranch.along check env (0 :: path) (place.depth + 1) state
      else elseBranch.along check env (1 :: path) (place.depth + 1) state
  | .matchOn selectBranch branches defaultBranch, state =>
    check place (.matchOn selectBranch branches defaultBranch) state &&
      match (selectBranch state).bind fun index =>
          (alongBranches check env path (place.depth + 1) 0 branches state)[index]? with
      | some held => held
      | none => defaultBranch.along check env (defaultBranchCode :: path) (place.depth + 1) state
  | .parallel branches merge, state =>
    check place (.parallel branches merge) state &&
      (alongBranches check env path 0 0 branches state).all id
  | .whenAny branches merge, state => check place (.whenAny branches merge) state

/-- `check` holds at every step that a run of `flow` reaches. -/
def DslFlow.along (check : Place → Step σ → σ → Bool) (env : Env) (path : Path) (depth : Nat) :
    DslFlow σ → σ → Bool
  | .mk steps hooks, state => alongSteps check env path hooks depth 0 false steps state

/-- `check` holds at every step that is reached from the one at `index` on. -/
def alongSteps (check : Place → Step σ → σ → Bool) (env : Env) (path : Path)
    (hooks : Option (LifecycleHooks σ)) (depth : Nat) : Nat → Bool → List (Step σ) → σ → Bool
  | _, _, [], _ => true
  | index, follows, step :: rest, state =>
    step.along check env (index :: path) ⟨depth, follows⟩ state &&
      let outcome := LifecycleHooks.afterStep hooks index (step.run env (index :: path) state)
      match outcome.result with
      | .ok _ =>
        alongSteps check env path hooks depth (index + 1) step.isConditional rest outcome.state
      | .error _ => true

/-- Whether `check` holds along each branch from the one at `index` on. -/
def alongBranches (check : Place → Step σ → σ → Bool) (env : Env) (path : Path) (depth : Nat) :
    Nat → List (DslFlow σ) → σ → List Bool
  | _, [], _ => []
  | index, branch :: rest, state =>
    branch.along check env (index :: path) depth state ::
      alongBranches check env path depth (index + 1) rest state

end

/-- The step is not a conditional that directly follows another one inside a branch. -/
@[simp] def Step.apart (place : Place) (step : Step σ) (_ : σ) : Bool :=
  !(decide (0 < place.depth) && place.follows && step.isConditional)

section

variable (env : Env) (flow : DslFlow σ) (state : σ)

/-- The run reaches no conditional that directly follows another one inside a branch. -/
def DslFlow.apart : Bool := flow.along Step.apart env [] 0 state

end

/-- The same effects and the same state, and both succeed or both fail. -/
structure Outcome.Similar {ε : Type} (one two : Outcome ε σ) : Prop where
  log : one.log = two.log
  state : one.state = two.state
  ok : one.result = .ok () ↔ two.result = .ok ()

section

variable {ε : Type} {one two : Outcome ε σ}

lemma Outcome.Similar.rfl {outcome : Outcome ε σ} : outcome.Similar outcome :=
  ⟨Eq.refl _, Eq.refl _, Iff.rfl⟩

lemma Outcome.Similar.after (similar : one.Similar two) {log} :
    (one.after log).Similar (two.after log) :=
  ⟨congrArg (log ++ ·) similar.log, similar.state, similar.ok⟩

lemma Outcome.Similar.afterStep (similar : one.Similar two) :
    (LifecycleHooks.afterStep hooks index one).Similar
      (LifecycleHooks.afterStep hooks index two) := by
  refine ⟨similar.log, similar.state, ?_⟩
  have failed : ∀ {outcome : Outcome ε σ} {error}, outcome.result = .error error →
      (LifecycleHooks.afterStep hooks index outcome).result ≠ .ok () := by
    intro outcome error result
    simp only [LifecycleHooks.afterStep, result]
    cases LifecycleHooks.notifyStepFailed hooks outcome.state index error <;>
      cases LifecycleHooks.notifyFlowFailed hooks outcome.state error <;>
      simp [bind, Except.bind]
  cases first : one.result with
  | ok =>
    have second := similar.ok.mp first
    simp [LifecycleHooks.afterStep, first, second, similar.state]
  | error error =>
    cases second : two.result with
    | ok => exact absurd (similar.ok.mpr second) (by simp [first])
    | error => exact iff_of_false (failed first) (failed second)

lemma Outcome.Similar.andThen (similar : one.Similar two) {next next'}
    (later : ∀ state, (next state).Similar (next' state)) :
    (one.andThen next).Similar (two.andThen next') := by
  cases first : one.result with
  | ok =>
    rw [Outcome.andThen_ok first, Outcome.andThen_ok (similar.ok.mp first), similar.log,
      similar.state]
    exact (later _).after
  | error error =>
    cases second : two.result with
    | ok => exact absurd (similar.ok.mpr second) (by simp [first])
    | error => rwa [Outcome.andThen_error first, Outcome.andThen_error second]

end

section

variable {ε : Type}

/-- The effects of all branches, one branch after the other as they complete. -/
def completedLog (env : Env) (path : Path) (outcomes : List (Outcome ε σ)) : List ε :=
  ((inCompletion env path outcomes).map (·.2)).flatMap (·.log)

variable {outcomes : List (Outcome ε σ)}

lemma mem_completed {outcome} :
    outcome ∈ (inCompletion env path outcomes).map (·.2) ↔ outcome ∈ outcomes := by
  simp only [mem_map, mem_inCompletion]
  constructor
  · rintro ⟨entry, found, rfl⟩
    exact mem_of_getElem? found
  · intro member
    obtain ⟨index, found⟩ := List.getElem?_of_mem member
    exact ⟨(index, outcome), found, rfl⟩

end

section

variable {ε : Type} {one two : List (Outcome ε σ)}

end

end Catga.Dsl
