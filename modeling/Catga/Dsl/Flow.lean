import Catga.Error
import Mathlib.Data.List.Dedup

/-!
# Typed flows and their in-process execution

A DSL flow is a tree of steps over an application state.  `DslFlow::run` executes it in one piece.
Closures are functions of the state; what a run leaves to its surroundings, which is the order in
which concurrent branches complete and which closures are interrupted, is an environment.
-/

namespace Catga.Dsl

open List

/-- Where a step is: its index, and the branches and steps around it, the innermost first. -/
abbrev Path := List Nat

abbrev Item := List UInt8

/-- What a closure does to the state, and what it returns. -/
abbrev Action (σ : Type) := σ → σ × CatgaResult Unit

structure ReplayableForEach (σ : Type) where
  /-- The items, chosen before the first one is processed. -/
  select : σ → CatgaResult (List Item)
  action : Item → Action σ
  /-- What is done about a failed item; without it the step fails. -/
  onError : Option (Nat → CatgaError → Action σ)

/-- Callbacks at the end of each step of a flow and of the flow itself. -/
structure LifecycleHooks (σ : Type) where
  stepSucceeded : Option (σ → Nat → CatgaResult Unit)
  stepFailed : Option (σ → Nat → CatgaError → CatgaResult Unit)
  flowSucceeded : Option (σ → CatgaResult Unit)
  flowFailed : Option (σ → CatgaError → CatgaResult Unit)

mutual

/-- A step of a flow. -/
inductive Step (σ : Type) where
  | action (run : Action σ)
  | forEach (operation : ReplayableForEach σ)
  | ifElse (condition : σ → Bool) (thenBranch elseBranch : DslFlow σ)
  | matchOn (selectBranch : σ → Option Nat) (branches : List (DslFlow σ))
      (defaultBranch : DslFlow σ)
  | parallel (branches : List (DslFlow σ)) (merge : List σ → Action σ)
  | whenAny (branches : List (DslFlow σ)) (merge : σ → Action σ)

/-- Steps in order, with the callbacks of the flow. -/
inductive DslFlow (σ : Type) where
  | mk (steps : List (Step σ)) (hooks : Option (LifecycleHooks σ))

end

variable {σ : Type}

namespace DslFlow

def steps : DslFlow σ → List (Step σ)
  | .mk steps _ => steps

def hooks : DslFlow σ → Option (LifecycleHooks σ)
  | .mk _ hooks => hooks

end DslFlow

namespace Step

@[simp] def isConditional : Step σ → Bool
  | .ifElse .. | .matchOn .. => true
  | .action _ | .forEach _ | .parallel .. | .whenAny .. => false

end Step

/-- An effect of a run that the application can observe. -/
inductive Event where
  | action (path : Path)
  | item (path : Path)
  | evaluate (path : Path)

def Event.path : Event → Path
  | .action path | .item path | .evaluate path => path

/-- What a run leaves to its surroundings. -/
structure Env where
  order : Path → List Nat
  /-- How many effects a branch has had when the race it was in is decided without it. -/
  cut : Path → Nat
  fault : Path → Option CatgaError

/-- The outcome of a run: its effects, the state it leaves, and its result. -/
structure Outcome (ε σ : Type) where
  log : List ε
  state : σ
  result : CatgaResult Unit

namespace Outcome

variable {ε : Type}

def done (state : σ) : Outcome ε σ := { log := [], state, result := .ok () }

def fail (state : σ) (error : CatgaError) : Outcome ε σ :=
  { log := [], state, result := .error error }

def after (log : List ε) (outcome : Outcome ε σ) : Outcome ε σ :=
  { outcome with log := log ++ outcome.log }

def andThen (outcome : Outcome ε σ) (next : σ → Outcome ε σ) : Outcome ε σ :=
  match outcome.result with
  | .ok _ => (next outcome.state).after outcome.log
  | .error _ => outcome

/-- What a caller sees: the final state or the error. -/
def value (outcome : Outcome ε σ) : CatgaResult σ := outcome.result.map fun _ => outcome.state

end Outcome

def Outcome.ofAction {ε : Type} (log : List ε) (ran : σ × CatgaResult Unit) : Outcome ε σ :=
  { log, state := ran.1, result := ran.2 }

namespace Env

def perform (env : Env) (event : Event) (run : Action σ) (state : σ) : Outcome Event σ :=
  match env.fault event.path with
  | some error => { log := [event], state, result := .error error }
  | none => .ofAction [event] (run state)

/-- The order in which all of `count` branches complete. -/
def completions (env : Env) (path : Path) (count : Nat) : List Nat :=
  let named := ((env.order path).filter (· < count)).dedup
  named ++ (List.range count).filter (· ∉ named)

end Env

namespace ReplayableForEach

/-- What is done for one item, its error handler included. -/
def item (operation : ReplayableForEach σ) (index : Nat) (item : Item) : Action σ := fun state =>
  match operation.action item state with
  | (state, .ok _) => (state, .ok ())
  | (state, .error error) =>
    match operation.onError with
    | none => (state, .error error)
    | some onError => onError index error state

def runItems (env : Env) (path : Path) (operation : ReplayableForEach σ) :
    Nat → List Item → σ → Outcome Event σ
  | _, [], state => .done state
  | index, item :: rest, state =>
    (env.perform (.item (index :: path)) (operation.item index item) state).andThen
      (runItems env path operation (index + 1) rest)

end ReplayableForEach

namespace LifecycleHooks

variable (hooks : Option (LifecycleHooks σ)) (state : σ)

def notifyStepSucceeded (index : Nat) : CatgaResult Unit :=
  match hooks.bind (·.stepSucceeded) with
  | some hook => hook state index
  | none => .ok ()

def notifyStepFailed (index : Nat) (error : CatgaError) : CatgaResult Unit :=
  match hooks.bind (·.stepFailed) with
  | some hook => hook state index error
  | none => .ok ()

def notifyFlowSucceeded : CatgaResult Unit :=
  match hooks.bind (·.flowSucceeded) with
  | some hook => hook state
  | none => .ok ()

/-- The callback after a failed step ended the flow. -/
def notifyFlowFailed (error : CatgaError) : CatgaResult Unit :=
  match hooks.bind (·.flowFailed) with
  | some hook => hook state error
  | none => .ok ()

/-- The callbacks after a step; the error of a callback replaces that of the step. -/
def afterStep {ε : Type} (hooks : Option (LifecycleHooks σ)) (index : Nat)
    (outcome : Outcome ε σ) : Outcome ε σ :=
  { outcome with
    result := match outcome.result with
      | .ok _ => notifyStepSucceeded hooks outcome.state index
      | .error error => do
          notifyStepFailed hooks outcome.state index error
          notifyFlowFailed hooks outcome.state error
          .error error }

end LifecycleHooks

def LifecycleHooks.afterFlow {ε : Type} (hooks : Option (LifecycleHooks σ)) (state : σ) :
    Outcome ε σ := { log := [], state, result := notifyFlowSucceeded hooks state }

/-- Largest number of branches of a concurrent step. -/
def maxDslParallelBranches : Nat := 64

/-- The code of a match's default branch, `u32::MAX`. -/
def defaultBranchCode : Nat := 2 ^ 32 - 1

def validateParallelBranchCount (count : Nat) : CatgaResult Unit :=
  if maxDslParallelBranches < count then
    .error ⟨.validation, "DSL parallel branch count exceeds the supported limit"⟩
  else .ok ()

/-- Which of several failed branches a parallel step reports: the first one declared, or the first
one to complete. -/
inductive Reporting where
  | declared
  | completed

def firstError : List (CatgaResult Unit) → CatgaResult Unit
  | [] => .ok ()
  | .ok _ :: rest => firstError rest
  | .error error :: _ => .error error

section

variable {ε : Type}

def inCompletion (env : Env) (path : Path) (outcomes : List (Outcome ε σ)) :
    List (Nat × Outcome ε σ) :=
  (env.completions path outcomes.length).filterMap fun index =>
    outcomes[index]?.map fun outcome => (index, outcome)

/-- All branches ran: report an error, or merge their states.  The effects of the branches are
listed one branch after the other, as they complete. -/
def join (reporting : Reporting) (env : Env) (path : Path) (merge : List σ → Action σ) (state : σ)
    (outcomes : List (Outcome ε σ)) : Outcome ε σ :=
  let completed := (inCompletion env path outcomes).map (·.2)
  let reported := match reporting with
    | .declared => outcomes
    | .completed => completed
  match firstError (reported.map (·.result)) with
  | .error error => { log := completed.flatMap (·.log), state, result := .error error }
  | .ok _ => .ofAction (completed.flatMap (·.log)) (merge (outcomes.map (·.state)) state)

/-- How a race of branches ended. -/
structure Race (ε σ : Type) where
  log : List ε
  winner : Option (Nat × σ)
  lastError : Option CatgaError

/-- Race branches given in the order of completion: the first success wins, and the branches that
have not completed by then are dropped where they are. -/
def race (env : Env) (path : Path) : List (Nat × Outcome ε σ) → Option CatgaError → Race ε σ
  | [], lastError => { log := [], winner := none, lastError }
  | (index, outcome) :: rest, lastError =>
    match outcome.result with
    | .ok _ =>
      { log := outcome.log ++
          rest.flatMap fun loser => loser.2.log.take (env.cut (loser.1 :: path))
        winner := some (index, outcome.state)
        lastError }
    | .error error =>
      let raced := race env path rest (some error)
      { raced with log := outcome.log ++ raced.log }

/-- Settle a race: merge the winner's state, or return the last error. -/
def Race.settle (raced : Race ε σ) (merge : σ → Action σ) (state : σ) : Outcome ε σ :=
  match raced.winner, raced.lastError with
  | some winner, _ => .ofAction raced.log (merge winner.2 state)
  | none, some error => { log := raced.log, state, result := .error error }
  | none, none => { log := raced.log, state, result := .ok () }

end

mutual

/-- `run_step`; a parallel step reports as `reporting` says. -/
def Step.runReporting (reporting : Reporting) (env : Env) (path : Path) :
    Step σ → σ → Outcome Event σ
  | .action run, state => env.perform (.action path) run state
  | .forEach operation, state =>
    match operation.select state with
    | .error error => .fail state error
    | .ok items => operation.runItems env path 0 items state
  | .ifElse condition thenBranch elseBranch, state =>
    .after [.evaluate path] <|
      if condition state then thenBranch.runReporting reporting env (0 :: path) state
      else elseBranch.runReporting reporting env (1 :: path) state
  | .matchOn selectBranch branches defaultBranch, state =>
    .after [.evaluate path] <|
      match (selectBranch state).bind fun index =>
          (runBranches reporting env path 0 branches state)[index]? with
      | some outcome => outcome
      | none => defaultBranch.runReporting reporting env (defaultBranchCode :: path) state
  | .parallel branches merge, state =>
    match validateParallelBranchCount branches.length with
    | .error error => .fail state error
    | .ok _ =>
      join reporting env path merge state (runBranches reporting env path 0 branches state)
  | .whenAny branches merge, state =>
    match validateParallelBranchCount branches.length with
    | .error error => .fail state error
    | .ok _ =>
      (race env path
        (inCompletion env path (runBranches .declared env path 0 branches state))
        none).settle merge state

/-- `run`: all steps, with the flow's callbacks. -/
def DslFlow.runReporting (reporting : Reporting) (env : Env) (path : Path) :
    DslFlow σ → σ → Outcome Event σ
  | .mk steps hooks, state =>
    (runSteps reporting env path hooks 0 steps state).andThen (LifecycleHooks.afterFlow hooks)

/-- The steps of a flow from the one at `index` on. -/
def runSteps (reporting : Reporting) (env : Env) (path : Path)
    (hooks : Option (LifecycleHooks σ)) : Nat → List (Step σ) → σ → Outcome Event σ
  | _, [], state => .done state
  | index, step :: rest, state =>
    (LifecycleHooks.afterStep hooks index
      (step.runReporting reporting env (index :: path) state)).andThen
      (runSteps reporting env path hooks (index + 1) rest)

/-- Every branch from the one at `index` on, each on its own copy of the state. -/
def runBranches (reporting : Reporting) (env : Env) (path : Path) :
    Nat → List (DslFlow σ) → σ → List (Outcome Event σ)
  | _, [], _ => []
  | index, branch :: rest, state =>
    branch.runReporting reporting env (index :: path) state ::
      runBranches reporting env path (index + 1) rest state

end

/-- `run_step`: errors of parallel branches are reported in the order of the branches. -/
def Step.run (env : Env) (path : Path) (step : Step σ) (state : σ) : Outcome Event σ :=
  step.runReporting .declared env path state

variable (env : Env) (path : Path) (flow : DslFlow σ) (state : σ)

def DslFlow.run : Outcome Event σ := flow.runReporting .declared env path state

/-- `run_sub_flow`: the steps of a flow without its callbacks. -/
def DslFlow.runSubFlow : Outcome Event σ := runSteps .declared env path none 0 flow.steps state

/-- The cases of an induction over steps and flows. -/
structure FlowCases (P : Step σ → Prop) (Q : DslFlow σ → Prop) : Prop where
  action : ∀ run, P (.action run)
  forEach : ∀ operation, P (.forEach operation)
  ifElse : ∀ condition thenBranch elseBranch, Q thenBranch → Q elseBranch →
    P (.ifElse condition thenBranch elseBranch)
  matchOn : ∀ selectBranch branches defaultBranch, (∀ branch ∈ branches, Q branch) →
    Q defaultBranch → P (.matchOn selectBranch branches defaultBranch)
  parallel : ∀ branches merge, (∀ branch ∈ branches, Q branch) → P (.parallel branches merge)
  whenAny : ∀ branches merge, (∀ branch ∈ branches, Q branch) → P (.whenAny branches merge)
  flow : ∀ steps hooks, (∀ step ∈ steps, P step) → Q (.mk steps hooks)

namespace FlowCases

variable {P : Step σ → Prop} {Q : DslFlow σ → Prop}

mutual

lemma step (cases : FlowCases P Q) : ∀ step, P step
  | .action run => cases.action run
  | .forEach operation => cases.forEach operation
  | .ifElse condition thenBranch elseBranch =>
    cases.ifElse condition thenBranch elseBranch (cases.all thenBranch) (cases.all elseBranch)
  | .matchOn selectBranch branches defaultBranch =>
    cases.matchOn selectBranch branches defaultBranch (cases.branches branches)
      (cases.all defaultBranch)
  | .parallel branches merge => cases.parallel branches merge (cases.branches branches)
  | .whenAny branches merge => cases.whenAny branches merge (cases.branches branches)

lemma all (cases : FlowCases P Q) : ∀ flow, Q flow
  | .mk steps hooks => cases.flow steps hooks (cases.steps steps)

lemma steps (cases : FlowCases P Q) : ∀ (steps : List (Step σ)), ∀ step ∈ steps, P step
  | [] => fun _ member => nomatch member
  | first :: rest => forall_mem_cons.mpr ⟨cases.step first, cases.steps rest⟩

lemma branches (cases : FlowCases P Q) :
    ∀ (branches : List (DslFlow σ)), ∀ branch ∈ branches, Q branch
  | [] => fun _ member => nomatch member
  | first :: rest => forall_mem_cons.mpr ⟨cases.all first, cases.branches rest⟩

end

end FlowCases

namespace Outcome

variable {ε : Type} {first : Outcome ε σ} {next : σ → Outcome ε σ}

lemma andThen_ok (ok : first.result = .ok ()) :
    first.andThen next = (next first.state).after first.log := by
  simp [andThen, ok]

lemma andThen_error {error} (failed : first.result = .error error) :
    first.andThen next = first := by
  simp [andThen, failed]

lemma mem_log_andThen {effect} (member : effect ∈ (first.andThen next).log) :
    effect ∈ first.log ∨ effect ∈ (next first.state).log := by
  cases result : first.result with
  | ok =>
    rw [andThen_ok result] at member
    exact mem_append.mp member
  | error =>
    rw [andThen_error result] at member
    exact .inl member

end Outcome

variable {env : Env} {path : Path}

lemma mem_completions {count index} :
    index ∈ env.completions path count ↔ index < count := by
  have inside : ∀ named ∈ ((env.order path).filter (· < count)).dedup, named < count :=
    fun named member => by simpa using (mem_filter.mp (mem_dedup.mp member)).2
  unfold Env.completions
  generalize ((env.order path).filter (· < count)).dedup = named at inside
  simp only [mem_append, mem_filter, mem_range, decide_eq_true_eq]
  constructor
  · rintro (here | ⟨below, -⟩)
    · exact inside index here
    · exact below
  · intro below
    by_cases here : index ∈ named
    · exact .inl here
    · exact .inr ⟨below, here⟩

lemma mem_inCompletion {ε : Type} {outcomes} {entry : Nat × Outcome ε σ} :
    entry ∈ inCompletion env path outcomes ↔ outcomes[entry.1]? = some entry.2 := by
  obtain ⟨index, outcome⟩ := entry
  simp only [inCompletion, mem_filterMap, Option.map_eq_some_iff, Prod.mk.injEq]
  constructor
  · rintro ⟨position, -, found, here, rfl, rfl⟩
    exact here
  · intro here
    refine ⟨index, mem_completions.mpr ?_, outcome, here, rfl, rfl⟩
    exact (List.getElem?_eq_some_iff.mp here).1

end Catga.Dsl
