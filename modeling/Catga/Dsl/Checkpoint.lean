import Catga.Dsl.Flow

/-!
# Checkpointed execution of a flow

`DslFlow::run_checkpointed` persists, after every completed unit of work, a record from which a
later call with the same flow identity resumes.  A call is a function of the record it finds: its
log lists what it does and persists, in order, so the store after any prefix of a call holds the
last record in it.
-/

namespace Catga.Dsl

open List

variable {σ : Type}

/-- One level of the path of branches to a checkpoint: which branch, and its next child. -/
structure CheckpointLevel where
  branch : Nat
  nextStep : Nat

mutual

/-- How far a unit of work has come. -/
inductive CheckpointWork (σ : Type) where
  | branch
  /-- Inside a `for_each`: the next item, and all items. -/
  | forEach (nextIndex : Nat) (items : List Item)
  | whenAny (winner : Nat) (state : σ)
  | parallel (branches : List (Option (BranchProgress σ)))

/-- How far a parallel branch has come. -/
inductive BranchProgress (σ : Type) where
  | completed (state : σ)
  | inProgress (stepIndex : Nat) (record : StepRecord σ)

/-- What is persisted for a step: the state after it, or a cursor into it. -/
inductive StepRecord (σ : Type) where
  | state (state : σ)
  | frame (levels : List CheckpointLevel) (state : σ) (work : CheckpointWork σ)

end

/-- What a call finds: the record of the latest step that has one, and the terminal state.  Records
of earlier steps stay in the store and are not read. -/
structure Progress (σ : Type) where
  latest : Option (Nat × StepRecord σ)
  terminal : Option σ

def Progress.empty : Progress σ := { latest := none, terminal := none }

/-- An entry of a log. -/
inductive Entry (σ : Type) where
  | ran (event : Event)
  /-- It persists the record of a step, which is the checkpoint of the actions and items at
  `covers`. -/
  | saved (stepIndex : Nat) (record : StepRecord σ) (covers : List Path)
  | finished (state : σ)

def Event.performed : Event → Option Path
  | .action path | .item path => some path
  | .evaluate _ => none

namespace Entry

def event : Entry σ → Option Event
  | .ran event => some event
  | .saved .. | .finished _ => none

def covers : Entry σ → List Path
  | .saved _ _ covers => covers
  | .ran _ | .finished _ => []

def apply (progress : Progress σ) : Entry σ → Progress σ
  | .ran _ => progress
  | .saved stepIndex record _ => { progress with latest := some (stepIndex, record) }
  | .finished state => { progress with terminal := some state }

end Entry

def events (log : List (Entry σ)) : List Event := log.filterMap Entry.event

def performed (log : List (Entry σ)) : List Path := (events log).filterMap Event.performed

def Progress.after (progress : Progress σ) (log : List (Entry σ)) : Progress σ :=
  log.foldl Entry.apply progress

/-- A run without checkpoints, as part of a call. -/
def Outcome.lift (outcome : Outcome Event σ) : Outcome (Entry σ) σ :=
  { outcome with log := outcome.log.map .ran }

def maxCheckpointPathDepth : Nat := 32

def maxU32 : Nat := 2 ^ 32 - 1

def encodeFrame (levels : List CheckpointLevel) (state : σ) (work : CheckpointWork σ) :
    CatgaResult (StepRecord σ) :=
  if maxCheckpointPathDepth < levels.length then
    .error ⟨.validation, "DSL checkpoint path exceeds the maximum depth"⟩
  else .ok (.frame levels state work)

def persistFrame (top : Nat) (levels : List CheckpointLevel) (work : CheckpointWork σ)
    (covers : List Path) (state : σ) : Outcome (Entry σ) σ :=
  match encodeFrame levels state work with
  | .error error => .fail state error
  | .ok record => { log := [.saved top record covers], state, result := .ok () }

def persistCompleted (top : Nat) (covers : List Path) (state : σ) : Outcome (Entry σ) σ :=
  { log := [.saved top (.state state) covers], state, result := .ok () }

/-- Largest number of items of a replayable `for_each`. -/
def maxCheckpointReplayableItems : Nat := 65536

/-- Largest size of an item, and of all items, of a replayable `for_each`. -/
def maxCheckpointReplayableBytes : Nat := 1024 * 1024

/-- Check items in order against the size limits, `total` bytes having been counted. -/
def validateItemBytes (total : Nat) : List Item → CatgaResult Unit
  | [] => .ok ()
  | item :: rest =>
    if maxCheckpointReplayableBytes < item.length then
      .error ⟨.validation, "replayable for_each item exceeds the checkpoint size limit"⟩
    else if maxCheckpointReplayableBytes < total + item.length then
      .error ⟨.validation, "replayable for_each items exceed the checkpoint size limit"⟩
    else validateItemBytes (total + item.length) rest

def validateReplayableForEachItems (items : List Item) : CatgaResult Unit :=
  if maxCheckpointReplayableItems < items.length then
    .error ⟨.validation, "replayable for_each item count exceeds the checkpoint limit"⟩
  else validateItemBytes 0 items

namespace ReplayableForEach

/-- Process the items from the one at `index` on, with a checkpoint after each. -/
def checkpointedItems (env : Env) (path : Path) (top : Nat) (levels : List CheckpointLevel)
    (operation : ReplayableForEach σ) (items : List Item) :
    Nat → List Item → σ → Outcome (Entry σ) σ
  | _, [], state => .done state
  | index, item :: rest, state =>
    ((env.perform (.item (index :: path)) (operation.item index item) state).lift.andThen
      (persistFrame top levels (.forEach (index + 1) items) [index :: path])).andThen
      (checkpointedItems env path top levels operation items (index + 1) rest)

variable (env : Env) (path : Path) (top : Nat) (levels : List CheckpointLevel)
  (operation : ReplayableForEach σ)

def resumeItems (nextIndex : Nat) (items : List Item) (state : σ) : Outcome (Entry σ) σ :=
  match validateReplayableForEachItems items with
  | .error error => .fail state error
  | .ok _ =>
    if items.length < nextIndex then
      .fail state ⟨.validation, "replayable for_each cursor is outside its saved items"⟩
    else
      operation.checkpointedItems env path top levels items nextIndex (items.drop nextIndex) state

def checkpointed (work : Option (CheckpointWork σ)) (state : σ) : Outcome (Entry σ) σ :=
  match work with
  | some (.forEach nextIndex items) =>
    operation.resumeItems env path top levels nextIndex items state
  | some _ => .fail state
      ⟨.validation, "DSL checkpoint cursor does not describe a replayable for_each step"⟩
  | none =>
    match operation.select state with
    | .error error => .fail state error
    | .ok items => operation.resumeItems env path top levels 0 items state

end ReplayableForEach

variable (env : Env) (path : Path)

def checkpointedWhenAny (top : Nat) (levels : List CheckpointLevel)
    (branches : List (DslFlow σ)) (merge : σ → Action σ) (work : Option (CheckpointWork σ))
    (state : σ) : Outcome (Entry σ) σ :=
  match work with
  | some (.whenAny winner winnerState) =>
    if winner < branches.length then .ofAction [] (merge winnerState state)
    else .fail state
      ⟨.validation, "when_any checkpoint winner index is outside its branches"⟩
  | some _ => .fail state
      ⟨.validation, "DSL checkpoint cursor does not describe a when_any step"⟩
  | none =>
    let raced := race env path
      (inCompletion env path
        (branches.mapIdx fun index branch => branch.runSubFlow env (index :: path) state)) none
    match raced.winner with
    | none => (raced.settle merge state).lift
    | some (winner, winnerState) =>
      (Outcome.after (raced.log.map .ran)
        (persistFrame top levels (.whenAny winner winnerState)
          (raced.log.filterMap Event.performed) state)).andThen
        fun state => .ofAction [] (merge winnerState state)

def BranchProgress.saved : Option (BranchProgress σ) → Progress σ
  | some (.inProgress stepIndex record) => { latest := some (stepIndex, record), terminal := none }
  | some (.completed _) | none => .empty

variable (saved : Option (BranchProgress σ))

/-- The record a parallel branch resumes from, unless it is completed. -/
def BranchProgress.pending : Option (Progress σ) :=
  match saved with
  | some (.completed _) => none
  | _ => some (BranchProgress.saved saved)

/-- The progress of a branch after its call has returned: completed, or at its last record.  The
branch's own terminal record is not kept. -/
def BranchProgress.record (outcome : Outcome (Entry σ) σ) : Option (BranchProgress σ) :=
  match outcome.result with
  | .ok _ => some (.completed outcome.state)
  | .error _ =>
    (((BranchProgress.saved saved).after outcome.log).latest).map fun latest =>
      .inProgress latest.1 latest.2

def BranchProgress.state : Option (BranchProgress σ) → Option σ
  | some (.completed state) => some state
  | some (.inProgress ..) | none => none

/-- What has come of the completed branches: the log, the progress of all branches and the first
error. -/
structure Joined (σ : Type) where
  log : List (Entry σ)
  saved : List (Option (BranchProgress σ))
  /-- The first error, of a branch or of persisting its progress. -/
  result : CatgaResult Unit

/-- Record branches as they complete.  Checkpoints inside a branch are persisted with its
progress. -/
def joinBranches (top : Nat) (levels : List CheckpointLevel) (state : σ) :
    List (Nat × Outcome (Entry σ) σ) → List (Option (BranchProgress σ)) → Joined σ
  | [], saved => { log := [], saved, result := .ok () }
  | (index, outcome) :: rest, saved =>
    let saved := saved.set index (BranchProgress.record (saved[index]?.join) outcome)
    let persisted :=
      persistFrame top levels (.parallel saved) (outcome.log.flatMap Entry.covers) state
    let joined := joinBranches top levels state rest saved
    { log := (events outcome.log).map .ran ++ persisted.log ++ joined.log
      saved := joined.saved
      result := firstError [outcome.result, persisted.result, joined.result] }

/-- The calls of the branches that are not completed, in the order in which they return. -/
def pendingCalls (outcomes : List (Option (Outcome (Entry σ) σ))) :
    List (Nat × Outcome (Entry σ) σ) :=
  (env.completions path outcomes.length).filterMap fun index =>
    outcomes[index]?.join.map fun outcome => (index, outcome)

/-- `run_checkpointed_parallel` with the branches that are not completed having run: `outcomes` has
none for a completed branch. -/
def joinCheckpointed (top : Nat) (levels : List CheckpointLevel)
    (merge : List σ → Action σ) (saved : List (Option (BranchProgress σ)))
    (outcomes : List (Option (Outcome (Entry σ) σ))) (state : σ) : Outcome (Entry σ) σ :=
  let joined := joinBranches top levels state (pendingCalls env path outcomes) saved
  match joined.result, joined.saved.mapM BranchProgress.state with
  | .error error, _ => { log := joined.log, state, result := .error error }
  | .ok _, none =>
    { log := joined.log, state
      result := .error ⟨.validation, "parallel checkpoint has an incomplete branch"⟩ }
  | .ok _, some states => .ofAction joined.log (merge states state)

/-- The progress of the branches a parallel step resumes from. -/
def savedBranches (count : Nat) : Option (CheckpointWork σ) →
    CatgaResult (List (Option (BranchProgress σ)))
  | none => .ok (replicate count none)
  | some (.parallel saved) =>
    if saved.length ≠ count then
      .error ⟨.validation, "parallel branch count does not match its saved checkpoint"⟩
    else .ok saved
  | some _ => .error ⟨.validation, "DSL checkpoint cursor does not describe a parallel step"⟩

def resumeBranches (count : Nat) (work : Option (CheckpointWork σ)) (state : σ)
    (run : List (Option (BranchProgress σ)) → Outcome (Entry σ) σ) : Outcome (Entry σ) σ :=
  if maxDslParallelBranches < count then
    .fail state ⟨.validation, "parallel branch count exceeds the checkpoint limit"⟩
  else
    match savedBranches count work with
    | .error error => .fail state error
    | .ok saved => run saved

/-- Where a branch stands: its own level, the levels below it, and the unit of work that a resumed
call has still to continue. -/
structure Position (σ : Type) where
  level : CheckpointLevel
  inner : List CheckpointLevel
  work : Option (CheckpointWork σ)

/-- The outcome of a branch or of one of its children, and where the branch stands after it. -/
structure Branched (σ : Type) where
  outcome : Outcome (Entry σ) σ
  position : Position σ

namespace Branched

def fail (position : Position σ) (state : σ) (error : CatgaError) : Branched σ :=
  { outcome := .fail state error, position }

def after (log : List (Entry σ)) (branched : Branched σ) : Branched σ :=
  { branched with outcome := branched.outcome.after log }

def andThen (branched : Branched σ) (next : Position σ → σ → Branched σ) : Branched σ :=
  match branched.outcome.result with
  | .ok _ => (next branched.position branched.outcome.state).after branched.outcome.log
  | .error _ => branched

end Branched

namespace Position

variable (position : Position σ)

/-- At the child at `index`, outside every inner branch and with nothing to continue. -/
def atChild (index : Nat) : Position σ :=
  { level := { position.level with nextStep := index }, inner := [], work := none }

def savedBranch : Option Nat := position.inner.head?.map (·.branch)

def nested (branch : Nat) : Position σ :=
  { level := { branch, nextStep := (position.inner.head?.map (·.nextStep)).getD 0 }
    inner := []
    work := position.work }

def afterBranch (index : Nat) (inner : Position σ) : Position σ :=
  { level := { position.level with nextStep := index }
    inner := inner.level :: inner.inner
    work := none }

end Position

variable (outer : List CheckpointLevel) (position : Position σ) (index : Nat)

/-- A unit of work that is a child of a branch: it is persisted under the branch's levels. -/
def Branched.unit
    (run : List CheckpointLevel → Option (CheckpointWork σ) → Outcome (Entry σ) σ) : Branched σ :=
  let position' := position.atChild index
  { outcome := run (outer ++ [position'.level]) position.work, position := position' }

def Branched.action (top : Nat) (outer : List CheckpointLevel)
    (index : Nat) (run : Action σ) (position : Position σ) (state : σ) : Branched σ :=
  let position' :=
    { position with level := { position.level with nextStep := index + 1 }, inner := [] }
  { outcome := (env.perform (.action path) run state).lift.andThen fun state =>
      if index = maxU32 then
        .fail state ⟨.validation, "DSL checkpoint child index exceeds u32"⟩
      else persistFrame top (outer ++ [position'.level]) .branch [path] state
    position := position' }

/-- The effect of selecting a branch: a branch that was saved is not selected again. -/
def selection (path : Path) (saved : Option Nat) : List (Entry σ) :=
  match saved with
  | some _ => []
  | none => [.ran (.evaluate path)]

/-- The code of the branch an `if` takes. -/
def ifBranch (saved : Option Nat) (condition : Bool) : Nat :=
  saved.getD (if condition then 0 else 1)

/-- The code of the branch a `match` takes. -/
def matchBranch (saved : Option Nat) (selected : Option Nat) : CatgaResult Nat :=
  match saved, selected with
  | some branch, _ => .ok branch
  | none, none => .ok defaultBranchCode
  | none, some index =>
    if maxU32 < index then
      .error ⟨.validation, "DSL checkpoint match branch index exceeds u32"⟩
    else .ok index

/-- Enter an inner branch, unless it is too deep, and go on after it. -/
def Branched.conditional (state : σ) (entries : List (Entry σ))
    (selected : CatgaResult (Branched σ)) : Branched σ :=
  .after entries <|
    match selected with
    | .error error => .fail position state error
    | .ok nested =>
      if maxCheckpointPathDepth ≤ outer.length + 1 then
        .fail position state ⟨.validation, "DSL checkpoint path exceeds the maximum depth"⟩
      else
        { outcome := nested.outcome, position := position.afterBranch index nested.position }

mutual

/-- One child of a branch, as `run_checkpointed_branch` executes it. -/
def Step.checkpointedChild (env : Env) (path : Path) (top : Nat) (outer : List CheckpointLevel)
    (index : Nat) : Step σ → Position σ → σ → Branched σ
  | .action run, position, state => .action env path top outer index run position state
  | .forEach operation, position, state =>
    .unit outer position index fun levels work =>
      operation.checkpointed env path top levels work state
  | .whenAny branches merge, position, state =>
    .unit outer position index fun levels work =>
      checkpointedWhenAny env path top levels branches merge work state
  | .parallel branches merge, position, state =>
    .unit outer position index fun levels work =>
      resumeBranches branches.length work state fun saved =>
        joinCheckpointed env path top levels merge saved
          (checkpointedBranches env path 0 branches saved state) state
  | .ifElse condition thenBranch elseBranch, position, state =>
    let levels := outer ++ [(position.atChild index).level]
    let branch := ifBranch position.savedBranch (condition state)
    .conditional outer position index state (selection path position.savedBranch) <|
      if branch = 0 then
        .ok (thenBranch.checkpointedBranch env (0 :: path) top levels (position.nested 0) state)
      else if branch = 1 then
        .ok (elseBranch.checkpointedBranch env (1 :: path) top levels (position.nested 1) state)
      else .error ⟨.validation, "DSL checkpoint selected an invalid if branch"⟩
  | .matchOn selectBranch branches defaultBranch, position, state =>
    let levels := outer ++ [(position.atChild index).level]
    .conditional outer position index state (selection path position.savedBranch) <|
      match matchBranch position.savedBranch (selectBranch state) with
      | .error error => .error error
      | .ok branch =>
        if branch = defaultBranchCode then
          .ok (defaultBranch.checkpointedBranch env (branch :: path) top levels
            (position.nested branch) state)
        else
          match (checkpointedArms env path top levels 0 branches position state)[branch]? with
          | some nested => .ok nested
          | none => .error ⟨.validation, "DSL checkpoint selected an invalid match branch"⟩

def DslFlow.checkpointedBranch (env : Env) (path : Path) (top : Nat)
    (outer : List CheckpointLevel) : DslFlow σ → Position σ → σ → Branched σ
  | .mk steps _, position, state =>
    if steps.length < position.level.nextStep then
      .fail position state
        ⟨.validation, "DSL checkpoint step index is outside its branch"⟩
    else
      checkpointedChildren env path top outer position.level.nextStep 0 steps position state

/-- The children of a branch from the one at `index` on, without those before `start`. -/
def checkpointedChildren (env : Env) (path : Path) (top : Nat) (outer : List CheckpointLevel)
    (start : Nat) : Nat → List (Step σ) → Position σ → σ → Branched σ
  | _, [], position, state => { outcome := .done state, position }
  | index, child :: rest, position, state =>
    if index < start then
      checkpointedChildren env path top outer start (index + 1) rest position state
    else if maxU32 < index then
      .fail position state ⟨.validation, "DSL checkpoint child index exceeds u32"⟩
    else
      (child.checkpointedChild env (index :: path) top outer index position state).andThen
        (checkpointedChildren env path top outer start (index + 1) rest)

/-- The branches of a `match`, each as if it were the selected one. -/
def checkpointedArms (env : Env) (path : Path) (top : Nat) (levels : List CheckpointLevel) :
    Nat → List (DslFlow σ) → Position σ → σ → List (Branched σ)
  | _, [], _, _ => []
  | index, branch :: rest, position, state =>
    branch.checkpointedBranch env (index :: path) top levels (position.nested index) state ::
      checkpointedArms env path top levels (index + 1) rest position state

/-- The branches of a parallel step that are not completed, each from its own record. -/
def checkpointedBranches (env : Env) (path : Path) :
    Nat → List (DslFlow σ) → List (Option (BranchProgress σ)) → σ →
      List (Option (Outcome (Entry σ) σ))
  | _, [], _, _ => []
  | index, branch :: rest, saved, state =>
    ((BranchProgress.pending saved.head?.join).map fun progress =>
        branch.checkpointed env (index :: path) progress state) ::
      checkpointedBranches env path (index + 1) rest saved.tail state

/-- A step of a flow, as `run_checkpointed_step` executes it, from a cursor into it. -/
def Step.checkpointed (env : Env) (path : Path) (top : Nat) :
    Step σ → Option (List CheckpointLevel × CheckpointWork σ) → σ → Outcome (Entry σ) σ
  | .action run, _, state => (env.perform (.action path) run state).lift
  | .forEach operation, cursor, state =>
    operation.checkpointed env path top ((cursor.map (·.1)).getD []) (cursor.map (·.2)) state
  | .whenAny branches merge, cursor, state =>
    checkpointedWhenAny env path top ((cursor.map (·.1)).getD []) branches merge
      (cursor.map (·.2)) state
  | .parallel branches merge, cursor, state =>
    resumeBranches branches.length (cursor.map (·.2)) state fun saved =>
      joinCheckpointed env path top ((cursor.map (·.1)).getD []) merge saved
        (checkpointedBranches env path 0 branches saved state) state
  | .ifElse condition thenBranch elseBranch, cursor, state =>
    let levels := (cursor.map (·.1)).getD []
    let saved := levels.head?.map (·.branch)
    let branch := ifBranch saved (condition state)
    let position : Position σ :=
      { level := levels.head?.getD { branch, nextStep := 0 }, inner := levels.tail
        work := cursor.map (·.2) }
    .after (selection path saved) <|
      if branch = 0 then
        (thenBranch.checkpointedBranch env (0 :: path) top [] position state).outcome
      else if branch = 1 then
        (elseBranch.checkpointedBranch env (1 :: path) top [] position state).outcome
      else .fail state ⟨.validation, "DSL checkpoint selected an invalid if branch"⟩
  | .matchOn selectBranch branches defaultBranch, cursor, state =>
    let levels := (cursor.map (·.1)).getD []
    let saved := levels.head?.map (·.branch)
    .after (selection path saved) <|
      match matchBranch saved (selectBranch state) with
      | .error error => .fail state error
      | .ok branch =>
        let position : Position σ :=
          { level := levels.head?.getD { branch, nextStep := 0 }, inner := levels.tail
            work := cursor.map (·.2) }
        if branch = defaultBranchCode then
          (defaultBranch.checkpointedBranch env (branch :: path) top [] position state).outcome
        else
          match (topArms env path top 0 branches position state)[branch]? with
          | some outcome => outcome
          | none => .fail state
              ⟨.validation, "DSL checkpoint selected an invalid match branch"⟩

/-- The branches of a `match` that is a step of a flow, each as if it were the selected one. -/
def topArms (env : Env) (path : Path) (top : Nat) :
    Nat → List (DslFlow σ) → Position σ → σ → List (Outcome (Entry σ) σ)
  | _, [], _, _ => []
  | index, branch :: rest, position, state =>
    (branch.checkpointedBranch env (index :: path) top [] position state).outcome ::
      topArms env path top (index + 1) rest position state

def DslFlow.checkpointed (env : Env) (path : Path) :
    DslFlow σ → Progress σ → σ → Outcome (Entry σ) σ
  | .mk steps hooks, progress, initial =>
    match progress.terminal with
    | some terminal => .done terminal
    | none =>
      -- The index of every step is checked before the first record is looked for.
      if maxU32 < steps.length then
        .fail initial (if steps.length = maxU32 + 1 then
            ⟨.validation, "DSL step index is reserved for the terminal record"⟩
          else ⟨.internal, "DSL step index exceeds u32"⟩)
      else
        let steps' := match progress.latest.filter (fun latest => latest.1 < steps.length) with
          | none => checkpointedSteps env path hooks 0 none 0 steps initial
          | some (index, .state state) =>
            checkpointedSteps env path hooks (index + 1) none 0 steps state
          | some (index, .frame levels state work) =>
            checkpointedSteps env path hooks index (some (levels, work)) 0 steps state
        steps'.andThen fun state =>
          (LifecycleHooks.afterFlow hooks state).after [.finished state]

/-- The steps of a flow from the one at `index` on, without those before `start`; the cursor is for
the step at `start`. -/
def checkpointedSteps (env : Env) (path : Path) (hooks : Option (LifecycleHooks σ)) (start : Nat)
    (cursor : Option (List CheckpointLevel × CheckpointWork σ)) :
    Nat → List (Step σ) → σ → Outcome (Entry σ) σ
  | _, [], state => .done state
  | index, step :: rest, state =>
    if index < start then checkpointedSteps env path hooks start cursor (index + 1) rest state
    else
      let outcome := step.checkpointed env (index :: path) index
        (if index = start then cursor else none) state
      ((LifecycleHooks.afterStep hooks index outcome).andThen
        (persistCompleted index (performed outcome.log))).andThen
        (checkpointedSteps env path hooks start cursor (index + 1) rest)

end

section

variable {top : Nat} {levels : List CheckpointLevel} {state : σ} {env : Env} {path : Path}
  {pending : List (Nat × Outcome (Entry σ) σ)} {saved : List (Option (BranchProgress σ))}
  {outcomes : List (Option (Outcome (Entry σ) σ))} {outcome : Outcome (Entry σ) σ} {index : Nat}

end

variable (branches : List (DslFlow σ)) {state : σ} {position : Position σ}
include branches

end Catga.Dsl
