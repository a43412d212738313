import Catga.Flow.Scheduler
import Catga.Flow.Store
import Catga.Foundation.Threads

/-!
# The flow runtime

Every public method of `FlowRuntime` is a call that alternates local work with one operation on the
store or the scheduler.  A `Task` is the point a call has reached.  Clock readings, handler outcomes
and the order of calls are left open, so a run of the machine is any interleaving of any runtimes
over one store.
-/

namespace Catga.Flow

/-- A registered step: its name and whether it has a rollback action. -/
structure RegisteredStep where
  name : String
  compensation : Bool

/-- The steps of a flow. -/
structure FlowDefinition where
  name : String
  steps : List RegisteredStep
  /-- Whether a registration used an empty or a taken name. -/
  invalidStepNames : Bool

namespace FlowDefinition

def new (name : String) : FlowDefinition := { name, steps := [], invalidStepNames := false }

variable (definition : FlowDefinition)

def register (step : RegisteredStep) : FlowDefinition :=
  { definition with
    steps := definition.steps ++ [step]
    invalidStepNames := definition.invalidStepNames ||
      (step.name.isEmpty || definition.steps.any (·.name == step.name)) }

def firstStepName : Option String := definition.steps.head?.map (·.name)

/-- Check a definition before it creates or resumes durable state. -/
def validate : CatgaResult Unit :=
  if definition.name.isEmpty then
    .error ⟨.validation, "a flow definition requires a non-empty name"⟩
  else if definition.invalidStepNames then
    .error ⟨.validation, "flow definition step names must be non-empty and unique"⟩
  else .ok ()

def nextStepName (name : String) : Option String := do
  let index ← definition.steps.findIdx? (·.name == name)
  let step ← definition.steps[index + 1]?
  return step.name

def hasStep (name : String) : Bool := definition.steps.any (·.name == name)

def hasCompensation (name : String) : Bool :=
  (definition.steps.find? (·.name == name)).any (·.compensation)

end FlowDefinition

/-- What a step decides. -/
inductive FlowStepOutcome where
  | advance
  | goto (step : String)
  | suspendUntil (resumeAt : Nat)
  | wait (wait : WaitCondition)
  | complete
  | fail (error : CatgaError)

/-- One runtime: its definition, its owner name and its lease length. -/
structure FlowRuntime where
  definition : FlowDefinition
  owner : String
  /-- After how long without a heartbeat an owner is taken for dead. -/
  staleAfter : Nat

/-- What a successful store operation of a runtime was. -/
inductive Deed where
  /-- A claim of a flow that was in state `over`, by a runtime with lease length `staleAfter`. -/
  | claimed (previous : FlowState) (staleAfter : Nat)
  | beat
  | moved
  | waited
deriving DecidableEq

/-- A record of one successful store operation, kept for stating properties of whole runs. -/
structure Event where
  flowId : String
  owner : String
  time : Nat
  deed : Deed

/-- What runtimes share. -/
structure World where
  store : Store
  scheduler : MemoryFlowScheduler
  clock : Nat
  /-- Successful store operations so far, the latest first. -/
  history : List Event

def World.new : World := { store := .empty, scheduler := .new, clock := 0, history := [] }

/-- What a call returns. -/
inductive Reply where
  | state (state : FlowState)
  | count (count : Nat)
  | flag (flag : Bool)
deriving DecidableEq

/-- What is left of a reconciliation: flows to visit and identities recorded so far. -/
abbrev Sweep := Option (List String × Nat)

/-- Where a call stands. -/
inductive Task where
  | start (flowId : String) (data : List UInt8)
  /-- `resume_at`, about to read; `resume` reads the clock for itself. -/
  | resume (flowId : String) (at_ : Option Nat)
  | resumeScheduled (flowId stateId : String)
  | claim (continuation : FlowContinuation)
  | step (continuation : FlowContinuation)
  | transition (continuation : FlowContinuation) (nextStep : String)
  | suspend (continuation : FlowContinuation) (nextStep : String) (resumeAt : Nat)
  | schedule (continuation : FlowContinuation) (sweep : Sweep)
  | identify (continuation : FlowContinuation) (scheduleId : ScheduleId) (sweep : Sweep)
  | await (continuation : FlowContinuation) (nextStep : String) (wait : WaitCondition)
  | complete (continuation : FlowContinuation)
  | fail (continuation : FlowContinuation) (error : CatgaError)
  | undo (continuation : FlowContinuation)
  | undone (continuation : FlowContinuation)
  | giveUp (continuation : FlowContinuation)
  | current (flowId : String)
  | cancel (flowId : String)
  | cancelWrite (continuation : FlowContinuation)
  | cancelSchedule (scheduleId : ScheduleId) (state : FlowState)
  | record (flowId childId : String) (report : ChildReport)
  | recordWrite (flowId childId : String) (report : ChildReport) (version : Nat)
  /-- `record_wait_success`, about to read again after a lost fence. -/
  | recordReread (flowId : String)
  | recordJudge (flowId : String) (continuation : FlowContinuation)
  | launch (flowId : String) (launched retries : Nat)
  | launchClaim (continuation : FlowContinuation) (wait : WaitCondition) (launched retries : Nat)
  | launching (flowId childId : String) (launched : Nat)
  | launchFinish (flowId childId : String) (result : CatgaResult Unit) (launched retries : Nat)
  | launchSettle (continuation : FlowContinuation) (nextWait : WaitCondition) (childId : String)
      (result : CatgaResult Unit) (launched retries : Nat)
  | heartbeat (flowId : String) (version : Nat)
  | heartbeatWrite (flowId : String) (version : Nat)
  | reconcile (maxResults maxScan : Nat)
  /-- `reconcile_delayed_suspensions`, about to read the next summary's continuation. -/
  | reconcileRead (flowIds : List String) (reconciled : Nat)
  | returned (result : CatgaResult Reply)

namespace Task

def fails (error : CatgaError) : Task := .returned (.error error)

def yields (state : FlowState) : Task := .returned (.ok (.state state))

end Task

def flowMissing : CatgaError := ⟨.notFound, "flow does not exist"⟩

def maxChildLaunchCasRetries : Nat := 8

def maxFlowQueryResults : Nat := 1000

def maxFlowQueryScan : Nat := 10000

/-- `FlowQuery::new`: the limits a query accepts. -/
def checkLimits (maxResults maxScan : Nat) : CatgaResult Unit :=
  if maxResults = 0 ∨ maxScan = 0 ∨ maxScan < maxResults ∨
      maxFlowQueryResults < maxResults ∨ maxFlowQueryScan < maxScan then
    .error ⟨.validation, "flow query limits must be positive, ordered, and within supported bounds"⟩
  else .ok ()

namespace FlowContinuation

variable (continuation : FlowContinuation)

/-- The next version of a continuation after `change` to its state. -/
def revised (now : Nat) (change : FlowState → FlowState) : CatgaResult FlowContinuation := do
  let state ← (change continuation.state).nextVersion
  return continuation.withState state now

/-- One more step completed and suspended at `nextStep`, in the next version. -/
def steppedTo (nextStep : String) (now : Nat) : CatgaResult FlowContinuation := do
  let step ← continuation.state.completedSteps
  (continuation.atStep nextStep now).revised now fun state => (state.atStep step).suspended

/-- The child launches of the wait changed to `wait`, in the next version. -/
def relaunched (wait : WaitCondition) (now : Nat) : CatgaResult FlowContinuation :=
  (continuation.withWait wait now).revised now FlowState.suspended

end FlowContinuation

namespace FlowRuntime

variable (runtime : FlowRuntime) (continuation : FlowContinuation)

/-- Check that a continuation belongs to this runtime's definition. -/
def ensureDefinition : CatgaResult Unit := do
  continuation.validate
  runtime.definition.validate
  if continuation.state.flowType = runtime.definition.name then .ok ()
  else .error ⟨.validation, "flow continuation belongs to a different definition"⟩

/-- Record the finished step's rollback action, if it has one. -/
def recordStepCompensation (now : Nat) : CatgaResult FlowContinuation :=
  if runtime.definition.hasCompensation continuation.stepName then
    continuation.recordCompensation continuation.stepName now
  else .ok continuation

/-- Where `compensate` stands: undoing the latest step, or out of steps to undo. -/
def compensate (continuation : FlowContinuation) : Task :=
  match continuation.nextCompensation with
  | some _ => .undo continuation
  | none => .giveUp continuation

/-- What the body of `drive` does with the outcome of a step. -/
def afterStep (now : Nat) (result : CatgaResult FlowStepOutcome) : Task :=
  match result with
  | .error error => .fail continuation error
  | .ok .complete => .complete continuation
  | .ok (.fail error) => .fail continuation error
  | .ok outcome =>
    match runtime.recordStepCompensation continuation now with
    | .error error => .fails error
    | .ok compensated =>
      match outcome, runtime.definition.nextStepName continuation.stepName with
      | .advance, none => .complete continuation
      | .advance, some nextStep => .transition compensated nextStep
      | .goto nextStep, _ =>
        if runtime.definition.hasStep nextStep then .transition compensated nextStep
        else .fail compensated
          ⟨.notFound, "a flow transition references an unregistered step"⟩
      | .suspendUntil _, none =>
        .fail compensated ⟨.validation, "a delayed flow step requires a following step"⟩
      | .suspendUntil resumeAt, some nextStep => .suspend compensated nextStep resumeAt
      | .wait _, none =>
        .fail compensated ⟨.validation, "a waiting flow step requires a following step"⟩
      | .wait wait, some nextStep =>
        match continuation.state.completedSteps, wait.validate with
        | .error error, _ => .fails error
        | .ok _, .error error => .fail compensated error
        | .ok _, .ok _ => .await compensated nextStep wait
      | .complete, _ => .complete continuation
      | .fail error, _ => .fail continuation error

/-- The result of invoking a step's handler, when the handler itself would answer `result`. -/
def execute (result : CatgaResult FlowStepOutcome) : CatgaResult FlowStepOutcome :=
  if runtime.definition.hasStep continuation.stepName then result
  else .error ⟨.notFound, "flow continuation references an unregistered step"⟩

/-- The result of invoking the latest step's rollback, when it would answer `result`. -/
def executeCompensation (result : CatgaResult Unit) : CatgaResult Unit :=
  let name := continuation.nextCompensation.getD ""
  if !runtime.definition.hasStep name then
    .error ⟨.notFound, "flow compensation references an unregistered step"⟩
  else if !runtime.definition.hasCompensation name then
    .error ⟨.notFound, "flow compensation handler is no longer registered for a completed step"⟩
  else result

def reading (store : Store) (flowId : String) (found : FlowContinuation → Task) : Task :=
  match store.get flowId with
  | .error error => .fails error
  | .ok none => .fails flowMissing
  | .ok (some continuation) => found continuation

def ensuring (next : Task) : Task :=
  match runtime.ensureDefinition continuation with
  | .error error => .fails error
  | .ok _ => next

variable (runtime : FlowRuntime)

/-- `resume_at` after its read: what to do with the continuation at `now`. -/
def resumeRead (now : Nat) (continuation : FlowContinuation) : Task :=
  let state := continuation.state
  let isStaleOwned := state.status.isOwned && isStale state.heartbeat now runtime.staleAfter
  if state.status.isTerminal then .yields state
  else if state.status.isOwned && !isStaleOwned then .yields state
  else if state.status ≠ .suspended ∧ !isStaleOwned then
    .fails ⟨.validation, "flow is not resumable"⟩
  else
    let delay :=
      if !isStaleOwned && continuation.resumeAt.any (fun dueAt => decide (now < dueAt)) then
        .yields state
      else .claim continuation
    match if isStaleOwned then none else continuation.wait with
    | none => delay
    | some wait =>
      match evaluateWait wait now with
      | .pending => .yields state
      | .failed error => .fail continuation error
      | .ready => delay

/-- `cancel` after its read. -/
def cancelRead (continuation : FlowContinuation) : Task :=
  if continuation.state.status.isTerminal then .yields continuation.state
  else if continuation.state.status = .compensating then
    .fails ⟨.conflict, "a compensating flow cannot be cancelled before its rollback completes"⟩
  else .cancelWrite continuation

/-- `record_wait_success` and `record_wait_failure` after their read. -/
def recordRead (flowId childId : String) (report : ChildReport)
    (continuation : FlowContinuation) : Task :=
  if continuation.state.status.isTerminal then .yields continuation.state
  else runtime.ensuring continuation <|
    match continuation.wait with
    | none => .fails ⟨.validation, "flow is not waiting for child results"⟩
    | some wait =>
      if !wait.acceptsChild childId then
        .fails ⟨.validation, "child result does not belong to this flow wait"⟩
      else if !report.fits then
        .fails ⟨.validation, "flow child result payload exceeds the supported bound"⟩
      else .recordWrite flowId childId report continuation.state.version

/-- `claim_next_wait_child` after its read. -/
def launchRead (launched retries : Nat) (continuation : FlowContinuation) : Task :=
  runtime.ensuring continuation <|
    if continuation.state.status.isTerminal then .returned (.ok (.count launched))
    else match continuation.wait with
      | none => .returned (.ok (.count launched))
      | some wait =>
        match wait.validate with
        | .error error => .fails error
        | .ok _ => .launchClaim continuation wait launched retries

/-- `launch_waiting_children` after a launch was settled: the launcher's own error is reported
whatever became of the claim. -/
def afterLaunch (flowId : String) (result settled : CatgaResult Unit) (launched : Nat) : Task :=
  match result, settled with
  | .error error, _ => .fails error
  | .ok _, .error error => .fails error
  | .ok _, .ok _ => .launch flowId (launched + 1) maxChildLaunchCasRetries

/-- `finish_wait_child_claim` after its read. -/
def launchFinishRead (flowId childId : String)
    (result : CatgaResult Unit) (launched retries : Nat) (continuation : FlowContinuation) : Task :=
  match runtime.ensureDefinition continuation with
  | .error error => afterLaunch flowId result (.error error) launched
  | .ok _ =>
    if continuation.state.status.isTerminal then afterLaunch flowId result (.ok ()) launched
    else
      match continuation.wait.bind fun wait =>
          match result with
          | .ok _ => wait.markChildLaunched childId runtime.owner
          | .error _ => wait.releaseChildClaim childId runtime.owner with
      | none => afterLaunch flowId result (.ok ()) launched
      | some nextWait => .launchSettle continuation nextWait childId result launched retries

/-- What `reconcile_delayed_suspensions` passes over. -/
def passedOver (flowType : String) (continuation : FlowContinuation) : Prop :=
  continuation.state.status ≠ .suspended ∨ continuation.state.flowType ≠ flowType ∨
    continuation.scheduleId.isSome ∨ continuation.resumeAt.isNone
deriving Decidable

/-- `reconcile_delayed_suspensions` after the read of one summary's continuation. -/
def reconcileNext (rest : List String) (reconciled : Nat)
    (continuation : FlowContinuation) : Task :=
  if passedOver runtime.definition.name continuation then .reconcileRead rest reconciled
  else .schedule continuation (some (rest, reconciled))

/-- After an attempt to record a schedule identity: a step's own suspension stands whatever became
of the attempt, a reconciliation goes on to its next flow. -/
def afterIdentity (pending : FlowContinuation) (scheduled : Option FlowContinuation) :
    Sweep → Task
  | none => .yields (scheduled.getD pending).state
  | some (rest, reconciled) =>
    .reconcileRead rest (if scheduled.isSome then reconciled + 1 else reconciled)

/-- After a failed attempt to record a schedule identity. -/
def identityFailed (pending : FlowContinuation) (error : CatgaError) : Sweep → Task
  | none => .yields pending.state
  | some _ => .fails error

/-- The next point of a call whose next operation only reads. -/
def read (now : Nat) (store : Store) : Task → Option Task
  | .resume flowId at_ =>
    some <| reading store flowId fun continuation =>
      runtime.ensuring continuation (runtime.resumeRead (at_.getD now) continuation)
  | .resumeScheduled flowId stateId =>
    some <| reading store flowId fun continuation =>
      runtime.ensuring continuation <|
        if continuation.stepName ≠ stateId then
          .fails ⟨.conflict, "scheduled resume targets a stale flow state"⟩
        else .resume flowId none
  | .current flowId => some <| reading store flowId fun continuation => .yields continuation.state
  | .cancel flowId =>
    some <| reading store flowId fun continuation =>
      runtime.ensuring continuation (cancelRead continuation)
  | .record flowId childId report =>
    some <| reading store flowId (runtime.recordRead flowId childId report)
  | .recordReread flowId => some <| reading store flowId (.recordJudge flowId)
  | .recordJudge flowId continuation =>
    some <| if continuation.wait.any (fun wait => evaluateWait wait now = .ready) then
        .resume flowId none
      else .yields continuation.state
  | .launch flowId launched retries =>
    some <| match retries with
      | 0 => .fails ⟨.transient, "flow child launch claim did not stabilize"⟩
      | retries + 1 => reading store flowId (runtime.launchRead launched retries)
  | .launchFinish flowId childId result launched retries =>
    some <| match retries with
      | 0 => afterLaunch flowId result
          (.error ⟨.transient, "flow child launch completion did not stabilize"⟩) launched
      | retries + 1 =>
        match store.get flowId with
        | .error error => afterLaunch flowId result (.error error) launched
        | .ok none => afterLaunch flowId result (.error flowMissing) launched
        | .ok (some continuation) =>
          runtime.launchFinishRead flowId childId result launched retries continuation
  | .heartbeat flowId version =>
    some <| match store.get flowId with
      | .error error => .fails error
      | .ok none => .returned (.ok (.flag false))
      | .ok (some continuation) =>
        runtime.ensuring continuation (.heartbeatWrite flowId version)
  | .reconcileRead flowIds reconciled =>
    some <| match flowIds with
      | [] => .returned (.ok (.count reconciled))
      | flowId :: rest =>
        match store.get flowId with
        | .error error => .fails error
        | .ok none => .reconcileRead rest reconciled
        | .ok (some continuation) => runtime.reconcileNext rest reconciled continuation
  | _ => none

end FlowRuntime

/-- A conditional write a call is about to make: the continuation it starts from, whether the store
compares all of it or only its version, the revision to install, and where the call goes next. -/
structure Write where
  expected : FlowContinuation
  /-- Whether the store compares the whole record (`claim`) or its version (`update`). -/
  exact : Bool
  /-- The revision to install, unless building it fails. -/
  next : CatgaResult FlowContinuation
  deed : Deed
  won : FlowContinuation → Task
  lost : Task
  failed : CatgaError → Task

namespace Write

/-- A write that compares versions; its errors are returned. -/
def update (expected : FlowContinuation) (next : CatgaResult FlowContinuation)
    (won : FlowContinuation → Task) : Write :=
  { expected, exact := false, next, deed := .moved, won, lost := .current expected.state.id,
    failed := .fails }

def commit (write : Write) (store : Store) (next : FlowContinuation) :
    CatgaResult (Option Store) :=
  if write.exact then store.claim write.expected next
  else store.update write.expected.state.version next

def perform (write : Write) (owner : String) (world : World) : World × Task :=
  match write.next with
  | .error error => (world, write.failed error)
  | .ok next =>
    match write.commit world.store next with
    | .error error => (world, write.failed error)
    | .ok none => (world, write.lost)
    | .ok (some store) =>
      ({ world with
          store
          history := ⟨next.state.id, owner, world.clock, write.deed⟩ :: world.history },
        write.won next)

end Write

namespace FlowRuntime

def settle (continuation : FlowContinuation) : Task := .yields continuation.state

variable (runtime : FlowRuntime)

/-- The revision `claim` installs: owned by this runtime with a fresh heartbeat, in the phase the
continuation is in or running. -/
def claimed (continuation : FlowContinuation) (now : Nat) : CatgaResult FlowContinuation :=
  (continuation.ready now).revised now fun state =>
    let state := state.claimedBy runtime.owner now
    if continuation.state.status = .compensating then state.compensating else state.running

def drive (running : FlowContinuation) : Task :=
  if running.state.status = .compensating then compensate running else .step running

/-- The revision `fail` installs: compensating while completed steps remain, failed otherwise. -/
def failure (continuation : FlowContinuation) (error : CatgaError) (now : Nat) :
    CatgaResult FlowContinuation :=
  (continuation.ready now).revised now fun state =>
    if continuation.compensations.isEmpty then state.failed error
    else (state.withError error).compensating

/-- The write a call is about to make, if its next operation is one. -/
def write (now : Nat) : Task → Option Write
  | .claim continuation =>
    some { Write.update continuation (runtime.claimed continuation now) drive with
      exact := true, deed := .claimed continuation.state runtime.staleAfter }
  | .transition continuation nextStep =>
    some (.update continuation (continuation.steppedTo nextStep now) .claim)
  | .suspend continuation nextStep resumeAt =>
    some (.update continuation
      ((continuation.steppedTo nextStep now).map (·.delayedUntil resumeAt now))
      (.schedule · none))
  | .identify continuation scheduleId sweep =>
    some
      { Write.update continuation
          ((continuation.revised now id).map (·.withScheduleId scheduleId now))
          (fun scheduled => afterIdentity continuation (some scheduled) sweep) with
        lost := afterIdentity continuation none sweep
        failed := fun error => identityFailed continuation error sweep }
  | .await continuation nextStep wait =>
    some { Write.update continuation
        ((continuation.steppedTo nextStep now).map (·.withWait wait now)) settle with
      deed := .waited }
  | .complete continuation =>
    some (.update continuation
      (do
        let step ← continuation.state.completedSteps
        continuation.revised now (·.done step))
      settle)
  | .fail continuation error =>
    some (.update continuation (failure continuation error now) fun next =>
      if continuation.compensations.isEmpty then settle next else compensate next)
  | .undone continuation =>
    some (.update continuation
      ((continuation.completeCompensation now).revised now FlowState.compensating) compensate)
  | .giveUp continuation =>
    some (.update continuation
      (match continuation.state.error with
        | none => .error
            ⟨.internal, "a compensating flow is missing its original failure"⟩
        | some error => (continuation.ready now).revised now (·.failed error))
      settle)
  | .cancelWrite continuation =>
    some (.update continuation ((continuation.ready now).revised now FlowState.cancelled)
      fun cancelled =>
        match continuation.scheduleId with
        | some scheduleId => .cancelSchedule scheduleId cancelled.state
        | none => settle cancelled)
  | .launchClaim continuation wait launched retries =>
    match wait.claimNextChild runtime.owner now (max runtime.staleAfter 1) with
    | none => none
    | some (childId, claimedWait) =>
      some { Write.update continuation (continuation.relaunched claimedWait now)
          (fun next => .launching next.state.id childId launched) with
        exact := true
        lost := .launch continuation.state.id launched retries }
  | .launchSettle continuation nextWait childId result launched retries =>
    some { Write.update continuation (continuation.relaunched nextWait now)
        (fun next => afterLaunch next.state.id result (.ok ()) launched) with
      exact := true
      lost := .launchFinish continuation.state.id childId result launched retries
      failed := fun error =>
        afterLaunch continuation.state.id result (.error error) launched }
  | _ => none

/-- `start`: create the continuation, suspended at its first step. -/
def create (flowId : String) (data : List UInt8) (now : Nat) (world : World) : World × Task :=
  match (do
      runtime.definition.validate
      let firstStep ← match runtime.definition.firstStepName with
        | some name => (.ok name : CatgaResult String)
        | none =>
          .error ⟨.validation, "a flow definition requires at least one registered step"⟩
      let state := (FlowState.new flowId runtime.definition.name data runtime.owner now).suspended
      state.validate
      world.store.create (.new state firstStep now) : CatgaResult (Option Store)) with
  | .error error => (world, .fails error)
  | .ok none => (world, .fails ⟨.conflict, "a flow with this identity already exists"⟩)
  | .ok (some store) =>
    ({ world with
        store
        history := ⟨flowId, runtime.owner, world.clock, .moved⟩ :: world.history },
      .resume flowId none)

/-- Register a delayed suspension with the scheduler. -/
def schedule (continuation : FlowContinuation) (sweep : Sweep) (world : World) : World × Task :=
  match continuation.resumeAt with
  | none => (world, afterIdentity continuation none sweep)
  | some resumeAt =>
    let (scheduler, scheduled) :=
      world.scheduler.scheduleResume continuation.state.id continuation.stepName resumeAt
    ({ world with scheduler },
      match scheduled with
      | .error error => identityFailed continuation error sweep
      | .ok scheduleId => .identify continuation scheduleId sweep)

/-- Record a child's report; a lost fence is looked into for a success only. -/
def recordWrite (flowId childId : String) (report : ChildReport) (version : Nat)
    (world : World) : World × Task :=
  match world.store.recordWait flowId version childId report world.clock with
  | some store => ({ world with store }, .resume flowId none)
  | none =>
    (world, match report with
      | .success _ => .recordReread flowId
      | .failure _ => .current flowId)

def beat (flowId : String) (version : Nat) (world : World) (kept lost : Task) : World × Task :=
  match world.store.heartbeat flowId runtime.owner version world.clock with
  | some store =>
    ({ world with
        store
        history := ⟨flowId, runtime.owner, world.clock, .beat⟩ :: world.history }, kept)
  | none => (world, lost)

end FlowRuntime

/-- What a call does next: its own next operation, or an event of what it is waiting for. -/
inductive Pick where
  | go
  | heartbeat
  | outcome (result : CatgaResult FlowStepOutcome)
  | rolledBack (result : CatgaResult Unit)
  | launched (result : CatgaResult Unit)
  | summaries (flowIds : List String)

namespace FlowRuntime

/-- One atomic action of a call, with `now` the reading of the clock it made since its last. -/
def act (runtime : FlowRuntime) (now : Nat) (world : World) : Pick → Task → Option (World × Task)
  | .go, .start flowId data => some (runtime.create flowId data now world)
  | .go, .schedule continuation sweep => some (schedule continuation sweep world)
  | .go, .recordWrite flowId childId report version =>
    some (recordWrite flowId childId report version world)
  | .go, .heartbeatWrite flowId version =>
    some (runtime.beat flowId version world (.returned (.ok (.flag true)))
      (.returned (.ok (.flag false))))
  | .go, .cancelSchedule scheduleId state =>
    some ({ world with
      scheduler := (world.scheduler.cancelResume scheduleId world.clock).1 }, .yields state)
  | .go, .launchClaim continuation wait launched retries =>
    some <| match runtime.write now (.launchClaim continuation wait launched retries) with
      | none => (world, .returned (.ok (.count launched)))
      | some write => write.perform runtime.owner world
  | .go, task =>
    match runtime.read now world.store task with
    | some next => some (world, next)
    | none => (runtime.write now task).map fun write => write.perform runtime.owner world
  | .heartbeat, .step continuation =>
    some (runtime.beat continuation.state.id continuation.state.version world
      (.step continuation)
      (.fail continuation
        ⟨.conflict, "flow execution ownership was lost while its step was running"⟩))
  | .outcome result, .step continuation =>
    some (world, runtime.afterStep continuation now (runtime.execute continuation result))
  | .heartbeat, .undo continuation =>
    some (runtime.beat continuation.state.id continuation.state.version world
      (.undo continuation)
      (.fails ⟨.conflict,
        "flow compensation ownership was lost while its action was running"⟩))
  | .rolledBack result, .undo continuation =>
    some (world, match runtime.executeCompensation continuation result with
      | .error error => .fails error
      | .ok _ => .undone continuation)
  | .launched result, .launching flowId childId launched =>
    some (world, .launchFinish flowId childId result launched maxChildLaunchCasRetries)
  | .summaries flowIds, .reconcile maxResults maxScan =>
    some (world, match checkLimits maxResults maxScan with
      | .error error => .fails error
      | .ok _ => .reconcileRead flowIds 0)
  | _, _ => none

end FlowRuntime

end Catga.Flow
