import Catga.Flow.State

/-!
# Waits and continuations

A continuation is the durable record of one flow: its state, the step to run next, what the flow
is suspended on, and the completed steps that still have to be undone should it fail.
-/

namespace Catga.Flow

inductive WaitPolicy where
  | all
  | any
deriving DecidableEq

def maxWaitChildren : Nat := 1024

def maxWaitResultBytes : Nat := 64 * 1024

def maxFlowCompensations : Nat := 1024

/-- The latest time a `SystemTime` holds, in nanoseconds after the epoch. -/
def latestTime : Nat := (2 ^ 63 - 1) * 10 ^ 9 + 999999999

inductive FlowChildLaunchState where
  | pending
  | claimed (owner : String) (expiresAt : Nat)
  | launched
deriving DecidableEq

structure FlowChildLaunch where
  childId : String
  state : FlowChildLaunchState
deriving DecidableEq

/-- What a child has reported. -/
structure WaitResult where
  childId : String
  payload : Option (List UInt8)
  error : Option CatgaError
deriving DecidableEq

namespace WaitResult

def success (childId : String) (payload : List UInt8) : WaitResult :=
  { childId, payload := some payload, error := none }

def failure (childId : String) (error : CatgaError) : WaitResult :=
  { childId, payload := none, error := some error }

def isSuccess (result : WaitResult) : Bool := result.error.isNone

end WaitResult

/-- A report to be recorded. -/
inductive ChildReport where
  | success (payload : List UInt8)
  | failure (error : CatgaError)
deriving DecidableEq

def ChildReport.toResult (childId : String) : ChildReport → WaitResult
  | .success payload => .success childId payload
  | .failure error => .failure childId error

/-- Whether a report's payload is within bounds; a failure has none. -/
def ChildReport.fits : ChildReport → Bool
  | .success payload => decide (payload.length ≤ maxWaitResultBytes)
  | .failure _ => true

/-- What a flow waits for. -/
structure WaitCondition where
  correlationId : String
  policy : WaitPolicy
  expectedCount : Nat
  results : List WaitResult
  createdAt : Nat
  timeout : Nat
  /-- The children the flow launches itself; empty for a wait on outside children. -/
  childLaunches : List FlowChildLaunch
deriving DecidableEq

namespace WaitCondition

variable (wait : WaitCondition)

def completedCount : Nat := wait.results.length

def isExpiredAt (now : Nat) : Bool :=
  decide (wait.createdAt ≤ now) && decide (wait.timeout ≤ now - wait.createdAt)

variable (childId : String)

def acceptsChild : Bool :=
  wait.childLaunches.isEmpty || wait.childLaunches.any (·.childId == childId)

def hasResult : Bool := wait.results.any (·.childId == childId)

def hasRoom : Bool :=
  decide (wait.results.length < maxWaitChildren) &&
    decide (wait.results.length < wait.expectedCount)

/-- `record_success` and `record_failure`: append a report, unless it is out of bounds, the wait
is full, the child is foreign or the child has already reported. -/
def record (report : ChildReport) : WaitCondition :=
  if !report.fits || !wait.hasRoom || !wait.acceptsChild childId || wait.hasResult childId then
    wait
  else { wait with results := wait.results ++ [report.toResult childId] }

def claimable (now : Nat) (child : FlowChildLaunch) : Bool :=
  match child.state with
  | .pending => true
  | .claimed _ expiresAt => decide (expiresAt ≤ now)
  | .launched => false

variable (childId owner : String)

/-- Whether `owner` holds the launch claim of a child. -/
def claimedFor (child : FlowChildLaunch) : Bool :=
  child.childId == childId &&
    match child.state with
    | .claimed holder _ => holder == owner
    | .pending | .launched => false

/-- Move the first child that passes `test` to `state`. -/
def setLaunch (test : FlowChildLaunch → Bool)
    (state : FlowChildLaunchState) : Option (String × WaitCondition) := do
  let index ← wait.childLaunches.findIdx? test
  let child ← wait.childLaunches[index]?
  return (child.childId,
    { wait with childLaunches := wait.childLaunches.set index { child with state } })

/-- Claim the first child that is not launched and not under a live claim.  Where the deadline of
the claim cannot be represented, no child is found. -/
def claimNextChild (owner : String) (now claimFor : Nat) : Option (String × WaitCondition) :=
  if now + claimFor ≤ latestTime then
    wait.setLaunch (claimable now) (.claimed owner (now + claimFor))
  else none

def markChildLaunched : Option WaitCondition :=
  (wait.setLaunch (claimedFor childId owner) .launched).map (·.2)

/-- Give up the claim of a child that could not be launched. -/
def releaseChildClaim : Option WaitCondition :=
  (wait.setLaunch (claimedFor childId owner) .pending).map (·.2)

/-- What a wait condition out of bounds is refused with. -/
def invalidWait : CatgaError := ⟨.validation,
  "flow wait condition requires a correlation, at least one expected child, and supported bounds"⟩

def validate : CatgaResult Unit :=
  if wait.correlationId.isEmpty || wait.expectedCount == 0 ||
      decide (maxWaitChildren < wait.expectedCount) ||
      decide (maxWaitChildren < wait.results.length) ||
      decide (wait.expectedCount < wait.results.length) ||
      wait.results.any (fun result =>
        result.payload.any fun payload => decide (maxWaitResultBytes < payload.length)) then
    .error invalidWait
  else if !wait.childLaunches.isEmpty &&
      (decide (maxWaitChildren < wait.childLaunches.length) ||
        wait.childLaunches.length != wait.expectedCount ||
        wait.childLaunches.any (·.childId.isEmpty) ||
        !decide (wait.childLaunches.map (·.childId)).Nodup) then
    .error ⟨.validation, "flow child launch intents are invalid"⟩
  else .ok ()

end WaitCondition

/-- What has become of a wait. -/
inductive WaitEvaluation where
  | pending
  | ready
  | failed (error : CatgaError)
deriving DecidableEq

def evaluateWait (wait : WaitCondition) (now : Nat) : WaitEvaluation :=
  if wait.isExpiredAt now then .failed ⟨.timeout, "flow wait condition timed out"⟩
  else match wait.policy with
    | .all =>
      match wait.results.findSome? (·.error) with
      | some error => .failed error
      | none => if wait.expectedCount ≤ wait.completedCount then .ready else .pending
    | .any =>
      if wait.results.any (·.isSuccess) then .ready
      else if wait.expectedCount ≤ wait.completedCount then
        .failed ((wait.results.getLast?.bind (·.error)).getD
          ⟨.transient, "all flow wait children failed"⟩)
      else .pending

/-- Identity of a scheduled resume: the number in `flow-resume-{id}`. -/
structure ScheduleId where
  id : Nat
deriving DecidableEq

/-- A stored flow. -/
structure FlowContinuation where
  state : FlowState
  stepName : String
  wait : Option WaitCondition
  resumeAt : Option Nat
  scheduleId : Option ScheduleId
  compensations : List String
  createdAt : Nat
  updatedAt : Nat
deriving DecidableEq

namespace FlowContinuation

def new (state : FlowState) (stepName : String) (now : Nat) : FlowContinuation :=
  { state, stepName, wait := none, resumeAt := none, scheduleId := none, compensations := [],
    createdAt := now, updatedAt := now }

variable (continuation : FlowContinuation)

def validate : CatgaResult Unit := do
  continuation.state.validate
  match continuation.wait with
  | some wait => wait.validate
  | none => .ok ()

def delayedUntil (resumeAt now : Nat) : FlowContinuation :=
  { continuation with
    resumeAt := some resumeAt, wait := none, scheduleId := none, updatedAt := now }

def withScheduleId (scheduleId : ScheduleId) (now : Nat) : FlowContinuation :=
  { continuation with scheduleId := some scheduleId, updatedAt := now }

def withWait (wait : WaitCondition) (now : Nat) : FlowContinuation :=
  { continuation with
    wait := some wait, resumeAt := none, scheduleId := none, updatedAt := now }

def atStep (stepName : String) (now : Nat) : FlowContinuation :=
  { continuation with
    stepName, wait := none, resumeAt := none, scheduleId := none, updatedAt := now }

def ready (now : Nat) : FlowContinuation :=
  { continuation with wait := none, resumeAt := none, scheduleId := none, updatedAt := now }

def withState (state : FlowState) (now : Nat) : FlowContinuation :=
  { continuation with state, updatedAt := now }

def recordCompensation (stepName : String) (now : Nat) : CatgaResult FlowContinuation :=
  if continuation.compensations.length = maxFlowCompensations then
    .error ⟨.validation, "flow compensation stack exceeds the supported bound"⟩
  else .ok { continuation with
    compensations := continuation.compensations ++ [stepName], updatedAt := now }

def nextCompensation : Option String := continuation.compensations.getLast?

def completeCompensation (now : Nat) : FlowContinuation :=
  { continuation with compensations := continuation.compensations.dropLast, updatedAt := now }

end FlowContinuation

end Catga.Flow
