import Catga.Flow.Machine

/-!
# The due-flow service

`FlowDueService::check_at` registers missing schedules, leases the resumes that are due, resumes
the flow of each one, and acknowledges it unless the resume failed for a reason that may pass.
Calls on runtimes, checks of services and direct calls on the scheduler interleave freely.
-/

namespace Catga.Flow

open Threads

structure FlowDueService where
  runtime : FlowRuntime
  owner : String
  batchSize : Nat
  leaseFor : Nat

/-- Where a check stands. -/
inductive CheckPoint where
  | reconciling (thread : Thread)
  | claiming
  | resuming (schedule : ScheduledResume) (rest : List ScheduledResume) (acknowledged : Nat)
      (thread : Thread)
  | acking (schedule : ScheduledResume) (rest : List ScheduledResume) (acknowledged : Nat)
  | releasing (schedules : List ScheduledResume) (result : CatgaResult Nat)
  | returned (result : CatgaResult Nat)

/-- A call on a runtime, or a check of a service at a time of its caller's choosing. -/
inductive Job where
  | call (thread : Thread)
  | check (service : FlowDueService) (now : Nat) (point : CheckPoint)

/-- How a job resolves what its next action leaves open. -/
inductive JobChoice where
  | inner (choice : Choice)
  | next
  | renew

/-- Whether a failed resume leaves its schedule to be acknowledged. -/
def settles (error : CatgaError) : Bool := error.code = .notFound ∨ error.code = .conflict

def Task.result : Task → Option (CatgaResult Reply)
  | .returned result => some result
  | _ => none

namespace CheckPoint

def proceed (service : FlowDueService) (since acknowledged : Nat) :
    List ScheduledResume → CheckPoint
  | [] => .returned (.ok acknowledged)
  | schedule :: rest =>
    .resuming schedule rest acknowledged
      { runtime := service.runtime
        task := .resumeScheduled schedule.flowId schedule.stateId, since }

def start (service : FlowDueService) (since : Nat) : CheckPoint :=
  .reconciling
    { runtime := service.runtime
      task := .reconcile service.batchSize service.batchSize, since }

/-- After the registration returned: an unsupported query is no obstacle. -/
def reconciled : CatgaResult Reply → CheckPoint
  | .ok _ => .claiming
  | .error error => if error.code = .unsupported then .claiming else .returned (.error error)

def resumed (schedule : ScheduledResume) (rest : List ScheduledResume) (acknowledged : Nat) :
    CatgaResult Reply → CheckPoint
  | .ok _ => .acking schedule rest acknowledged
  | .error error =>
    if settles error then .acking schedule rest acknowledged
    else .releasing (schedule :: rest) (.error error)

end CheckPoint

namespace Job

def next (service : FlowDueService) (now : Nat) (world : World) :
    CheckPoint → Option (World × CheckPoint)
  | .reconciling thread => thread.task.result.map fun result => (world, .reconciled result)
  | .claiming =>
    let (scheduler, claimed) :=
      world.scheduler.claimDue service.owner now service.leaseFor service.batchSize
    some ({ world with scheduler },
      match claimed with
      | .error error => .returned (.error error)
      | .ok schedules => .proceed service world.clock 0 schedules)
  | .resuming schedule rest acknowledged thread =>
    thread.task.result.map fun result => (world, .resumed schedule rest acknowledged result)
  | .acking schedule rest acknowledged =>
    let (scheduler, done) := world.scheduler.ackDue service.owner schedule.scheduleId
    some ({ world with scheduler },
      if done then .proceed service world.clock (acknowledged + 1) rest
      else .releasing (schedule :: rest)
        (.error ⟨.transient, "due flow scheduler claim was lost before acknowledgement"⟩))
  | .releasing schedules result =>
    some <| match schedules with
      | [] => (world, .returned result)
      | schedule :: rest =>
        ({ world with
            scheduler :=
              (world.scheduler.releaseDue service.owner schedule.scheduleId).1 },
          .releasing rest result)
  | .returned _ => none

/-- The lease timer: extend the lease of the schedule being resumed, or give up. -/
def renew (service : FlowDueService) (world : World) :
    CheckPoint → Option (World × CheckPoint)
  | .resuming schedule rest acknowledged thread =>
    let (scheduler, renewed) := world.scheduler.renewDue service.owner schedule.scheduleId
      world.clock service.leaseFor
    some ({ world with scheduler },
      match renewed with
      | .ok true => .resuming schedule rest acknowledged thread
      | .ok false => .releasing (schedule :: rest)
          (.error ⟨.transient, "due flow scheduler claim was lost during execution"⟩)
      | .error error => .releasing (schedule :: rest) (.error error))
  | _ => none

def thread : Job → Option Thread
  | .call thread => some thread
  | .check _ _ (.reconciling thread) => some thread
  | .check _ _ (.resuming _ _ _ thread) => some thread
  | .check _ _ _ => none

def withThread (job : Job) (thread : Thread) : Job :=
  match job with
  | .call _ => .call thread
  | .check service now (.reconciling _) => .check service now (.reconciling thread)
  | .check service now (.resuming schedule rest acknowledged _) =>
    .check service now (.resuming schedule rest acknowledged thread)
  | .check service now point => .check service now point

def act (choice : JobChoice) (job : Job) (world : World) : Option (World × Job) :=
  match choice, job with
  | .inner choice, job =>
    job.thread.bind fun thread =>
      (thread.act choice world).map fun moved => (moved.1, job.withThread moved.2)
  | .next, .check service now point =>
    (next service now world point).map fun moved => (moved.1, .check service now moved.2)
  | .renew, .check service now point =>
    (renew service world point).map fun moved => (moved.1, .check service now moved.2)
  | _, .call _ => none

end Job

/-- Direct calls on the scheduler, and the passing of time. -/
inductive Outside where
  | tick (elapsed : Nat)
  | claimDue (owner : String) (now leaseFor limit : Nat)
  | ackDue (owner : String) (scheduleId : ScheduleId)
  | releaseDue (owner : String) (scheduleId : ScheduleId)
  | renewDue (owner : String) (scheduleId : ScheduleId) (now leaseFor : Nat)

def Outside.apply (world : World) : Outside → World
  | .tick elapsed => world.tick elapsed
  | .claimDue owner now leaseFor limit =>
    { world with scheduler := (world.scheduler.claimDue owner now leaseFor limit).1 }
  | .ackDue owner scheduleId =>
    { world with scheduler := (world.scheduler.ackDue owner scheduleId).1 }
  | .releaseDue owner scheduleId =>
    { world with scheduler := (world.scheduler.releaseDue owner scheduleId).1 }
  | .renewDue owner scheduleId now leaseFor =>
    { world with scheduler := (world.scheduler.renewDue owner scheduleId now leaseFor).1 }

inductive Order where
  | call (runtime : FlowRuntime) (request : Request)
  | check (service : FlowDueService) (now : Nat)

/-- Any number of runtimes and due-flow services over one store and one scheduler. -/
def services : Machine World Job JobChoice Outside Order where
  act := Job.act
  env := fun event world => some (event.apply world)
  enter := fun order world =>
    match order with
    | .call runtime request => .call (machine.enter (runtime, request) world)
    | .check service now => .check service now (.start service world.clock)

end Catga.Flow
