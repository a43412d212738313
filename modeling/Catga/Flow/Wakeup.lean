import Catga.Flow.Books
import Catga.Flow.DueService

/-!
# No lost wakeup of a delayed flow

A delayed flow records its scheduled resume.  The wakeup is lost if the schedule is acknowledged
while the flow is still suspended on it: the resume found the delay not yet over, the flow recorded
the schedule again while a check held it, or its first recording was still under way when the check
leased it.
-/

namespace Catga.Flow

open Threads Transition MemoryFlowScheduler Option

variable {service : FlowDueService} {schedule : ScheduledResume} {rest : List ScheduledResume}
  {now acknowledged : Nat}

variable {continuation : FlowContinuation} {schedules : List ScheduledResume}

def Job.isReturned : Job → Bool
  | .call thread => thread.task.result.isSome
  | .check _ _ (.returned _) => true
  | .check _ _ _ => false

open Job

variable (system : System World Job)

/-- When no call is in progress, every delayed flow that records a schedule has it. -/
def NoLostWakeup : Prop :=
  (∀ job ∈ system.threads, job.isReturned) →
    ∀ (flowId : String) (stored : FlowContinuation),
      system.shared.store flowId = some stored → stored.state.status = .suspended →
        stored.resumeAt.isSome → ∀ scheduleId, stored.scheduleId = some scheduleId →
          system.shared.scheduler.has scheduleId

/-- The calls the property is about: cancellation is not one of them. -/
def Listed : Label JobChoice Outside Order → System World Job → Prop
  | .spawn (.call _ (.cancel _)), _ => False
  | _, _ => True

/-- The schedules a check has leased and not yet settled. -/
def Job.holds : Job → List ScheduledResume
  | .check _ _ (.resuming schedule rest _ _) => schedule :: rest
  | .check _ _ (.acking schedule rest _) => schedule :: rest
  | _ => []

def Job.recording (job : Job) : Option ScheduleId := job.thread.bind (·.task.recording)

def Job.scheduling (job : Job) : Option ScheduleTarget :=
  job.thread.bind fun thread =>
    match thread.task with
    | .schedule found _ => some (found.state.id, found.stepName)
    | _ => none

/-- The schedule a check is about to resume the flow of, and the time it was given. -/
def Job.attending : Job → Option (ScheduledResume × Option Nat)
  | .check _ _ (.resuming schedule _ _ thread) =>
    match thread.task with
    | .resume _ at_ => some (schedule, at_)
    | _ => none
  | _ => none

/-- The time a check is about to lease due schedules for. -/
def Job.leasing : Job → Option Nat
  | .check _ now .claiming => some now
  | _ => none

variable (choice : JobChoice)

/-- The resume a check makes for a schedule finds the recorded delay over, and a version that can
still advance. -/
def DelayOver (job : Job) : Prop :=
  match choice with
  | .inner choice =>
    ∀ attended ∈ job.attending, ∀ stored ∈ system.shared.store attended.1.flowId,
      stored.state.status = .suspended →
        stored.scheduleId = some attended.1.scheduleId →
          stored.state.version < maxVersion ∧
            ∀ dueAt ∈ stored.resumeAt, dueAt ≤ attended.2.getD choice.now
  | .next | .renew => True

/-- A call does not schedule a target whose schedule is held by a check in progress. -/
def TargetFree (job : Job) : Prop :=
  ∀ target ∈ job.scheduling,
    ∀ scheduleId ∈ system.shared.scheduler.targetSchedules.lookup target,
      ∀ other ∈ system.threads, ∀ held ∈ other.holds, held.scheduleId ≠ scheduleId
deriving Decidable

/-- A check does not lease while a call is about to record a schedule that is due by then. -/
def RecordingsOver (job : Job) : Prop :=
  match choice with
  | .next =>
    ∀ now ∈ job.leasing, ∀ other ∈ system.threads, ∀ scheduleId ∈ other.recording,
      ∀ schedule ∈ system.shared.scheduler.schedules.lookup scheduleId, now < schedule.dueAt
  | .inner _ | .renew => True

/-- A direct acknowledgement is for a schedule that its flow does not record and nobody is about to
record. -/
def Disused (scheduleId : ScheduleId) : Prop :=
  (∀ schedule ∈ system.shared.scheduler.schedules.lookup scheduleId,
    ∀ stored ∈ system.shared.store schedule.flowId, stored.state.status = .suspended →
      stored.scheduleId ≠ some scheduleId) ∧
    ∀ job ∈ system.threads, job.recording ≠ some scheduleId
deriving Decidable

def Careful : Label JobChoice Outside Order → System World Job → Prop
  | .act index choice, system =>
    ∀ job ∈ system.threads[index]?,
      DelayOver system choice job ∧ TargetFree system job ∧ RecordingsOver system choice job
  | .env (.ackDue _ scheduleId), system => Disused system scheduleId
  | _, _ => True

instance : ∀ label system, Decidable (Listed label system) := by
  intro label system
  unfold Listed
  split <;> infer_instance

instance (system : System World Job) (job : Job) :
    ∀ choice, Decidable (DelayOver system choice job) := by
  rintro ⟨⟩ <;> dsimp only [DelayOver] <;> infer_instance

instance (system : System World Job) (job : Job) :
    ∀ choice, Decidable (RecordingsOver system choice job) := by
  rintro ⟨⟩ <;> dsimp only [RecordingsOver] <;> infer_instance

instance : ∀ label system, Decidable (Careful label system) := by
  intro label system
  unfold Careful
  split <;> infer_instance

variable {error : CatgaError} {removed : Option ScheduleId} {before after : Store}

/-- No error of a check settles a schedule. -/
def Checks {α : Type} (result : CatgaResult α) : Prop :=
  ∀ error, result = .error error → settles error = false

lemma Checks.ok {α : Type} (value : α) : Checks (.ok value) := by
  rintro _ ⟨⟩

lemma Checks.guard {condition : Prop} [Decidable condition] (message : String)
    {rest : CatgaResult Unit} (checks : Checks rest) :
    Checks (if condition then .error ⟨.validation, message⟩ else rest) := by
  split
  · rintro _ ⟨⟩
    rfl
  · exact checks

lemma Checks.bind {α β : Type} {first} {rest : α → CatgaResult β}
    (checks : Checks first) (follow : ∀ value, Checks (rest value)) : Checks (first >>= rest) := by
  cases first with
  | error =>
    rintro _ ⟨⟩
    exact checks _ rfl
  | ok value => exact follow value

lemma FlowState.checks (state : FlowState) : Checks state.validate := .guard _ (.ok _)

lemma WaitCondition.checks (wait : WaitCondition) : Checks wait.validate :=
  .guard _ (.guard _ (.ok _))

lemma FlowContinuation.checks (continuation : FlowContinuation) :
    Checks continuation.validate := by
  refine .bind continuation.state.checks fun _ => ?_
  split
  · exact WaitCondition.checks _
  · exact .ok _

lemma FlowDefinition.checks (definition : FlowDefinition) : Checks definition.validate :=
  .guard _ (.guard _ (.ok _))

lemma Store.checks_get (store : Store) (flowId : String) : Checks (store.get flowId) := by
  unfold Store.get
  split
  · exact .ok _
  · exact .bind (FlowContinuation.checks _) fun _ => .ok _

lemma FlowRuntime.checks (runtime : FlowRuntime) (continuation) :
    Checks (runtime.ensureDefinition continuation) := by
  refine .bind continuation.checks fun _ => .bind runtime.definition.checks fun _ => ?_
  split
  · exact .ok _
  · rintro _ ⟨⟩
    rfl

def Gone (store : Store) (schedule : ScheduledResume) : Prop :=
  ∀ stored, store schedule.flowId = some stored → stored.state.status = .suspended →
    stored.scheduleId ≠ some schedule.scheduleId

/-- A lease is for the schedule of its identity, and the identity is not reused. -/
def Genuine (scheduler : MemoryFlowScheduler) (schedule : ScheduledResume) : Prop :=
  (∀ kept, scheduler.schedules.lookup schedule.scheduleId = some kept → kept = schedule) ∧
    schedule.scheduleId.id < scheduler.nextId

/-- How far the resume for a schedule has come: its flow is not suspended on the schedule any more
unless the resume has still to claim it, or has failed for a reason that may pass. -/
inductive Attending (store : Store) (schedule : ScheduledResume) : Task → Prop
  | scheduled : Attending store schedule (.resumeScheduled schedule.flowId schedule.stateId)
  | resume : Attending store schedule (.resume schedule.flowId none)
  | claim {found} : store schedule.flowId = some found →
      found.state.version < maxVersion → Attending store schedule (.claim found)
  | fails {error : CatgaError} : settles error = false → Attending store schedule (.fails error)
  | gone {task} : Gone store schedule → Attending store schedule task

lemma Gone.refiled {recording} (gone : Gone before schedule)
    (refiled : Refiled recording before after) (apart : recording ≠ some schedule.scheduleId) :
    Gone after schedule := by
  intro stored held suspended recorded
  rcases refiled schedule.flowId with same | ⟨later, held', records⟩
  · exact gone stored (same.symm.trans held) suspended recorded
  · cases held'.symm.trans held
    exact apart (records _ suspended recorded)

lemma Attending.refiled {recording task}
    (attending : Attending before schedule task) (refiled : Refiled recording before after)
    (apart : recording ≠ some schedule.scheduleId) : Attending after schedule task := by
  cases attending with
  | scheduled => exact .scheduled
  | resume => exact .resume
  | claim held below =>
    rcases refiled schedule.flowId with same | ⟨later, held', records⟩
    · exact .claim (same.trans held) below
    · refine .gone fun stored held suspended recorded => ?_
      cases held'.symm.trans held
      exact apart (records _ suspended recorded)
  | fails passing => exact .fails passing
  | gone gone => exact .gone (gone.refiled refiled apart)

lemma Genuine.carries {before after} (genuine : Genuine before schedule)
    (carries : Carries removed before after) : Genuine after schedule :=
  ⟨fun kept found => genuine.1 kept (carries.old _ _ genuine.2 found),
    lt_of_lt_of_le genuine.2 carries.allocated⟩

lemma Store.claim_held {store : Store} {found next}
    (held : store found.state.id = some found) (same : next.state.id = found.state.id)
    (follows : FlowState.isNextVersion found.state.version next.state.version) :
    store.claim found next = next.validate.map fun _ => some (store.put next) := by
  unfold Store.claim
  rw [if_pos ⟨same, follows⟩]
  cases next.validate with
  | error => rfl
  | ok => simp only [bind, Except.bind, if_pos held]; rfl

namespace FlowRuntime

variable {runtime : FlowRuntime} {now : Nat} {world after : World}

lemma attending_reading {found}
    (present : ∀ stored, world.store schedule.flowId = some stored →
      Attending world.store schedule (found stored)) :
    Attending world.store schedule (reading world.store schedule.flowId found) := by
  unfold reading
  split
  · rename_i refused
    exact .fails (Store.checks_get _ _ _ refused)
  · rename_i missing
    refine .gone fun stored held => ?_
    unfold Store.get at missing
    rw [held] at missing
    obtain ⟨_, -, ⟨⟩⟩ := bind_eq_ok.mp missing
  · rename_i stored read
    exact present stored (Store.get_eq_some read)

lemma attending_ensuring {stored next}
    (passed : Attending world.store schedule next) :
    Attending world.store schedule (runtime.ensuring stored next) := by
  unfold ensuring
  split
  · rename_i refused
    exact .fails (runtime.checks _ _ refused)
  · exact passed

variable {found : FlowContinuation}

lemma resumeRead_due (suspended : found.state.status = .suspended) (quiet : found.wait = none)
    (passed : ∀ dueAt ∈ found.resumeAt, dueAt ≤ now) :
    runtime.resumeRead now found = .claim found := by
  have notLate : found.resumeAt.any (fun dueAt => decide (now < dueAt)) = false := by
    cases delayed : found.resumeAt with
    | none => rfl
    | some dueAt => simpa using passed dueAt delayed
  simp [resumeRead, suspended, quiet, notLate, FlowStatus.isTerminal, FlowStatus.isOwned]

lemma revised_below {change}
    (below : (change continuation.state).version < maxVersion) :
    ∃ next, continuation.revised now change = .ok next := by
  unfold FlowContinuation.revised
  rw [FlowState.nextVersion_eq_ok.mpr ⟨below, rfl⟩]
  exact ⟨_, rfl⟩

lemma claimed_shape {next} (built : runtime.claimed found now = .ok next) :
    next.state.id = found.state.id ∧ next.state.version = found.state.version + 1 ∧
      next.state.status ≠ .suspended := by
  obtain rfl := FlowContinuation.revised_eq_ok built
  split <;> exact ⟨rfl, rfl, fun suspended => by cases suspended⟩

/-- A claim below the last version is not lost on what the store holds, and leaves the flow not
suspended. -/
lemma attending_claim (held : world.store schedule.flowId = some found)
    (keyed : found.state.id = schedule.flowId) (below : found.state.version < maxVersion)
    {write} (writes : runtime.write now (.claim found) = some write) :
    Attending (write.perform runtime.owner world).1.store schedule
      (write.perform runtime.owner world).2 := by
  obtain ⟨next, built⟩ : ∃ next, runtime.claimed found now = .ok next := by
    refine revised_below ?_
    split <;> exact below
  obtain ⟨same, version, awake⟩ := claimed_shape built
  have committed : world.store.claim found next =
      next.validate.map fun _ => some (world.store.put next) :=
    Store.claim_held (keyed ▸ held) same (FlowState.isNextVersion_iff.mpr ⟨below, version⟩)
  cases writes
  simp only [Write.perform, Write.update, built, Write.commit, if_true, committed]
  cases checked : next.validate with
  | error => exact .fails (FlowContinuation.checks _ _ checked)
  | ok =>
    refine .gone fun stored held' suspended => ?_
    have here : world.store.put next schedule.flowId = some next := by
      rw [← keyed, ← same]
      exact Function.update_self ..
    cases here.symm.trans held'
    exact absurd suspended awake

lemma attending_act {pick task next}
    (acted : runtime.act now world pick task = some (after, next))
    (attending : Attending world.store schedule task) (booked : Booked world)
    (genuine : Genuine world.scheduler schedule)
    (passed : task = .resume schedule.flowId none → ∀ stored,
      world.store schedule.flowId = some stored → stored.state.status = .suspended →
        stored.scheduleId = some schedule.scheduleId →
          stored.state.version < maxVersion ∧ ∀ dueAt ∈ stored.resumeAt, dueAt ≤ now)
    (apart : task.recording ≠ some schedule.scheduleId) :
    Attending after.store schedule next := by
  cases attending with
  | gone gone => exact .gone (gone.refiled ((act_acts acted).refiled booked) apart)
  | fails => rw [act_fails] at acted; cases acted
  | scheduled =>
    cases pick with
    | go =>
      cases acted
      refine attending_reading fun stored held => attending_ensuring ?_
      split_ifs with elsewhere
      · refine .gone fun other held' suspended recorded => ?_
        cases held.symm.trans held'
        obtain ⟨-, kept, found, target⟩ := booked.recorded _ _ _ held suspended recorded
        obtain rfl := genuine.1 kept found
        exact elsewhere (congrArg Prod.snd target).symm
      · exact .resume
    | _ => cases acted
  | resume =>
    cases pick with
    | go =>
      cases acted
      refine attending_reading fun stored held => attending_ensuring ?_
      by_cases waiting : stored.state.status = .suspended ∧
          stored.scheduleId = some schedule.scheduleId
      · obtain ⟨below, due⟩ := passed rfl stored held waiting.1 waiting.2
        have quiet := (booked.recorded _ _ _ held waiting.1 waiting.2).1
        rw [show (none : Option Nat).getD now = now from rfl, resumeRead_due waiting.1 quiet due]
        exact .claim held below
      · refine .gone fun other held' suspended recorded => ?_
        cases held.symm.trans held'
        exact waiting ⟨suspended, recorded⟩
    | _ => cases acted
  | claim held below =>
    cases pick with
    | go =>
      obtain ⟨rfl, rfl⟩ := Prod.mk.inj (Option.some.inj acted)
      exact attending_claim held (booked.keyed _ _ held) below rfl
    | _ => cases acted

end FlowRuntime

/-- What the point a check has reached says about the flow of its schedule. -/
def Job.Progress (store : Store) : Job → Prop
  | .check _ _ (.resuming schedule _ _ thread) => Attending store schedule thread.task
  | .check _ _ (.acking schedule _ _) => Gone store schedule
  | _ => True

/-- What a job relies on. -/
structure Job.Knows (world : World) (job : Job) : Prop where
  filed : ∀ thread ∈ job.thread, thread.task.Filed world.scheduler
  genuine : ∀ schedule ∈ job.holds, Genuine world.scheduler schedule
  apart : ∀ schedule ∈ job.holds, schedule.scheduleId ∉ job.recording
  progress : job.Progress world.store

/-- No schedule that one job holds is being recorded by the other. -/
def Apart (one two : Job) : Prop := ∀ schedule ∈ one.holds, schedule.scheduleId ∉ two.recording

/-- What is known about a job stays true while the schedules it records are kept and the schedules
it holds are not recorded. -/
lemma Job.Knows.stable {before after} {job : Job} (knows : job.Knows before)
    {removed recording}
    (carries : Carries removed before.scheduler after.scheduler)
    (refiled : Refiled recording before.store after.store)
    (kept : ∀ scheduleId ∈ job.recording, removed ≠ some scheduleId)
    (unrecorded : ∀ schedule ∈ job.holds, recording ≠ some schedule.scheduleId) :
    job.Knows after := by
  refine ⟨fun thread inside => ?_,
    fun schedule held => (knows.genuine schedule held).carries carries, knows.apart, ?_⟩
  · refine (knows.filed thread inside).carries carries fun scheduleId recorded => kept _ ?_
    exact mem_bind_iff.mpr ⟨thread, inside, recorded⟩
  · match job, knows.progress, unrecorded with
    | .check _ _ (.resuming schedule rest _ _), attending, unrecorded =>
      exact Attending.refiled attending refiled (unrecorded schedule (.head _))
    | .check _ _ (.acking schedule rest _), gone, unrecorded =>
      exact Gone.refiled gone refiled (unrecorded schedule (.head _))
    | .call _, _, _ | .check _ _ (.reconciling _), _, _ | .check _ _ .claiming, _, _
    | .check _ _ (.releasing _ _), _, _ | .check _ _ (.returned _), _, _ => trivial

/-- What one action of a job does to the books, to its leases and to what it records. -/
structure Effect (world after : World) (job next : Job) : Prop where
  booked : Booked after
  carries : ∃ removed, Carries removed world.scheduler after.scheduler ∧
    ∀ scheduleId ∈ removed, ∃ schedule ∈ job.holds, schedule.scheduleId = scheduleId
  refiled : Refiled job.recording world.store after.store
  holds : ∀ schedule ∈ next.holds, schedule ∈ job.holds ∨ choice = .next ∧
    ∃ now ∈ job.leasing, world.scheduler.schedules.lookup schedule.scheduleId = some schedule ∧
      schedule.dueAt ≤ now
  recording : ∀ scheduleId ∈ next.recording, scheduleId ∈ job.recording ∨
    world.scheduler.nextId ≤ scheduleId.id ∨
    ∃ target ∈ job.scheduling, world.scheduler.targetSchedules.lookup target = some scheduleId
  filed : ∀ thread ∈ next.thread, thread.task.Filed after.scheduler
  progress : next.Progress after.store

namespace Job

variable {world after : World} {job next : Job}

@[simp] lemma holds_withThread {thread} : (job.withThread thread).holds = job.holds := by
  match job with
  | .call _ | .check _ _ (.reconciling _) | .check _ _ .claiming | .check _ _ (.resuming ..)
  | .check _ _ (.acking ..) | .check _ _ (.releasing ..) | .check _ _ (.returned _) => rfl

lemma thread_withThread {thread thread'} (inside : job.thread = some thread) :
    (job.withThread thread').thread = some thread' := by
  match job, inside with
  | .call _, _ | .check _ _ (.reconciling _), _ | .check _ _ (.resuming ..), _ => rfl

lemma inner_effect {choice} (acted : job.act (.inner choice) world = some (after, next))
    (booked : Booked world) (knows : job.Knows world)
    (passed : DelayOver ⟨world, []⟩ (.inner choice) job) :
    Effect (.inner choice) world after job next := by
  obtain ⟨thread, inside, moved⟩ := bind_eq_some_iff.mp
    (show (job.thread.bind fun thread =>
      (thread.act choice world).map fun moved => (moved.1, job.withThread moved.2)) = _ from acted)
  obtain ⟨⟨shared, thread'⟩, ran, same⟩ := map_eq_some_iff.mp moved
  cases same
  obtain ⟨-, -, ran⟩ := Thread.act_eq_some ran
  have acts := FlowRuntime.act_acts ran
  have filed := knows.filed thread inside
  have inside' : (job.withThread thread').thread = some thread' := thread_withThread inside
  have records : job.recording = thread.task.recording := by
    rw [Job.recording, inside]; rfl
  have records' : (job.withThread thread').recording = thread'.task.recording := by
    rw [Job.recording, inside']; rfl
  refine ⟨acts.booked booked filed,
    ⟨none, acts.carries booked filed, fun _ never => by cases never⟩,
    records ▸ acts.refiled booked, fun schedule held => ?_, fun scheduleId recorded => ?_,
    fun other inside => ?_, ?_⟩
  · exact .inl (holds_withThread ▸ held)
  · rw [records'] at recorded
    rw [records]
    rcases acts.recording booked recorded with old | fresh | ⟨found, sweep, task, mapped⟩
    · exact .inl old
    · exact .inr (.inl fresh)
    · refine .inr (.inr ⟨_, ?_, mapped⟩)
      rw [Job.scheduling, inside]
      simp [task]
  · cases inside'.symm.trans inside
    exact acts.filed booked filed
  · match job, inside with
    | .call _, _ | .check _ _ (.reconciling _), _ => trivial
    | .check service now (.resuming schedule rest acknowledged _), rfl =>
      refine FlowRuntime.attending_act ran knows.progress booked
        (knows.genuine schedule (.head _)) (fun task stored held suspended recorded => ?_)
        (records ▸ knows.apart schedule (.head _))
      exact passed (schedule, none) (by simp [attending, task]) stored held suspended recorded

/-- Where a check goes by itself: it holds at most `held`, and only starts fresh resumes. -/
structure Onward (store : Store) (held : List ScheduledResume) (next : Job) : Prop where
  holds : ∀ schedule ∈ next.holds, schedule ∈ held
  fresh : ∀ thread ∈ next.thread, ∃ flowId stateId, thread.task = .resumeScheduled flowId stateId
  progress : next.Progress store

variable {store : Store} {held : List ScheduledResume} {choice : JobChoice}
  {scheduler : MemoryFlowScheduler} {result : CatgaResult Nat}

lemma onward_proceed {now since acknowledged} :
    Onward store schedules
      (.check service now (.proceed service since acknowledged schedules)) := by
  cases schedules with
  | nil => exact ⟨fun _ held => held, fun _ never => (by cases never), trivial⟩
  | cons =>
    exact ⟨fun _ held => held, fun _ same => (by cases same; exact ⟨_, _, rfl⟩), .scheduled⟩

lemma Onward.mono {held'} (onward : Onward store held next)
    (fewer : ∀ schedule ∈ held, schedule ∈ held') : Onward store held' next :=
  ⟨fun schedule inside => fewer schedule (onward.holds schedule inside), onward.fresh,
    onward.progress⟩

lemma Onward.recording (onward : Onward store held next) {scheduleId} :
    scheduleId ∉ next.recording := by
  intro recorded
  obtain ⟨thread, inside, recorded⟩ := mem_bind_iff.mp recorded
  obtain ⟨flowId, stateId, task⟩ := onward.fresh thread inside
  rw [task] at recorded
  cases recorded

lemma Onward.effect (onward : Onward world.store held next)
    (booked : Booked { world with scheduler }) (carries : Carries removed world.scheduler scheduler)
    (own : ∀ scheduleId ∈ removed, ∃ schedule ∈ job.holds, schedule.scheduleId = scheduleId)
    (leased : ∀ schedule ∈ held, schedule ∈ job.holds ∨ choice = .next ∧
      ∃ now ∈ job.leasing, world.scheduler.schedules.lookup schedule.scheduleId = some schedule ∧
        schedule.dueAt ≤ now) : Effect choice world { world with scheduler } job next where
  booked := booked
  carries := ⟨removed, carries, own⟩
  refiled := .refl _ _
  holds := fun schedule inside => leased schedule (onward.holds schedule inside)
  recording := fun _ recorded => absurd recorded onward.recording
  filed := fun thread inside => by
    obtain ⟨flowId, stateId, task⟩ := onward.fresh thread inside
    rw [task]
    trivial
  progress := onward.progress

lemma Onward.quiet (onward : Onward world.store job.holds next) (booked : Booked world)
    (sound : scheduler.Sound) (nextId : scheduler.nextId = world.scheduler.nextId)
    (schedules : scheduler.schedules = world.scheduler.schedules) :
    Effect choice world { world with scheduler } job next :=
  onward.effect (booked.recarry sound (.of_eq schedules nextId)) (.of_eq schedules nextId)
    (fun _ never => by cases never) fun _ held => .inl held

lemma onward_released : Onward store held (.check service now (.releasing schedules result)) :=
  ⟨fun _ never => (by cases never), fun _ never => (by cases never), trivial⟩

lemma onward_returned : Onward store held (.check service now (.returned result)) :=
  ⟨fun _ never => (by cases never), fun _ never => (by cases never), trivial⟩

lemma onward_resumed {now acknowledged task result}
    (attending : Attending store schedule task) (returned : task.result = some result) :
    Onward store (schedule :: rest)
      (.check service now (.resumed schedule rest acknowledged result)) := by
  have acking : Gone store schedule →
      Onward store (schedule :: rest) (.check service now (.acking schedule rest acknowledged)) :=
    fun gone => ⟨fun _ held => held, fun _ never => (by cases never), gone⟩
  cases attending with
  | scheduled | resume | claim _ _ => cases returned
  | fails passing =>
    cases returned
    rw [CheckPoint.resumed, if_neg (by simp [passing])]
    exact onward_released
  | gone gone =>
    unfold CheckPoint.resumed
    split
    · exact acking gone
    · split
      · exact acking gone
      · exact onward_released

lemma booked_ackDue {owner scheduleId} (booked : Booked world)
    (disused : ∀ schedule ∈ world.scheduler.schedules.lookup scheduleId,
      ∀ stored ∈ world.store schedule.flowId, stored.state.status = .suspended →
        stored.scheduleId ≠ some scheduleId) :
    Booked { world with scheduler := (world.scheduler.ackDue owner scheduleId).1 } := by
  refine booked.carry (ackDue_spec _ _ booked.sound).1
    (.ackDue booked.sound) fun flowId stored held suspended scheduleId recorded same => ?_
  cases same
  obtain ⟨-, kept, found, target⟩ := booked.recorded _ _ _ held suspended recorded
  have here : kept.flowId = flowId :=
    (congrArg Prod.fst target).trans (booked.keyed _ _ held)
  exact disused kept found stored (here ▸ held) suspended recorded

lemma thread_of_leasing (leasing : now ∈ job.leasing) : job.thread = none := by
  cases job with
  | call => cases leasing
  | check _ _ point =>
    cases point with
    | claiming => rfl
    | _ => cases leasing

section

lemma claim_effect (booked : Booked world) {claimed}
    (called : world.scheduler.claimDue service.owner now service.leaseFor service.batchSize =
      claimed) :
    Effect .next world { world with scheduler := claimed.1 } (.check service now .claiming)
      (.check service now (match claimed.2 with
        | .error error => .returned (.error error)
        | .ok schedules => .proceed service world.clock 0 schedules)) := by
  obtain ⟨sound, schedules, nextId, due⟩ := claimDue_spec
    service.owner now service.leaseFor service.batchSize booked.sound
  rw [called] at sound schedules nextId due
  have carries := Carries.of_eq schedules nextId
  split
  · exact Onward.quiet onward_returned booked sound nextId schedules
  · rename_i leased answer
    exact onward_proceed.effect (booked.recarry sound carries) carries
      (fun _ never => by cases never)
      fun schedule held => .inr ⟨rfl, now, rfl, due leased answer schedule held⟩

lemma ack_effect (booked : Booked world)
    (knows : (check service now (.acking schedule rest acknowledged)).Knows world)
    {acked}
    (called : world.scheduler.ackDue service.owner schedule.scheduleId = acked) :
    Effect .next world { world with scheduler := acked.1 }
      (.check service now (.acking schedule rest acknowledged))
      (.check service now (if acked.2 then .proceed service world.clock (acknowledged + 1) rest
        else .releasing (schedule :: rest) (.error ⟨.transient,
          "due flow scheduler claim was lost before acknowledgement"⟩))) := by
  have disused := (knows.genuine schedule (.head _)).1
  subst called
  refine Onward.effect (?_ : Onward _ (schedule :: rest) _)
    (booked_ackDue booked fun kept found => disused kept found ▸ knows.progress)
    (.ackDue booked.sound) (fun scheduleId same => ⟨schedule, .head _, Option.some.inj same⟩)
    fun _ held => .inl held
  split
  · exact onward_proceed.mono fun _ held => .tail _ held
  · exact onward_released

lemma renew_effect {thread} (booked : Booked world)
    (knows : (check service now (.resuming schedule rest acknowledged thread)).Knows world)
    {renewed}
    (called : world.scheduler.renewDue service.owner schedule.scheduleId world.clock
      service.leaseFor = renewed) :
    Effect .renew world { world with scheduler := renewed.1 }
      (.check service now (.resuming schedule rest acknowledged thread))
      (.check service now (match renewed.2 with
        | .ok true => .resuming schedule rest acknowledged thread
        | .ok false => .releasing (schedule :: rest)
            (.error ⟨.transient, "due flow scheduler claim was lost during execution"⟩)
        | .error error => .releasing (schedule :: rest) (.error error))) := by
  obtain ⟨sound, nextId, schedules⟩ := renewDue_spec
    service.owner schedule.scheduleId booked.sound world.clock service.leaseFor
  rw [called] at sound schedules nextId
  have carries := Carries.of_eq schedules nextId
  split
  · exact ⟨booked.recarry sound carries, ⟨none, carries, fun _ never => (by cases never)⟩,
      .refl _ _, fun _ held => .inl held, fun _ recorded => .inl recorded,
      fun other inside => (knows.filed other inside).carries carries
        fun _ _ never => (by cases never),
      knows.progress⟩
  · exact Onward.quiet onward_released booked sound nextId schedules
  · exact Onward.quiet onward_released booked sound nextId schedules

lemma next_effect {point point'}
    (moved : Job.next service now world point = some (after, point')) (booked : Booked world)
    (knows : (check service now point).Knows world) :
    Effect .next world after (.check service now point) (.check service now point') := by
  cases point with
  | reconciling =>
    obtain ⟨result, -, same⟩ := map_eq_some_iff.mp moved
    cases same
    refine Onward.quiet ?_ booked booked.sound rfl rfl
    unfold CheckPoint.reconciled
    split
    · exact ⟨fun _ never => (by cases never), fun _ never => (by cases never), trivial⟩
    · split
      · exact ⟨fun _ never => (by cases never), fun _ never => (by cases never), trivial⟩
      · exact onward_returned
  | claiming =>
    generalize called : world.scheduler.claimDue service.owner now service.leaseFor
      service.batchSize = claimed
    simp only [Job.next, called, Option.some.injEq, Prod.mk.injEq] at moved
    obtain ⟨rfl, rfl⟩ := moved
    exact claim_effect booked called
  | resuming =>
    obtain ⟨result, returned, same⟩ := map_eq_some_iff.mp moved
    cases same
    exact Onward.quiet (onward_resumed knows.progress returned) booked booked.sound rfl rfl
  | acking schedule =>
    generalize called : world.scheduler.ackDue service.owner schedule.scheduleId = acked
    simp only [Job.next, called, Option.some.injEq, Prod.mk.injEq] at moved
    obtain ⟨rfl, rfl⟩ := moved
    exact ack_effect booked knows called
  | releasing schedules =>
    cases schedules with
    | nil =>
      cases moved
      exact Onward.quiet onward_returned booked booked.sound rfl rfl
    | cons schedule =>
      obtain ⟨rfl, rfl⟩ := moved
      obtain ⟨sound, nextId, schedules⟩ := releaseDue_spec
        service.owner schedule.scheduleId booked.sound
      exact Onward.quiet onward_released booked sound nextId schedules
  | returned => cases moved

end

lemma act_effect {others} (acted : job.act choice world = some (after, next))
    (booked : Booked world) (knows : job.Knows world)
    (passed : DelayOver ⟨world, others⟩ choice job) : Effect choice world after job next := by
  cases choice with
  | inner => exact inner_effect acted booked knows passed
  | next =>
    cases job with
    | call => cases acted
    | check service now point =>
      obtain ⟨⟨shared, point'⟩, moved, same⟩ := map_eq_some_iff.mp
        (show (Job.next service now world point).map _ = some (after, next) from acted)
      cases same
      exact next_effect moved booked knows
  | renew =>
    cases job with
    | call => cases acted
    | check service now point =>
      obtain ⟨⟨shared, point'⟩, moved, same⟩ := map_eq_some_iff.mp
        (show (renew service world point).map _ = some (after, next) from acted)
      cases same
      cases point with
      | resuming schedule =>
        generalize called : world.scheduler.renewDue service.owner schedule.scheduleId
          world.clock service.leaseFor = renewed
        simp only [renew, called, Option.some.injEq, Prod.mk.injEq] at moved
        obtain ⟨rfl, rfl⟩ := moved
        exact renew_effect booked knows called
      | _ => cases moved

end Job

namespace Effect

variable {system : System World Job} {index rival : Nat} {choice : JobChoice} {after : World}
  {job next bystander : Job}

variable (effect : Effect choice system.shared after job next)
include effect

lemma unheld (free : TargetFree system job) (found : system.threads[rival]? = some bystander)
    (knows : bystander.Knows system.shared) (apart : Apart bystander job) :
    Apart bystander next := by
  intro schedule held recorded
  rcases effect.recording _ recorded with old | fresh | ⟨target, scheduling, mapped⟩
  · exact apart schedule held old
  · exact Nat.not_lt_of_le fresh (knows.genuine schedule held).2
  · exact free target scheduling _ mapped bystander (List.mem_of_getElem? found) schedule held rfl

lemma unrecorded (recordings : RecordingsOver system choice job)
    (found : system.threads[rival]? = some bystander) (apart : Apart job bystander) :
    Apart next bystander := by
  intro schedule held recorded
  rcases effect.holds schedule held with old | ⟨rfl, now, leasing, kept, due⟩
  · exact apart schedule old recorded
  · have late := recordings now leasing bystander (List.mem_of_getElem? found) _ recorded _ kept
    exact absurd due (Nat.not_le_of_lt late)

lemma knows (booked : Booked system.shared) (known : job.Knows system.shared)
    (free : TargetFree system job) (here : system.threads[index]? = some job) :
    next.Knows after := by
  obtain ⟨removed, carries, -⟩ := effect.carries
  have genuine : ∀ schedule ∈ next.holds, Genuine system.shared.scheduler schedule := by
    intro schedule held
    rcases effect.holds schedule held with old | ⟨-, now, leasing, kept, due⟩
    · exact known.genuine schedule old
    · exact ⟨fun other found => Option.some.inj (found.symm.trans kept),
        (booked.sound.ids _ _ kept).2⟩
  refine ⟨effect.filed, fun schedule held => (genuine schedule held).carries carries,
    fun schedule held recorded => ?_, effect.progress⟩
  rcases effect.recording _ recorded with old | fresh | ⟨target, scheduling, mapped⟩
  · rcases effect.holds schedule held with held | ⟨-, now, leasing, -⟩
    · exact known.apart schedule held old
    · rw [Job.recording, thread_of_leasing leasing] at old
      cases old
  · exact Nat.not_lt_of_le fresh (genuine schedule held).2
  · rcases effect.holds schedule held with held | ⟨-, now, leasing, -⟩
    · exact free target scheduling _ mapped job (List.mem_of_getElem? here) schedule held rfl
    · rw [Job.scheduling, thread_of_leasing leasing] at scheduling
      cases scheduling

end Effect

lemma Outside.effect {event world jobs}
    (booked : Booked world) (careful : Careful (.env event) ⟨world, jobs⟩) :
    Booked (event.apply world) ∧ (event.apply world).store = world.store ∧
      ∃ removed, Carries removed world.scheduler (event.apply world).scheduler ∧
        ∀ job ∈ jobs, ∀ scheduleId ∈ job.recording, removed ≠ some scheduleId := by
  have quiet : ∀ scheduler : MemoryFlowScheduler, scheduler.Sound →
      scheduler.nextId = world.scheduler.nextId →
      scheduler.schedules = world.scheduler.schedules →
      Booked { world with scheduler } ∧ world.store = world.store ∧
        ∃ removed, Carries removed world.scheduler scheduler ∧
          ∀ job ∈ jobs, ∀ scheduleId ∈ job.recording, removed ≠ some scheduleId :=
    fun scheduler sound nextId schedules =>
      have carries := Carries.of_eq schedules nextId
      ⟨booked.recarry sound carries, rfl, none, carries,
        fun _ _ _ _ never => (by cases never)⟩
  cases event with
  | tick =>
    exact ⟨{ booked with }, rfl,
      none, .refl _, fun _ _ _ _ never => (by cases never)⟩
  | claimDue owner now leaseFor limit =>
    obtain ⟨sound, schedules, nextId, -⟩ :=
      claimDue_spec owner now leaseFor limit booked.sound
    exact quiet _ sound nextId schedules
  | ackDue owner scheduleId =>
    refine ⟨booked_ackDue booked careful.1, rfl, some scheduleId, .ackDue booked.sound,
      fun job inside other recorded same => ?_⟩
    cases same
    exact careful.2 job inside recorded
  | releaseDue owner scheduleId =>
    obtain ⟨sound, nextId, schedules⟩ :=
      releaseDue_spec owner scheduleId booked.sound
    exact quiet _ sound nextId schedules
  | renewDue owner scheduleId now leaseFor =>
    obtain ⟨sound, nextId, schedules⟩ :=
      renewDue_spec owner scheduleId booked.sound now leaseFor
    exact quiet _ sound nextId schedules

lemma enter_knows {order world system}
    (listed : Listed (.spawn order) system) :
    (services.enter order world).Knows world ∧ (services.enter order world).holds = [] ∧
      (services.enter order world).recording = none := by
  cases order with
  | check =>
    exact ⟨⟨fun _ same => (by cases same; trivial), fun _ never => (by cases never),
      fun _ never => (by cases never), trivial⟩, rfl, rfl⟩
  | call runtime request =>
    have quiet : request.task.recording = none := by cases request <;> rfl
    refine ⟨⟨fun _ same => ?_, fun _ never => (by cases never), fun _ never => (by cases never),
      trivial⟩, rfl, quiet⟩
    cases same
    cases request with
    | cancel => exact listed.elim
    | _ => trivial

lemma wakeup_valid : Machine.Outline.Valid services
    (fun label system => Listed label system ∧ Careful label system)
    ⟨Booked, Job.Knows, Apart⟩ where
  own := by
    rintro ⟨world, jobs⟩ index choice job next after holds ⟨-, careful⟩ here acted
    obtain ⟨passed, free, -⟩ := careful job here
    have effect := act_effect acted holds.shared (holds.thread here) passed
    exact ⟨effect.booked, effect.knows holds.shared (holds.thread here) free here⟩
  other := by
    rintro ⟨world, jobs⟩ index rival choice job next bystander after holds ⟨-, careful⟩ here acted
      differ found
    obtain ⟨passed, free, recordings⟩ := careful job here
    have effect := act_effect acted holds.shared (holds.thread here) passed
    have apart : Apart bystander job := holds.pair differ found here
    have apart' : Apart job bystander := holds.pair (Ne.symm differ) here found
    obtain ⟨removed, carries, own⟩ := effect.carries
    refine ⟨?_, effect.unrecorded recordings found apart',
      effect.unheld free found (holds.thread found) apart⟩
    refine (holds.thread found).stable carries effect.refiled (fun scheduleId recorded same => ?_)
      fun schedule held => apart schedule held
    obtain ⟨schedule, held, rfl⟩ := own scheduleId same
    exact apart' schedule held recorded
  env := by
    rintro ⟨world, jobs⟩ event after holds ⟨-, careful⟩ changed
    cases changed
    obtain ⟨booked, store, removed, carries, disused⟩ := Outside.effect holds.shared careful
    have refiled : Refiled none world.store (event.apply world).store := by
      rw [store]
      exact .refl _ _
    exact ⟨booked, fun found => (holds.thread found).stable carries refiled
      (disused _ (List.mem_of_getElem? found)) fun _ _ never => (by cases never)⟩
  enter := by
    rintro system order holds ⟨listed, -⟩
    obtain ⟨knows, holding, recording⟩ := enter_knows listed
    refine ⟨knows, fun found => ⟨fun schedule held => ?_, fun schedule held recorded => ?_⟩⟩
    · rw [holding] at held
      cases held
    · rw [recording] at recorded
      cases recorded

lemma booked_new : Booked World.new where
  sound := sound_new
  keyed := fun _ _ held => by cases held
  unowned := fun _ _ held => by cases held
  delayed := fun _ _ held => by cases held
  recorded := fun _ _ _ held => by cases held

/-- In every careful run no wakeup of a delayed flow is lost. -/
theorem noLostWakeup_of_careful {labels : List (Label JobChoice Outside Order)}
    {system : System World Job}
    (run : Runs services.step (fun label system => Listed label system ∧ Careful label system)
      ⟨World.new, []⟩ labels system) : NoLostWakeup system := by
  intro _ flowId stored held suspended _ scheduleId recorded
  have holds := wakeup_valid.runs booked_new run
  obtain ⟨-, schedule, found, -⟩ := holds.shared.recorded _ _ _ held suspended recorded
  rw [MemoryFlowScheduler.has, found]
  rfl

def timer : FlowRuntime :=
  { definition := (((FlowDefinition.new "timer").register ⟨"arm", false⟩).register
      ⟨"fire", false⟩).register ⟨"end", false⟩
    owner := "a", staleAfter := 30 }

def timers : FlowDueService := { runtime := timer, owner := "due", batchSize := 8, leaseFor := 30 }

/-- A flow suspends until 10, is resumed by a check at 10, and suspends again until 50; the check
acknowledges the first schedule, and the second is still there. -/
theorem noLostWakeup_second_delay :
    ∃ system, Runs services.step
      (fun label system => Listed label system ∧ Careful label system) ⟨World.new, []⟩
      [.spawn (.call timer (.start "t-1" [])), .act 0 (.inner ⟨0, .go⟩), .act 0 (.inner ⟨0, .go⟩),
        .act 0 (.inner ⟨0, .go⟩), .act 0 (.inner ⟨0, .outcome (.ok (.suspendUntil 10))⟩),
        .act 0 (.inner ⟨0, .go⟩), .act 0 (.inner ⟨0, .go⟩), .act 0 (.inner ⟨0, .go⟩),
        .env (.tick 10), .spawn (.check timers 10), .act 1 (.inner ⟨10, .summaries ["t-1"]⟩),
        .act 1 (.inner ⟨10, .go⟩), .act 1 (.inner ⟨10, .go⟩), .act 1 .next, .act 1 .next,
        .act 1 (.inner ⟨10, .go⟩), .act 1 (.inner ⟨10, .go⟩), .act 1 (.inner ⟨10, .go⟩),
        .act 1 (.inner ⟨10, .outcome (.ok (.suspendUntil 50))⟩), .act 1 (.inner ⟨10, .go⟩),
        .act 1 (.inner ⟨10, .go⟩), .act 1 (.inner ⟨10, .go⟩), .act 1 .next, .act 1 .next]
      system ∧
      ((∀ job ∈ system.threads, job.isReturned) ∧
        (system.shared.store "t-1").map (fun stored =>
          (stored.state.status, stored.resumeAt, stored.scheduleId)) =
            some (.suspended, some 50, some ⟨1⟩)) ∧
      NoLostWakeup system :=
  Runs.exists_and_of_execWhile (by decide) fun run _ => noLostWakeup_of_careful run

/-- A check at time 100 while the runtime's clock reads 0: the resume finds the delay not over and
returns without claiming, and the schedule is acknowledged. -/
theorem early_check_loses_wakeup :
    ∃ system, Runs services.step Listed ⟨World.new, []⟩
      [.spawn (.call timer (.start "t-1" [])), .act 0 (.inner ⟨0, .go⟩), .act 0 (.inner ⟨0, .go⟩),
        .act 0 (.inner ⟨0, .go⟩), .act 0 (.inner ⟨0, .outcome (.ok (.suspendUntil 100))⟩),
        .act 0 (.inner ⟨0, .go⟩), .act 0 (.inner ⟨0, .go⟩), .act 0 (.inner ⟨0, .go⟩),
        .spawn (.check timers 100), .act 1 (.inner ⟨0, .summaries []⟩), .act 1 (.inner ⟨0, .go⟩),
        .act 1 .next, .act 1 .next, .act 1 (.inner ⟨0, .go⟩), .act 1 (.inner ⟨0, .go⟩),
        .act 1 .next, .act 1 .next] system ∧
      ¬ NoLostWakeup system := by
  refine Runs.exists_of_test (fun system => (∀ job ∈ system.threads, job.isReturned) ∧
      (system.shared.store "t-1").any (fun stored =>
        decide (stored.state.status = .suspended) && stored.resumeAt.isSome &&
          decide (stored.scheduleId = some ⟨0⟩)) ∧
      system.shared.scheduler.has ⟨0⟩ = false) (by decide) fun _ reached kept => ?_
  obtain ⟨returned, suspended, forgotten⟩ := reached
  obtain ⟨stored, held, facts⟩ := (any_eq_true _ _).mp suspended
  simp only [Bool.and_eq_true, decide_eq_true_eq] at facts
  obtain ⟨⟨status, delayed⟩, recorded⟩ := facts
  have present := kept returned "t-1" stored held status delayed ⟨0⟩ recorded
  rw [forgotten] at present
  cases present

end Catga.Flow
