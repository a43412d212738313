import Catga.Flow.Machine

/-!
# The books of delayed flows

What the store and the scheduler agree on: a schedule that a suspended flow records is kept, and it
is a schedule of that flow at its step.  No call but a cancellation makes the scheduler forget a
schedule, and no call but the one that registers a flow makes the flow record one.
-/

namespace Catga.Flow

open MemoryFlowScheduler

variable {after : MemoryFlowScheduler} {task : Task} {flowId : String}

def Task.recording : Task → Option ScheduleId
  | .identify _ scheduleId _ => some scheduleId
  | _ => none

/-- What schedules and flows agree on. -/
structure Booked (world : World) : Prop where
  sound : world.scheduler.Sound
  keyed : ∀ flowId stored, world.store flowId = some stored → stored.state.id = flowId
  unowned : ∀ flowId stored, world.store flowId = some stored →
    stored.state.status = .suspended → stored.state.owner = none
  delayed : ∀ flowId stored, world.store flowId = some stored →
    stored.state.status = .suspended → stored.resumeAt.isSome → stored.wait = none
  /-- A schedule that a suspended flow records is the flow's own, and the flow waits on nothing
  else. -/
  recorded : ∀ flowId stored scheduleId, world.store flowId = some stored →
    stored.state.status = .suspended → stored.scheduleId = some scheduleId →
    stored.wait = none ∧ ∃ schedule, world.scheduler.schedules.lookup scheduleId = some schedule ∧
      schedule.target = (stored.state.id, stored.stepName)

/-- What is required of a continuation that is written, with `lookup` the schedules kept. -/
structure Bookable (scheduler : MemoryFlowScheduler) (next : FlowContinuation) : Prop where
  unowned : next.state.owner = none
  delayed : next.resumeAt.isSome → next.wait = none
  recorded : ∀ scheduleId, next.scheduleId = some scheduleId →
    next.wait = none ∧ ∃ schedule, scheduler.schedules.lookup scheduleId = some schedule ∧
      schedule.target = (next.state.id, next.stepName)

variable {scheduler before : MemoryFlowScheduler} {scheduleId : ScheduleId}
  {next : FlowContinuation} {removed : Option ScheduleId} {runtime : FlowRuntime}

lemma Bookable.of_unscheduled (unowned : next.state.owner = none)
    (delayed : next.resumeAt = none ∨ next.wait = none) (unscheduled : next.scheduleId = none) :
    Bookable scheduler next := by
  refine ⟨unowned, fun late => ?_, fun scheduleId recorded => ?_⟩
  · rcases delayed with prompt | quiet
    · rw [prompt] at late
      cases late
    · exact quiet
  · rw [unscheduled] at recorded
    cases recorded

/-- How the schedules may change: identities are allocated upwards, none is reused, and at most
`removed` is forgotten. -/
structure Carries (removed : Option ScheduleId) (before after : MemoryFlowScheduler) : Prop where
  allocated : before.nextId ≤ after.nextId
  old : ∀ scheduleId schedule, scheduleId.id < before.nextId →
    after.schedules.lookup scheduleId = some schedule →
    before.schedules.lookup scheduleId = some schedule
  kept : ∀ scheduleId schedule, before.schedules.lookup scheduleId = some schedule →
    removed ≠ some scheduleId → after.schedules.lookup scheduleId = some schedule

lemma Carries.of_eq (schedules : after.schedules = before.schedules)
    (nextId : after.nextId = before.nextId) : Carries none before after where
  allocated := le_of_eq nextId.symm
  old := fun _ _ _ found => by rwa [schedules] at found
  kept := fun _ _ found _ => by rwa [schedules]

lemma Carries.refl (scheduler) : Carries none scheduler scheduler :=
  .of_eq rfl rfl

lemma Carries.scheduleResume {stateId dueAt result}
    (sound : before.Sound)
    (scheduled : before.scheduleResume flowId stateId dueAt = (after, result)) :
    Carries none before after := by
  obtain ⟨-, allocated, ⟨same, -⟩ | ⟨-, -, inserted⟩⟩ :=
    scheduleResume_spec sound scheduled
  · exact ⟨allocated, fun _ _ _ found => by rwa [same] at found, fun _ _ found _ => by rwa [same]⟩
  · have other : ∀ scheduleId : ScheduleId, scheduleId.id < before.nextId →
        after.schedules.lookup scheduleId = before.schedules.lookup scheduleId := by
      intro scheduleId old
      rw [inserted]
      refine AList.lookup_insert_ne fun same => ?_
      rw [same] at old
      exact absurd old (lt_irrefl _)
    exact ⟨allocated, fun scheduleId _ old found => (other scheduleId old).symm.trans found,
      fun scheduleId schedule found _ =>
        (other scheduleId (sound.ids _ _ found).2).trans found⟩

lemma Carries.ackDue {owner} (sound : scheduler.Sound) :
    Carries (some scheduleId) scheduler (scheduler.ackDue owner scheduleId).1 := by
  obtain ⟨-, nextId, same | erased⟩ :=
    ackDue_spec owner scheduleId sound
  · exact ⟨le_of_eq nextId.symm, fun _ _ _ found => by rwa [same] at found,
      fun _ _ found _ => by rwa [same]⟩
  · refine ⟨le_of_eq nextId.symm, fun other schedule _ found => ?_,
      fun other schedule found differs => ?_⟩
    · rw [erased] at found
      by_cases here : other = scheduleId
      · subst here
        rw [AList.lookup_erase] at found
        cases found
      · exact (AList.lookup_erase_ne here).symm.trans found
    · rw [erased]
      exact (AList.lookup_erase_ne fun here => differs (congrArg some here.symm)).trans found

namespace Booked

variable {world after : World} {scheduler : MemoryFlowScheduler}

lemma put (booked : Booked world) {history} (key : next.state.id = flowId)
    (fits : next.state.status = .suspended → Bookable world.scheduler next) :
    Booked { world with
      store := Function.update world.store flowId (some next), history } := by
  refine ⟨booked.sound, fun other stored held => ?_, fun other stored held suspended => ?_,
    fun other stored held suspended => ?_, fun other stored scheduleId held suspended => ?_⟩
  all_goals
    obtain ⟨rfl, ⟨⟩⟩ | ⟨-, held⟩ := Foundation.update_eq_some held
  · exact key
  · exact booked.keyed other stored held
  · exact (fits suspended).unowned
  · exact booked.unowned other stored held suspended
  · exact (fits suspended).delayed
  · exact booked.delayed other stored held suspended
  · exact (fits suspended).recorded scheduleId
  · exact booked.recorded other stored scheduleId held suspended

/-- Changing the schedules keeps the books if no suspended flow records what is forgotten. -/
lemma carry (booked : Booked world) (sound : scheduler.Sound)
    (carries : Carries removed world.scheduler scheduler)
    (disused : ∀ flowId stored, world.store flowId = some stored →
      stored.state.status = .suspended → ∀ scheduleId, stored.scheduleId = some scheduleId →
        removed ≠ some scheduleId) : Booked { world with scheduler } := by
  refine { booked with sound, recorded := ?_ }
  intro flowId stored scheduleId held suspended recorded
  obtain ⟨quiet, schedule, found, target⟩ :=
    booked.recorded flowId stored scheduleId held suspended recorded
  exact ⟨quiet, schedule, carries.kept _ _ found
    (disused flowId stored held suspended scheduleId recorded), target⟩

lemma recarry (booked : Booked world) (sound : scheduler.Sound)
    (carries : Carries none world.scheduler scheduler) : Booked { world with scheduler } :=
  booked.carry sound carries fun _ _ _ _ _ _ never => by cases never

end Booked

/-- What a call carries about a delayed flow is true of it: the flow is suspended, and a schedule
about to be recorded is the flow's own. -/
def Task.Filed (scheduler : MemoryFlowScheduler) : Task → Prop
  | .schedule found _ =>
    found.state.status = .suspended ∧ found.state.owner = none ∧ found.wait = none
  | .identify found scheduleId _ =>
    found.state.owner = none ∧ found.wait = none ∧
      ∃ schedule, scheduler.schedules.lookup scheduleId = some schedule ∧
        schedule.target = (found.state.id, found.stepName)
  | .cancel _ | .cancelWrite _ | .cancelSchedule _ _ => False
  | _ => True

lemma Task.Idle.filed (idle : task.Idle) : task.Filed scheduler := by
  cases task with
  | schedule | identify | cancel | cancelWrite | cancelSchedule =>
    exact idle.elim
  | _ => trivial

lemma Task.Filed.carries (filed : task.Filed before) (carries : Carries removed before after)
    (apart : ∀ scheduleId ∈ task.recording, removed ≠ some scheduleId) : task.Filed after := by
  cases task with
  | identify found scheduleId =>
    obtain ⟨unowned, quiet, schedule, kept, target⟩ := filed
    exact ⟨unowned, quiet, schedule, carries.kept _ _ kept (apart scheduleId rfl), target⟩
  | schedule => exact filed
  | cancel | cancelWrite | cancelSchedule => exact filed
  | _ => trivial

namespace FlowRuntime

variable {now : Nat} {world after : World} {task next : Task}

variable {expected installed : FlowContinuation} {exactly : Bool} {deed : Deed}
  {continuation : FlowContinuation}

lemma Installs.bookable (installs : Installs runtime now task expected installed exactly deed next)
    (filed : task.Filed world.scheduler) (suspended : installed.state.status = .suspended) :
    Bookable world.scheduler installed := by
  cases installs with
  | transition shape | await shape | launchClaim _ shape | launchSettle shape =>
    rw [shape]
    exact .of_unscheduled rfl (.inl rfl) rfl
  | suspend shape =>
    rw [shape]
    exact .of_unscheduled rfl (.inr rfl) rfl
  | identify shape =>
    obtain ⟨unowned, quiet, schedule, kept, target⟩ := filed
    rw [shape]
    refine ⟨unowned, fun _ => quiet, fun other same => ?_⟩
    cases same
    exact ⟨quiet, schedule, kept, target⟩
  | claim phase_eq shape =>
    rw [shape, phase_eq] at suspended
    split at suspended <;> cases suspended
  | complete shape | rollBack _ shape | fail _ shape | undone shape | giveUp shape
  | cancel shape =>
    rw [shape] at suspended
    cases suspended

lemma Acts.booked (acts : Acts runtime now world task after next) (booked : Booked world)
    (filed : task.Filed world.scheduler) : Booked after := by
  cases acts with
  | won installs => exact booked.put rfl (installs.bookable filed)
  | created created =>
    obtain ⟨rfl, -⟩ := Store.create_eq_some created
    exact booked.put rfl fun _ => .of_unscheduled rfl (.inl rfl) rfl
  | recorded recorded =>
    obtain ⟨current, wait, held, -, waiting, ⟨-, rfl⟩ | rfl⟩ :=
      Store.recordWait_eq_some recorded
    · exact booked
    · exact booked.put (booked.keyed _ current held) fun suspended =>
        .of_unscheduled (booked.unowned _ current held suspended) (.inl rfl) rfl
  | beat beaten =>
    obtain ⟨current, held, owned, -, rfl⟩ := Store.heartbeat_eq_some beaten
    refine booked.put (booked.keyed _ current held) fun suspended => ?_
    rw [booked.unowned _ current held suspended] at owned
    cases owned
  | scheduled _ scheduled | unscheduled _ scheduled =>
    exact booked.recarry (scheduleResume_spec booked.sound scheduled).1
      (.scheduleResume booked.sound scheduled)
  | unschedule => exact filed.elim
  | _ => exact booked

lemma Acts.carries (acts : Acts runtime now world task after next) (booked : Booked world)
    (filed : task.Filed world.scheduler) : Carries none world.scheduler after.scheduler := by
  cases acts with
  | scheduled _ scheduled | unscheduled _ scheduled => exact .scheduleResume booked.sound scheduled
  | unschedule => exact filed.elim
  | _ => exact .refl _

lemma filed_compensate : (compensate continuation).Filed scheduler := by
  unfold compensate
  split <;> trivial

lemma Installs.filed (installs : Installs runtime now task expected installed exactly deed next)
    (filed : task.Filed scheduler) : next.Filed scheduler := by
  cases installs with
  | claim =>
    unfold drive
    split
    · exact filed_compensate
    · trivial
  | suspend shape => rw [shape]; exact ⟨rfl, rfl, rfl⟩
  | rollBack => exact filed_compensate
  | undone => exact filed_compensate
  | cancel => exact filed.elim
  | identify => exact idle_afterIdentity.filed
  | launchSettle => exact idle_afterLaunch.filed
  | _ => trivial

lemma Follows.filed (follows : Follows continuation next) : next.Filed scheduler := by
  cases follows with
  | idle idle => exact idle.filed
  | _ => trivial

lemma Acts.filed (acts : Acts runtime now world task after next) (booked : Booked world)
    (filed : task.Filed world.scheduler) : next.Filed after.scheduler := by
  cases acts with
  | read reads =>
    cases reads with
    | idle idle => exact idle.filed
    | reconcile held suspended _ delayed =>
      exact ⟨suspended, booked.unowned _ _ held suspended,
        booked.delayed _ _ held suspended delayed⟩
    | cancel => exact filed.elim
    | _ => trivial
  | won installs => exact installs.filed filed
  | lost writes => exact (idle_lost writes).filed
  | failed writes => exact (idle_failed writes).filed
  | scheduled _ scheduled =>
    obtain ⟨sound, -, ⟨same, mapped⟩ | ⟨fresh, -, inserted⟩⟩ :=
      scheduleResume_spec booked.sound scheduled
    · obtain ⟨schedule, kept, target⟩ := booked.sound.targets _ _ (mapped _ rfl)
      exact ⟨filed.2.1, filed.2.2, schedule, by rw [same]; exact kept, target⟩
    · cases fresh
      exact ⟨filed.2.1, filed.2.2, _, by rw [inserted]; exact AList.lookup_insert .., rfl⟩
  | unscheduled => exact idle_identityFailed.filed
  | fenced _ idle => exact idle.filed
  | beat _ stays =>
    rcases stays with rfl | idle
    · exact filed
    · exact idle.filed
  | finished follows => exact follows.filed
  | _ => trivial

lemma Installs.recording
    (installs : Installs runtime now task expected installed exactly deed next)
    (suspended : installed.state.status = .suspended)
    (recorded : installed.scheduleId = some scheduleId) : task.recording = some scheduleId := by
  cases installs with
  | identify shape =>
    rwa [shape] at recorded
  | complete shape | undone shape =>
    rw [shape] at suspended
    cases suspended
  | claim _ shape | transition shape | suspend shape | await shape | rollBack _ shape
  | fail _ shape | giveUp shape | cancel shape | launchClaim _ shape | launchSettle shape =>
    rw [shape] at recorded
    cases recorded

end FlowRuntime

/-- Every continuation stays as it was, or is suspended with a schedule only if that is the one
being recorded. -/
def Refiled (recording : Option ScheduleId) (before after : Store) : Prop :=
  ∀ flowId : String, after flowId = before flowId ∨
    ∃ later, after flowId = some later ∧ ∀ scheduleId, later.state.status = .suspended →
      later.scheduleId = some scheduleId → recording = some scheduleId

lemma Refiled.refl (recording : Option ScheduleId) (store) :
    Refiled recording store store := fun _ => .inl rfl

lemma refiled_update {recording store}
    (records : ∀ scheduleId, next.state.status = .suspended →
      next.scheduleId = some scheduleId → recording = some scheduleId) :
    Refiled recording store (Function.update store flowId (some next)) := by
  intro other
  by_cases here : other = flowId
  · subst here
    exact .inr ⟨next, Function.update_self .., records⟩
  · exact .inl (Function.update_of_ne here ..)

variable {world after : World}

variable {now : Nat} {next : Task} (acts : FlowRuntime.Acts runtime now world task after next)
  (booked : Booked world)
include acts booked

lemma FlowRuntime.Acts.refiled : Refiled task.recording world.store after.store := by
  cases acts with
  | won installs =>
    exact refiled_update fun _ suspended recorded => installs.recording suspended recorded
  | created created =>
    obtain ⟨rfl, -⟩ := Store.create_eq_some created
    exact refiled_update fun _ _ never => by cases never
  | recorded recorded =>
    obtain ⟨current, wait, held, -, waiting, ⟨-, rfl⟩ | rfl⟩ :=
      Store.recordWait_eq_some recorded
    · exact Refiled.refl _ _
    · exact refiled_update fun _ _ never => by cases never
  | beat beaten =>
    obtain ⟨current, held, owned, -, rfl⟩ := Store.heartbeat_eq_some beaten
    refine refiled_update fun _ suspended _ => ?_
    rw [booked.unowned _ current held suspended] at owned
    cases owned
  | _ => exact Refiled.refl _ _

/-- A call records a schedule it was recording, or the one of the target it has scheduled. -/
lemma FlowRuntime.Acts.recording (records : next.recording = some scheduleId) :
    task.recording = some scheduleId ∨ world.scheduler.nextId ≤ scheduleId.id ∨
      ∃ found sweep, task = .schedule found sweep ∧
        world.scheduler.targetSchedules.lookup (found.state.id, found.stepName) =
          some scheduleId := by
  have idle : ∀ {idle : Task}, idle.Idle → idle.recording ≠ some scheduleId := by
    intro idle quiet same
    cases idle with
    | identify => exact quiet
    | _ => cases same
  cases acts with
  | read reads =>
    cases reads with
    | idle quiet => exact absurd records (idle quiet)
    | _ => cases records
  | won installs =>
    cases installs with
    | claim =>
      unfold drive compensate at records
      split at records
      · split at records <;> cases records
      · cases records
    | rollBack | undone =>
      unfold compensate at records
      split at records <;> cases records
    | cancel => split at records <;> cases records
    | identify => exact absurd records (idle idle_afterIdentity)
    | launchSettle => exact absurd records (idle idle_afterLaunch)
    | _ => cases records
  | lost writes => exact absurd records (idle (idle_lost writes))
  | failed writes => exact absurd records (idle (idle_failed writes))
  | scheduled _ scheduled =>
    cases records
    obtain ⟨-, -, ⟨-, mapped⟩ | ⟨fresh, -, -⟩⟩ :=
      scheduleResume_spec booked.sound scheduled
    · exact .inr (.inr ⟨_, _, rfl, mapped _ rfl⟩)
    · cases fresh
      exact .inr (.inl (le_refl _))
  | unscheduled => exact absurd records (idle idle_identityFailed)
  | fenced _ quiet => exact absurd records (idle quiet)
  | beat _ stays =>
    rcases stays with rfl | quiet
    · exact .inl records
    · exact absurd records (idle quiet)
  | finished follows =>
    cases follows with
    | idle quiet => exact absurd records (idle quiet)
    | _ => cases records
  | _ => cases records

end Catga.Flow
