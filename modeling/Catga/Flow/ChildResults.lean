import Catga.Flow.Machine

/-!
# Reported child results

A child reports its result under the version its parent had when the call read it, and launching
children changes that version.  A report is safe if, when its write reaches the store, the parent's
version is still the one that was read, the child's result is already there, or the parent waits on
something else.
-/

namespace Catga.Flow

open Threads Transition Option WaitCondition List

/-- How many waits a flow has been suspended on so far; the number of a flow's current wait. -/
def waits (flowId : String) (history : List Event) : Nat :=
  history.countP fun event => event.flowId = flowId ∧ event.deed = .waited

/-- What a reporting call is about: the child, its parent, and the parent's wait at the call. -/
structure Ticket where
  flowId : String
  childId : String
  wait : Nat

/-- A call, with its ticket if it reports a child's result. -/
structure Reporter where
  thread : Thread
  ticket : Option Ticket

variable (world : World)

def Request.ticket : Request → Option Ticket
  | .recordWait flowId childId _ => some ⟨flowId, childId, waits flowId world.history⟩
  | _ => none

def reporters : Machine World Reporter Choice Nat (FlowRuntime × Request) where
  act := fun choice reporter world =>
    (reporter.thread.act choice world).map fun moved =>
      (moved.1, { reporter with thread := moved.2 })
  env := machine.env
  enter := fun call world =>
    { thread := machine.enter call world, ticket := call.2.ticket world }

variable (ticket : Ticket)

/-- While the parent still waits on the wait of the ticket, the child's result is recorded. -/
def Reported : Prop :=
  ∀ stored ∈ world.store ticket.flowId, ∀ wait ∈ stored.wait,
    waits ticket.flowId world.history = ticket.wait → wait.hasResult ticket.childId

def Task.success : Task → Option Reply
  | .returned (.ok reply) => some reply
  | _ => none

/-- A report that returned successfully is not lost while its parent is suspended on the wait that
was active when the call began. -/
def Reporter.Kept (reporter : Reporter) : Prop :=
  ∀ ticket ∈ reporter.ticket, reporter.thread.task.success.isSome →
    ∀ stored ∈ world.store ticket.flowId, stored.state.status = .suspended →
      ∀ wait ∈ stored.wait, waits ticket.flowId world.history = ticket.wait →
        wait.hasResult ticket.childId
deriving Decidable

/-- The version a call is about to record its report at. -/
def Task.recordsAt : Task → Option Nat
  | .recordWrite _ _ _ version => some version
  | _ => none

/-- A report that reaches the store while its parent is on the wait of the ticket finds the child's
result recorded, or finds the version it read and room for one more result. -/
def Unfenced : Label Choice Nat (FlowRuntime × Request) → System World Reporter → Prop
  | .act index _, system =>
    ∀ reporter ∈ system.threads[index]?, ∀ ticket ∈ reporter.ticket,
      ∀ version ∈ reporter.thread.task.recordsAt,
        ∀ stored ∈ system.shared.store ticket.flowId, ∀ wait ∈ stored.wait,
          waits ticket.flowId system.shared.history = ticket.wait →
            wait.hasResult ticket.childId ∨ stored.state.version = version ∧ wait.hasRoom
  | .env _, _ | .spawn _, _ => True

instance : ∀ label system, Decidable (Unfenced label system) := by
  rintro ⟨⟩ system <;> dsimp only [Unfenced] <;> infer_instance

namespace WaitCondition

variable {wait next : WaitCondition} {childId : String} {report : ChildReport}

/-- A later form of one wait: no result and no child is lost. -/
structure Extends (wait next : WaitCondition) : Prop where
  results : ∀ childId, wait.hasResult childId → next.hasResult childId
  children : ∀ childId, wait.acceptsChild childId → next.acceptsChild childId

lemma Extends.refl : wait.Extends wait := ⟨fun _ => id, fun _ => id⟩

lemma record_extends : wait.Extends (wait.record childId report) := by
  unfold record
  split
  · exact .refl
  · refine ⟨fun other reported => ?_, fun other accepted => accepted⟩
    simp only [hasResult, any_append, Bool.or_eq_true]
    exact .inl reported

lemma hasResult_record (fits : report.fits) (room : wait.hasRoom)
    (accepted : wait.acceptsChild childId) : (wait.record childId report).hasResult childId := by
  unfold record
  split_ifs with dropped
  · simpa [fits, room, accepted] using dropped
  · cases report <;>
      simp [hasResult, ChildReport.toResult, WaitResult.success, WaitResult.failure]

lemma record_eq_of_completedCount
    (same : (wait.record childId report).completedCount = wait.completedCount) :
    wait.record childId report = wait := by
  unfold record at same ⊢
  split_ifs with taken
  · rfl
  · simp [taken, completedCount] at same

lemma acceptsChild_eq_map :
    wait.acceptsChild childId = ((wait.childLaunches.map (·.childId)).isEmpty ||
      (wait.childLaunches.map (·.childId)).any (· == childId)) := by
  simp [acceptsChild, List.any_map, Function.comp_def]

lemma claimNextChild_eq_some {owner now claimFor}
    (claimed : wait.claimNextChild owner now claimFor = some (childId, next)) :
    now + claimFor ≤ latestTime ∧
      wait.setLaunch (claimable now) (.claimed owner (now + claimFor)) = some (childId, next) := by
  simp only [claimNextChild] at claimed
  split at claimed
  · rename_i within
    exact ⟨within, claimed⟩
  · cases claimed

lemma setLaunch_extends {test state}
    (set : wait.setLaunch test state = some (childId, next)) : wait.Extends next := by
  obtain ⟨index, -, set⟩ := bind_eq_some_iff.mp set
  obtain ⟨child, found, set⟩ := bind_eq_some_iff.mp set
  obtain ⟨-, rfl⟩ := Prod.mk.inj (Option.some.inj set)
  have same : (wait.childLaunches.set index { child with state }).map (·.childId) =
      wait.childLaunches.map (·.childId) := by
    rw [map_set]
    apply ext_getElem?
    intro other
    by_cases here : index = other
    · subst here
      obtain ⟨inside, -⟩ := List.getElem?_eq_some_iff.mp found
      rw [getElem?_set_self (by simpa using inside), getElem?_map, found]
      rfl
    · rw [getElem?_set_ne here]
  refine ⟨fun _ => id, fun other accepted => ?_⟩
  rw [acceptsChild_eq_map] at accepted ⊢
  rwa [same]

end WaitCondition

def WaitsSuspended : Prop :=
  ∀ (flowId : String) (stored : FlowContinuation), world.store flowId = some stored →
    stored.wait.isSome → stored.state.status = .suspended ∧ stored.resumeAt = none

/-- What a call carries agrees with how it got there: a flow that runs or is delayed waits on
nothing, and a launch belongs to the wait that was read. -/
def Task.Coherent : Task → Prop
  | .step found | .complete found | .undo found | .undone found | .schedule found _
  | .identify found _ _ => found.wait = none
  | .launchClaim found wait _ _ => found.wait = some wait
  | .launchSettle found nextWait _ _ _ _ => ∃ wait, found.wait = some wait ∧ wait.Extends nextWait
  | _ => True

/-- The tasks of a call that is about to claim a child, has claimed one, or is about to settle its
claim. -/
def Task.midLaunch : Task → Bool
  | .launchClaim _ _ _ _ | .launching _ _ _ | .launchSettle _ _ _ _ _ _ => true
  | _ => false

lemma Task.Idle.coherent {task : Task} (idle : task.Idle) : task.Coherent := by
  cases task with
  | step _ | complete _ | undo _ | undone _ | schedule _ _ | identify _ _ _
  | launchClaim | launchSettle => exact idle.elim
  | _ => trivial

/-- While a wait lasts, what is stored of it is related to what was stored before. -/
def WaitsRelated (related : WaitCondition → WaitCondition → Prop) (before after : World) : Prop :=
  ∀ flowId : String, waits flowId before.history ≤ waits flowId after.history ∧
    (waits flowId after.history = waits flowId before.history →
      ∀ later ∈ after.store flowId, ∀ nextWait ∈ later.wait,
        ∃ stored ∈ before.store flowId, ∃ wait ∈ stored.wait, related wait nextWait)

/-- A flow that is still on the same wait has lost none of its results. -/
def Keeps : World → World → Prop := WaitsRelated WaitCondition.Extends

variable {related : WaitCondition → WaitCondition → Prop}

lemma WaitsRelated.refl (reflexive : ∀ wait, related wait wait) (world : World) :
    WaitsRelated related world world :=
  fun _ => ⟨le_refl _, fun _ later held nextWait waiting =>
    ⟨later, held, nextWait, waiting, reflexive nextWait⟩⟩

lemma Keeps.refl : Keeps world world := WaitsRelated.refl (fun _ => .refl) world

lemma waits_le_cons (flowId : String) (event : Event) (history : List Event) :
    waits flowId history ≤ waits flowId (event :: history) := by
  simp only [waits, countP_cons]
  omega

variable {flowId : String} {report : ChildReport} {next : FlowContinuation} {history : List Event}

/-- Replacing a continuation relates the waits if a new wait is recorded as one and the same wait is
related. -/
lemma WaitsRelated.update (reflexive : ∀ wait, related wait wait) {world}
    (grows : ∀ other, waits other world.history ≤ waits other history)
    (relates : waits flowId history = waits flowId world.history →
      ∀ nextWait ∈ next.wait, ∃ stored ∈ world.store flowId, ∃ wait ∈ stored.wait,
        related wait nextWait) :
    WaitsRelated related world { world with
      store := Function.update world.store flowId (some next), history } := by
  refine fun other => ⟨grows other, fun same later held nextWait waiting => ?_⟩
  obtain ⟨rfl, ⟨⟩⟩ | ⟨-, held⟩ := Foundation.update_eq_some held
  · exact relates same nextWait waiting
  · exact ⟨later, held, nextWait, waiting, reflexive nextWait⟩

lemma WaitsSuspended.update {world} (suspended : WaitsSuspended world)
    (settled : next.wait.isSome → next.state.status = .suspended ∧ next.resumeAt = none) :
    WaitsSuspended { world with
      store := Function.update world.store flowId (some next), history } := by
  intro other stored held waiting
  obtain ⟨rfl, ⟨⟩⟩ | ⟨-, held⟩ := Foundation.update_eq_some held
  · exact settled waiting
  · exact suspended other stored held waiting

namespace FlowRuntime

variable {runtime : FlowRuntime} {now : Nat} {world after : World} {task next : Task}
  {continuation : FlowContinuation}

lemma coherent_compensate (settled : continuation.wait = none) :
    (compensate continuation).Coherent := by
  unfold compensate
  split
  · exact settled
  · trivial

variable {expected installed : FlowContinuation} {exactly : Bool} {deed : Deed}

section

variable (installs : Installs runtime now task expected installed exactly deed next)
include installs

/-- What a write other than those of launches installs waits on nothing or on a new wait. -/
lemma Installs.unlaunched (coherent : task.Coherent) (elsewhere : task.midLaunch = false)
    (waiting : installed.wait.isSome) : deed = .waited := by
  cases installs with
  | await => rfl
  | launchClaim | launchSettle => cases elsewhere
  | identify shape | complete shape | undone shape =>
    rw [shape] at waiting
    rw [show _ = none from coherent] at waiting
    cases waiting
  | claim _ shape | transition shape | suspend shape | rollBack _ shape | fail _ shape
  | giveUp shape | cancel shape =>
    rw [shape] at waiting
    cases waiting

lemma Installs.waitsSuspended (coherent : task.Coherent) (waiting : installed.wait.isSome) :
    installed.state.status = .suspended ∧ installed.resumeAt = none := by
  have unlaunched := fun elsewhere => installs.unlaunched coherent elsewhere waiting
  cases installs with
  | await shape | launchClaim _ shape | launchSettle shape => rw [shape]; exact ⟨rfl, rfl⟩
  | _ => cases unlaunched rfl

lemma Installs.coherent (coherent : task.Coherent) : next.Coherent := by
  cases installs with
  | claim _ shape =>
    unfold drive
    split
    · exact coherent_compensate (by rw [shape])
    · exact (by rw [shape] : installed.wait = none)
  | suspend shape => exact (by rw [shape] : installed.wait = none)
  | rollBack _ shape => exact coherent_compensate (by rw [shape])
  | undone shape => exact coherent_compensate (by rw [shape]; exact coherent)
  | cancel => split <;> trivial
  | identify => exact idle_afterIdentity.coherent
  | launchSettle => exact idle_afterLaunch.coherent
  | _ => trivial

lemma Installs.extends (coherent : task.Coherent) {nextWait}
    (waiting : installed.wait = some nextWait) :
    deed = .waited ∨ exactly = true ∧ ∃ wait ∈ expected.wait, wait.Extends nextWait := by
  have unlaunched := fun elsewhere => installs.unlaunched coherent elsewhere (by rw [waiting]; rfl)
  cases installs with
  | launchClaim claimed shape =>
    rw [shape] at waiting
    cases waiting
    exact .inr ⟨rfl, _, coherent, setLaunch_extends (claimNextChild_eq_some claimed).2⟩
  | launchSettle shape =>
    rw [shape] at waiting
    cases waiting
    obtain ⟨wait, found, extended⟩ := coherent
    exact .inr ⟨rfl, wait, found, extended⟩
  | _ => exact .inl (unlaunched rfl)

end

lemma Follows.coherent (follows : Follows continuation next) (settled : continuation.wait = none)
    : next.Coherent := by
  cases follows with
  | idle idle => exact idle.coherent
  | complete => exact settled
  | _ => trivial

variable (acts : Acts runtime now world task after next)
include acts

lemma Acts.coherent (coherent : task.Coherent) (suspended : WaitsSuspended world) :
    next.Coherent := by
  cases acts with
  | read reads =>
    cases reads with
    | idle idle => exact idle.coherent
    | launch _ waiting => exact waiting
    | finish _ waiting set =>
      obtain ⟨⟨childId, nextWait⟩, launched, rfl⟩ := map_eq_some_iff.mp set
      exact ⟨_, waiting, setLaunch_extends launched⟩
    | @reconcile flowId _ _ found held _ _ delayed =>
      cases waiting : found.wait with
      | none => exact waiting
      | some =>
        rw [(suspended flowId found held (by rw [waiting]; rfl)).2] at delayed
        cases delayed
    | _ => trivial
  | won installs => exact installs.coherent coherent
  | lost writes => exact (idle_lost writes).coherent
  | failed writes => exact (idle_failed writes).coherent
  | unscheduled => exact idle_identityFailed.coherent
  | fenced _ idle => exact idle.coherent
  | beat _ stays =>
    rcases stays with rfl | idle
    · exact coherent
    · exact idle.coherent
  | finished follows => exact follows.coherent coherent
  | scheduled | rolledBack => exact coherent
  | _ => trivial

lemma Acts.waitsSuspended (coherent : task.Coherent) (suspended : WaitsSuspended world) :
    WaitsSuspended after := by
  cases acts with
  | won installs =>
    exact suspended.update (installs.waitsSuspended coherent)
  | created created =>
    obtain ⟨rfl, -⟩ := Store.create_eq_some created
    exact suspended.update fun waiting => by cases waiting
  | recorded recorded =>
    obtain ⟨current, wait, held, -, waiting, ⟨-, rfl⟩ | rfl⟩ :=
      Store.recordWait_eq_some recorded
    · exact suspended
    · exact suspended.update fun _ => ⟨(suspended _ _ held (by rw [waiting]; rfl)).1, rfl⟩
  | beat beaten =>
    obtain ⟨current, held, -, -, rfl⟩ := Store.heartbeat_eq_some beaten
    exact suspended.update (suspended _ current held)
  | _ => exact suspended

lemma Acts.waitsRelated (reflexive : ∀ wait, related wait wait)
    (record : ∀ wait childId report, related wait (wait.record childId report))
    (installs : ∀ {expected installed exactly deed}, Installs
      runtime now task expected installed exactly deed next → ∀ nextWait, installed.wait = some
      nextWait → deed = .waited ∨ exactly = true ∧ ∃ wait ∈ expected.wait, related wait nextWait) :
    WaitsRelated related world after := by
  cases acts with
  | @won _ _ expected current installed exactly deed installed held _ _ whole =>
    refine .update reflexive (fun other => waits_le_cons ..) fun same nextWait waiting => ?_
    obtain rfl | ⟨rfl, wait, found, relates⟩ := installs installed nextWait waiting
    · simp [waits] at same
    · obtain rfl := whole rfl
      exact ⟨current, held, wait, found, relates⟩
  | created created =>
    obtain ⟨rfl, -⟩ := Store.create_eq_some created
    exact .update reflexive (fun other => waits_le_cons ..) fun _ _ waiting => by cases waiting
  | recorded recorded =>
    obtain ⟨current, wait, held, -, waiting, ⟨-, rfl⟩ | rfl⟩ :=
      Store.recordWait_eq_some recorded
    · exact .refl reflexive world
    · refine .update reflexive (fun _ => le_refl _) fun _ nextWait next => ?_
      cases next
      exact ⟨current, held, wait, waiting, record wait _ _⟩
  | beat beaten =>
    obtain ⟨current, held, -, -, rfl⟩ := Store.heartbeat_eq_some beaten
    exact .update reflexive (fun other => waits_le_cons ..) fun _ nextWait waiting =>
      ⟨current, held, nextWait, waiting, reflexive nextWait⟩
  | _ => exact WaitsRelated.refl reflexive world

lemma Acts.keeps (coherent : task.Coherent) :
    Keeps world after :=
  acts.waitsRelated (fun _ => .refl) (fun _ _ _ => record_extends)
    fun installs _ => installs.extends coherent

end FlowRuntime

lemma Store.recordWait_ne_none {store : Store} {childId version now}
    {current wait} (held : store flowId = some current)
    (same : current.state.version = version) (waiting : current.wait = some wait) :
    store.recordWait flowId version childId report now ≠ none := by
  simp only [recordWait, held, bind_eq_bind, bind_some, same, waiting, if_true]
  split <;> exact some_ne_none _

def Accepting : Prop :=
  ∀ stored ∈ world.store ticket.flowId, ∀ wait ∈ stored.wait,
    waits ticket.flowId world.history = ticket.wait → wait.acceptsChild ticket.childId

/-- A reporting call has yet to read its parent, or is about to record a fitting report of a child
of the wait, or has failed, or its report is recorded. -/
def Ticket.Known (task : Task) : Prop :=
  ticket.wait ≤ waits ticket.flowId world.history ∧
    ((∃ report, task = .record ticket.flowId ticket.childId report) ∨
      (∃ report version, task = .recordWrite ticket.flowId ticket.childId report version ∧
        report.fits ∧ Accepting world ticket) ∨
      (∃ error, task = .fails error) ∨ Reported world ticket)

section

variable {before after : World} {ticket : Ticket}

lemma Reported.keeps (reported : Reported before ticket) (keeps : Keeps before after)
    (begun : ticket.wait ≤ waits ticket.flowId before.history) : Reported after ticket := by
  intro later held nextWait waiting here
  obtain ⟨grows, kept⟩ := keeps ticket.flowId
  obtain ⟨stored, was, wait, waited, extended⟩ := kept (by omega) later held nextWait waiting
  exact extended.results _ (reported stored was wait waited (by omega))

lemma Accepting.keeps (accepting : Accepting before ticket) (keeps : Keeps before after)
    (begun : ticket.wait ≤ waits ticket.flowId before.history) : Accepting after ticket := by
  intro later held nextWait waiting here
  obtain ⟨grows, kept⟩ := keeps ticket.flowId
  obtain ⟨stored, was, wait, waited, extended⟩ := kept (by omega) later held nextWait waiting
  exact extended.children _ (accepting stored was wait waited (by omega))

lemma Ticket.Known.keeps {task} (known : ticket.Known before task)
    (keeps : Keeps before after) : ticket.Known after task := by
  obtain ⟨begun, known⟩ := known
  refine ⟨le_trans begun (keeps ticket.flowId).1, ?_⟩
  obtain reading | ⟨report, version, writing, fits, accepting⟩ | failed | reported := known
  · exact .inl reading
  · exact .inr (.inl ⟨report, version, writing, fits, accepting.keeps keeps begun⟩)
  · exact .inr (.inr (.inl failed))
  · exact .inr (.inr (.inr (reported.keeps keeps begun)))

end

namespace FlowRuntime

variable {runtime : FlowRuntime} {now : Nat} {world after : World} {task next : Task}
  {pick : Pick} {ticket : Ticket}

/-- A call that is about to read its parent refuses the report, finds the parent finished, or goes
on to record a fitting report of a child of the wait it found. -/
lemma act_record
    (acted : runtime.act now world pick (.record ticket.flowId ticket.childId report) =
      some (after, next)) :
    after = world ∧ ((∃ error, next = .fails error) ∨
      (∃ found, world.store ticket.flowId = some found ∧ found.state.status.isTerminal) ∨
      ∃ found wait, world.store ticket.flowId = some found ∧ found.wait = some wait ∧
        wait.acceptsChild ticket.childId ∧ report.fits ∧
        next = .recordWrite ticket.flowId ticket.childId report found.state.version) := by
  cases pick with
  | go =>
    cases acted
    refine ⟨rfl, ?_⟩
    unfold reading
    split
    · exact .inl ⟨_, rfl⟩
    · exact .inl ⟨_, rfl⟩
    rename_i found read
    have held := Store.get_eq_some read
    unfold recordRead ensuring
    split
    · rename_i terminal
      exact .inr (.inl ⟨found, held, terminal⟩)
    split
    · exact .inl ⟨_, rfl⟩
    split
    · exact .inl ⟨_, rfl⟩
    rename_i wait waiting
    split
    · exact .inl ⟨_, rfl⟩
    rename_i accepted
    split
    · exact .inl ⟨_, rfl⟩
    rename_i fits
    exact .inr (.inr ⟨found, wait, held, waiting, by simpa using accepted, by simpa using fits,
      rfl⟩)
  | _ => cases acted

lemma reported_of_recordWrite {version} (fits : report.fits)
    (accepting : Accepting world ticket)
    (unfenced : ∀ stored ∈ world.store ticket.flowId, ∀ wait ∈ stored.wait,
      waits ticket.flowId world.history = ticket.wait →
        wait.hasResult ticket.childId ∨ stored.state.version = version ∧ wait.hasRoom) :
    Reported (recordWrite ticket.flowId ticket.childId report version world).1 ticket := by
  have taken : ∀ stored ∈ world.store ticket.flowId, ∀ wait ∈ stored.wait,
      waits ticket.flowId world.history = ticket.wait →
        (wait.record ticket.childId report).hasResult ticket.childId := by
    intro stored held wait waiting here
    rcases unfenced stored held wait waiting here with present | ⟨-, room⟩
    · exact record_extends.results _ present
    · exact hasResult_record fits room (accepting stored held wait waiting here)
  unfold recordWrite
  split
  · rename_i store recorded
    obtain ⟨current, wait, held, -, waiting, ⟨same, rfl⟩ | rfl⟩ :=
      Store.recordWait_eq_some recorded
    · intro stored found later waits' here
      have reported := taken stored found later waits' here
      cases held.symm.trans found
      cases waiting.symm.trans waits'
      rwa [record_eq_of_completedCount same] at reported
    · intro stored found later waits' here
      obtain rfl : current.withWait (wait.record ticket.childId report) world.clock = stored := by
        simpa using found
      cases waits'
      exact taken current held wait waiting here
  · rename_i fenced
    intro stored held wait waiting here
    rcases unfenced stored held wait waiting here with present | ⟨same, -⟩
    · exact present
    · -- At the version that was read the store would have answered.
      exact absurd fenced (Store.recordWait_ne_none held same waiting)

lemma known_act (acted : runtime.act now world pick task = some (after, next))
    (coherent : task.Coherent) (known : ticket.Known world task)
    (unfenced : ∀ version ∈ task.recordsAt, ∀ stored ∈ world.store ticket.flowId,
      ∀ wait ∈ stored.wait, waits ticket.flowId world.history = ticket.wait →
        wait.hasResult ticket.childId ∨ stored.state.version = version ∧ wait.hasRoom)
    (suspended : WaitsSuspended world) : ticket.Known after next := by
  have keeps := (act_acts acted).keeps coherent
  obtain ⟨begun, known⟩ := known
  refine ⟨le_trans begun (keeps ticket.flowId).1, ?_⟩
  obtain ⟨report, rfl⟩ | ⟨report, version, rfl, fits, accepting⟩ | ⟨error, rfl⟩ | reported := known
  · obtain ⟨rfl, failed | ⟨found, held, terminal⟩ | ⟨found, wait, held, waiting, accepted, fits,
      rfl⟩⟩ := act_record acted
    · exact .inr (.inr (.inl failed))
    · refine .inr (.inr (.inr fun stored was wait waiting => ?_))
      cases held.symm.trans was
      have suspended := (suspended _ _ held (by rw [mem_def.mp waiting]; rfl)).1
      rw [suspended] at terminal
      cases terminal
    · refine .inr (.inl ⟨report, _, rfl, fits, fun stored was later waits' _ => ?_⟩)
      cases held.symm.trans was
      cases waiting.symm.trans waits'
      exact accepted
  · cases pick with
    | go =>
      obtain ⟨rfl, rfl⟩ := Prod.mk.inj (Option.some.inj acted)
      exact .inr (.inr (.inr (reported_of_recordWrite fits accepting (unfenced version rfl))))
    | _ => cases acted
  · rw [act_fails] at acted
    cases acted
  · exact .inr (.inr (.inr (reported.keeps keeps begun)))

end FlowRuntime

lemma reporters_act {choice reporter next world after}
    (acted : reporters.act choice reporter world = some (after, next)) :
    next.ticket = reporter.ticket ∧
      reporter.thread.runtime.act choice.now world choice.pick reporter.thread.task =
        some (after, next.thread.task) := by
  obtain ⟨⟨world', thread⟩, moved, same⟩ := map_eq_some_iff.mp acted
  cases same
  refine ⟨rfl, ?_⟩
  unfold Thread.act at moved
  split at moved
  · obtain ⟨⟨world'', task⟩, ran, same⟩ := map_eq_some_iff.mp moved
    cases same
    exact ran
  · cases moved

lemma reporters_valid : Machine.Outline.Valid reporters Unfenced
    ⟨WaitsSuspended, fun world reporter => reporter.thread.task.Coherent ∧
      ∀ ticket ∈ reporter.ticket, ticket.Known world reporter.thread.task,
      fun _ _ => True⟩ := by
  refine .of_rely Keeps ?_ ?_ ?_ ?_
  · intro system index choice reporter next after suspended knows admitted here acted
    obtain ⟨same, ran⟩ := reporters_act acted
    have acts := FlowRuntime.act_acts ran
    refine ⟨acts.waitsSuspended knows.1 suspended,
      ⟨acts.coherent knows.1 suspended, fun ticket mine => ?_⟩, acts.keeps knows.1⟩
    rw [same] at mine
    exact FlowRuntime.known_act ran knows.1 (knows.2 ticket mine)
      (admitted reporter here ticket mine) suspended
  · intro system elapsed after suspended _ ticked
    cases ticked
    exact ⟨suspended, Keeps.refl system.shared⟩
  · intro system request suspended _
    obtain ⟨runtime, request⟩ := request
    cases request with
    | recordWait flowId childId report =>
      refine ⟨trivial, fun ticket mine => ?_⟩
      cases mine
      exact ⟨le_refl _, .inl ⟨report, rfl⟩⟩
    | _ => exact ⟨trivial, fun ticket mine => by cases mine⟩
  · intro before after reporter keeps knows
    exact ⟨knows.1, fun ticket mine => (knows.2 ticket mine).keeps keeps⟩

/-- In every run in which no report meets a changed version of its parent or a wait that is full, no
report that returned successfully is lost while its parent stays suspended on the wait. -/
theorem kept_of_unfenced {labels : List (Label Choice Nat (FlowRuntime × Request))}
    {system : System World Reporter}
    (run : Runs reporters.step Unfenced ⟨World.new, []⟩ labels system) :
    ∀ reporter ∈ system.threads, reporter.Kept system.shared := by
  have nothing : WaitsSuspended World.new := fun _ _ held => by cases held
  have holds := reporters_valid.runs nothing run
  intro reporter member ticket mine succeeded stored held _ wait waiting here
  obtain ⟨index, found⟩ := mem_iff_getElem?.mp member
  obtain ⟨-, ⟨report, reading⟩ | ⟨report, version, writing, -⟩ | ⟨error, failed⟩ | reported⟩ :=
    (holds.thread found).2 ticket mine
  · rw [reading] at succeeded
    cases succeeded
  · rw [writing] at succeeded
    cases succeeded
  · rw [failed] at succeeded
    cases succeeded
  · exact reported stored held wait waiting here

def batch : FlowDefinition :=
  ((FlowDefinition.new "batch").register ⟨"split", false⟩).register ⟨"join", false⟩

def twoChildren : WaitCondition :=
  { correlationId := "parts", policy := .all, expectedCount := 2, results := [], createdAt := 0,
    timeout := 100, childLaunches := [⟨"x", .pending⟩, ⟨"y", .pending⟩] }

/-- One child is launched and reports before the next launch is claimed. -/
theorem kept_between_launches :
    ∃ system, Runs reporters.step Unfenced ⟨World.new, []⟩
      [.spawn (⟨batch, "a", 30⟩, .start "b-1" []), .act 0 ⟨0, .go⟩, .act 0 ⟨0, .go⟩,
        .act 0 ⟨0, .go⟩, .act 0 ⟨0, .outcome (.ok (.wait twoChildren))⟩, .act 0 ⟨0, .go⟩,
        .spawn (⟨batch, "a", 30⟩, .launchWaitingChildren "b-1"), .act 1 ⟨0, .go⟩,
        .act 1 ⟨0, .go⟩, .act 1 ⟨0, .launched (.ok ())⟩, .act 1 ⟨0, .go⟩, .act 1 ⟨0, .go⟩,
        .spawn (⟨batch, "a", 30⟩, .recordWait "b-1" "x" (.success [7])), .act 2 ⟨0, .go⟩,
        .act 2 ⟨0, .go⟩, .act 2 ⟨0, .go⟩, .act 1 ⟨0, .go⟩, .act 1 ⟨0, .go⟩] system ∧
      (system.threads.map (·.thread.task.success.isSome) = [true, false, true] ∧
        (system.shared.store "b-1").map (·.state.status) = some .suspended) ∧
      ∀ reporter ∈ system.threads, reporter.Kept system.shared :=
  Runs.exists_and_of_execWhile (by decide) fun run _ => kept_of_unfenced run

/-- The launch of `y` is claimed between the read and the write of `x`'s report: the write is fenced
off, the call succeeds, and the parent waits on without `x`'s result. -/
theorem report_lost_to_launch :
    ∃ system, Runs reporters.step (fun _ _ => True) ⟨World.new, []⟩
      [.spawn (⟨batch, "a", 30⟩, .start "b-1" []), .act 0 ⟨0, .go⟩, .act 0 ⟨0, .go⟩,
        .act 0 ⟨0, .go⟩, .act 0 ⟨0, .outcome (.ok (.wait twoChildren))⟩, .act 0 ⟨0, .go⟩,
        .spawn (⟨batch, "a", 30⟩, .launchWaitingChildren "b-1"), .act 1 ⟨0, .go⟩,
        .act 1 ⟨0, .go⟩, .act 1 ⟨0, .launched (.ok ())⟩, .act 1 ⟨0, .go⟩, .act 1 ⟨0, .go⟩,
        .spawn (⟨batch, "a", 30⟩, .recordWait "b-1" "x" (.success [7])), .act 2 ⟨0, .go⟩,
        .act 1 ⟨0, .go⟩, .act 1 ⟨0, .go⟩, .act 2 ⟨0, .go⟩, .act 2 ⟨0, .go⟩, .act 2 ⟨0, .go⟩]
      system ∧
      ¬ ∀ reporter ∈ system.threads, reporter.Kept system.shared :=
  Runs.exists_of_execWhile _ _ _ _ _ (by decide)

end Catga.Flow
