import Catga.Flow.Runtime

/-!
# Calls of the flow runtimes

The machine of all calls on any number of runtimes over one store and one scheduler, and what one
action of a call can do: it reads, it wins or loses one conditional write, or it performs one of a
few other operations.  Every invariant of the runtime is a case analysis over these.
-/

namespace Catga.Flow

open Threads FlowContinuation Option

variable {continuation : FlowContinuation} {after : World} {report : ChildReport}
  {wait : WaitCondition}

/-- A call of a runtime. -/
inductive Request where
  | start (flowId : String) (data : List UInt8)
  | resume (flowId : String)
  | resumeAt (flowId : String) (now : Nat)
  | resumeScheduled (flowId stateId : String)
  | cancel (flowId : String)
  | recordWait (flowId childId : String) (report : ChildReport)
  | launchWaitingChildren (flowId : String)
  | heartbeat (flowId : String) (version : Nat)
  | reconcileDelayedSuspensions (maxResults maxScan : Nat)

def Request.task : Request → Task
  | .start flowId data => .start flowId data
  | .resume flowId => .resume flowId none
  | .resumeAt flowId now => .resume flowId (some now)
  | .resumeScheduled flowId stateId => .resumeScheduled flowId stateId
  | .cancel flowId => .cancel flowId
  | .recordWait flowId childId report => .record flowId childId report
  | .launchWaitingChildren flowId => .launch flowId 0 maxChildLaunchCasRetries
  | .heartbeat flowId version => .heartbeat flowId version
  | .reconcileDelayedSuspensions maxResults maxScan => .reconcile maxResults maxScan

/-- One call: the runtime it was made on, the point it has reached, and when it got there. -/
structure Thread where
  runtime : FlowRuntime
  task : Task
  /-- The clock at the last action; later readings are not before it. -/
  since : Nat

structure Choice where
  now : Nat
  pick : Pick

def Thread.act (choice : Choice) (thread : Thread) (world : World) : Option (World × Thread) :=
  if thread.since ≤ choice.now ∧ choice.now ≤ world.clock then
    (thread.runtime.act choice.now world choice.pick thread.task).map fun moved =>
      (moved.1, { thread with task := moved.2, since := world.clock })
  else none

def World.tick (elapsed : Nat) (world : World) : World :=
  { world with clock := world.clock + elapsed }

/-- Any number of runtimes over one store, one scheduler and one clock. -/
def machine : Machine World Thread Choice Nat (FlowRuntime × Request) where
  act := Thread.act
  env := fun elapsed world => some (world.tick elapsed)
  enter := fun call world => { runtime := call.1, task := call.2.task, since := world.clock }

/-! ### The revisions writes install -/

namespace FlowContinuation

variable {continuation next : FlowContinuation} {now : Nat}

lemma revised_eq_ok {change}
    (built : continuation.revised now change = .ok next) :
    next = { continuation with
      state := { change continuation.state with
        version := (change continuation.state).version + 1 }
      updatedAt := now } := by
  obtain ⟨state, stepped, built⟩ := bind_eq_ok.mp built
  obtain ⟨-, rfl⟩ := FlowState.nextVersion_eq_ok.mp stepped
  cases built
  rfl

lemma steppedTo_eq_ok {nextStep}
    (built : continuation.steppedTo nextStep now = .ok next) :
    next = { continuation with
      stepName := nextStep, wait := none, resumeAt := none, scheduleId := none, updatedAt := now
      state := { continuation.state with
        status := .suspended, owner := none, step := continuation.state.step + 1
        version := continuation.state.version + 1 } } := by
  unfold steppedTo FlowState.completedSteps at built
  split at built
  · exact revised_eq_ok (show (continuation.atStep nextStep now).revised now
      (fun state => (state.atStep (continuation.state.step + 1)).suspended) = .ok next from built)
  · cases built

lemma relaunched_eq_ok (built : continuation.relaunched wait now = .ok next) :
    next = { continuation with
      wait := some wait, resumeAt := none, scheduleId := none, updatedAt := now
      state := { continuation.state with
        status := .suspended, owner := none, version := continuation.state.version + 1 } } :=
  revised_eq_ok built

lemma completed_eq_ok
    (built : (do
      let step ← continuation.state.completedSteps
      continuation.revised now (·.done step)) = .ok next) :
    next = { continuation with
      updatedAt := now
      state := { continuation.state with
        status := .done, step := continuation.state.step + 1, owner := none, error := none
        version := continuation.state.version + 1 } } := by
  unfold FlowState.completedSteps at built
  split at built
  · exact revised_eq_ok (show continuation.revised now
      (fun state => state.done (continuation.state.step + 1)) = .ok next from built)
  · cases built

end FlowContinuation

lemma map_eq_ok {α β : Type} {result : CatgaResult α} {f} {value : β}
    (mapped : result.map f = .ok value) : ∃ inner, result = .ok inner ∧ value = f inner := by
  cases result with
  | error => cases mapped
  | ok inner => exact ⟨inner, rfl, (Except.ok.inj mapped).symm⟩

/-! ### Conditional writes of the store -/

namespace Store

variable {store after : Store} {next expected : FlowContinuation}

variable {version : Nat} {flowId : String}

lemma update_eq_some (updated : store.update version next = .ok (some after)) :
    after = store.put next ∧ next.state.version = version + 1 ∧
      ∃ current, store next.state.id = some current ∧ current.state.version = version := by
  unfold update at updated
  split_ifs at updated with follows
  · obtain ⟨_, -, updated⟩ := bind_eq_ok.mp updated
    split at updated
    · cases updated
    · rename_i current found
      split at updated <;> cases updated
      rename_i same
      exact ⟨rfl, (FlowState.isNextVersion_iff.mp follows).2, current, found, same⟩
  · cases updated

lemma claim_eq_some (claimed : store.claim expected next = .ok (some after)) :
    after = store.put next ∧ next.state.version = expected.state.version + 1 ∧
      store expected.state.id = some expected ∧ next.state.id = expected.state.id := by
  unfold claim at claimed
  split at claimed
  · rename_i follows
    obtain ⟨_, -, claimed⟩ := bind_eq_ok.mp claimed
    split at claimed <;> cases claimed
    rename_i same
    exact ⟨rfl, (FlowState.isNextVersion_iff.mp follows.2).2, same, follows.1⟩
  · cases claimed

lemma get_eq_some {found} (read : store.get flowId = .ok (some found)) :
    store flowId = some found := by
  unfold get at read
  split at read
  · cases read
  · rename_i continuation held
    obtain ⟨_, -, read⟩ := bind_eq_ok.mp read
    exact held.trans (Except.ok.inj read)

lemma create_eq_some (created : store.create next = .ok (some after)) :
    after = store.put next ∧ store next.state.id = none := by
  obtain ⟨_, -, created⟩ := bind_eq_ok.mp created
  split at created <;> cases created
  rename_i free
  exact ⟨rfl, free⟩

lemma recordWait_eq_some {childId now}
    (recorded : store.recordWait flowId version childId report now = some after) :
    ∃ current wait, store flowId = some current ∧ current.state.version = version ∧
      current.wait = some wait ∧
      ((wait.record childId report).completedCount = wait.completedCount ∧ after = store ∨
        after = Function.update store flowId
          (some (current.withWait (wait.record childId report) now))) := by
  obtain ⟨current, found, recorded⟩ := bind_eq_some_iff.mp recorded
  dsimp only at recorded
  split at recorded
  · rename_i same
    obtain ⟨wait, waiting, recorded⟩ := bind_eq_some_iff.mp recorded
    refine ⟨current, wait, found, same, waiting, ?_⟩
    split_ifs at recorded with unchanged
    · exact .inl ⟨unchanged, (Option.some.inj recorded).symm⟩
    · exact .inr (Option.some.inj recorded).symm
  · cases recorded

lemma heartbeat_eq_some {owner now}
    (beaten : store.heartbeat flowId owner version now = some after) :
    ∃ current, store flowId = some current ∧ current.state.owner = some owner ∧
      current.state.version = version ∧
      after = Function.update store flowId
        (some (current.withState (current.state.heartbeatedAt now) now)) := by
  obtain ⟨current, found, beaten⟩ := bind_eq_some_iff.mp beaten
  split at beaten
  · rename_i held
    exact ⟨current, found, held.1, held.2, (Option.some.inj beaten).symm⟩
  · cases beaten

end Store

lemma Write.commit_eq_some {write : Write} {store after next}
    (committed : write.commit store next = .ok (some after)) :
    after = store.put next ∧ next.state.version = write.expected.state.version + 1 ∧
      ∃ current, store next.state.id = some current ∧
        current.state.version = write.expected.state.version ∧
        (write.exact → current = write.expected) := by
  unfold Write.commit at committed
  split_ifs at committed with inexact
  · obtain ⟨installed, version, held, same⟩ := Store.claim_eq_some committed
    exact ⟨installed, version, write.expected, by rw [same]; exact held, rfl, fun _ => rfl⟩
  · obtain ⟨installed, version, current, held, same⟩ := Store.update_eq_some committed
    exact ⟨installed, version, current, held, same, fun exactly => absurd exactly inexact⟩

/-! ### What a read leads to -/

/-- Points a call can reach without having learnt anything about the store that matters later. -/
def Task.Idle : Task → Prop
  | .returned _ | .resume _ none | .current _ | .recordReread _ | .recordJudge _ _
  | .launch _ _ _ | .launchFinish _ _ _ _ _ | .heartbeatWrite _ _ | .reconcileRead _ _ => True
  | _ => False

/-- What a read can lead to. -/
inductive Reads (runtime : FlowRuntime) (now : Nat) (store : Store) : Task → Task → Prop
  | idle {task next} : next.Idle → Reads runtime now store task next
  | claim {flowId at_ found} : store flowId = some found →
      found.state.status = .suspended ∨ found.state.status.isOwned ∧
        isStale found.state.heartbeat (at_.getD now) runtime.staleAfter →
      Reads runtime now store (.resume flowId at_) (.claim found)
  | fail {flowId at_ found wait error} :
      store flowId = some found → found.state.status = .suspended → found.wait = some wait →
      evaluateWait wait (at_.getD now) = .failed error →
      Reads runtime now store (.resume flowId at_) (.fail found error)
  | cancel {flowId found} :
      store flowId = some found → Reads runtime now store (.cancel flowId) (.cancelWrite found)
  | record {flowId childId report found wait} :
      store flowId = some found → found.wait = some wait → wait.acceptsChild childId →
      report.fits →
      Reads runtime now store (.record flowId childId report)
        (.recordWrite flowId childId report found.state.version)
  | launch {flowId launched retries found wait} :
      store flowId = some found → found.wait = some wait →
      Reads runtime now store (.launch flowId launched (retries + 1))
        (.launchClaim found wait launched retries)
  | finish {flowId childId result launched retries found wait nextWait test state} :
      store flowId = some found → found.wait = some wait →
      (wait.setLaunch test state).map (·.2) = some nextWait →
      Reads runtime now store (.launchFinish flowId childId result launched (retries + 1))
        (.launchSettle found nextWait childId result launched retries)
  | reconcile {flowId rest reconciled found} :
      store flowId = some found → found.state.status = .suspended → found.scheduleId = none →
      found.resumeAt.isSome →
      Reads runtime now store (.reconcileRead (flowId :: rest) reconciled)
        (.schedule found (some (rest, reconciled)))

namespace FlowRuntime

variable {runtime : FlowRuntime} {now : Nat} {store : Store}

variable {error : CatgaError} {flowId : String} {found : FlowContinuation} {launched : Nat}
  {sweep : Sweep} {childId : String} {retries : Nat} {task : Task} {write : Write} {world : World}
  {pick : Pick} {next : Task} {holds : Task → Prop}

@[simp] lemma idle_fails : (Task.fails error).Idle := trivial

@[simp] lemma idle_yields {state} : (Task.yields state).Idle := trivial

lemma reading_elim {found}
    (idle : ∀ task : Task, task.Idle → holds task)
    (present : ∀ continuation, store flowId = some continuation → holds (found continuation)) :
    holds (reading store flowId found) := by
  unfold reading
  split
  · exact idle _ idle_fails
  · exact idle _ idle_fails
  · rename_i continuation read
    exact present continuation (Store.get_eq_some read)

lemma ensuring_elim (idle : ∀ task : Task, task.Idle → holds task) (passed : holds next) :
    holds (runtime.ensuring continuation next) := by
  unfold ensuring
  split
  · exact idle _ idle_fails
  · exact passed

lemma resumeRead_reads {at_} (held : store flowId = some found) :
    Reads runtime now store (.resume flowId at_)
      (runtime.resumeRead (at_.getD now) found) := by
  unfold resumeRead
  dsimp only
  split
  · exact .idle idle_yields
  split
  · exact .idle idle_yields
  split
  · exact .idle idle_fails
  · rename_i unresumable
    -- Either the owner is stale, or the flow is suspended.
    have claimable : found.state.status = .suspended ∨ found.state.status.isOwned ∧
        isStale found.state.heartbeat (at_.getD now) runtime.staleAfter := by
      by_cases stale : (found.state.status.isOwned &&
          isStale found.state.heartbeat (at_.getD now) runtime.staleAfter) = true
      · exact .inr (by simpa using stale)
      · refine .inl (not_not.mp fun other => unresumable ⟨other, ?_⟩)
        rw [Bool.eq_false_iff.mpr stale]
        rfl
    have delayed : Reads runtime now store (.resume flowId at_)
        (if (!(found.state.status.isOwned &&
            isStale found.state.heartbeat (at_.getD now) runtime.staleAfter) &&
            found.resumeAt.any fun dueAt => decide (at_.getD now < dueAt)) = true then
          .yields found.state else .claim found) := by
      split
      · exact .idle idle_yields
      · exact .claim held claimable
    split
    · exact delayed
    · rename_i wait waiting
      have notStale : ¬ ((found.state.status.isOwned &&
          isStale found.state.heartbeat (at_.getD now) runtime.staleAfter) = true) := by
        intro stale
        rw [if_pos stale] at waiting
        cases waiting
      have suspended : found.state.status = .suspended :=
        claimable.resolve_right fun stale => notStale (by simpa using stale)
      rw [if_neg notStale] at waiting
      split
      · exact .idle idle_yields
      · rename_i error failed
        exact .fail held suspended waiting failed
      · exact delayed

lemma idle_afterLaunch {result settled} :
    (afterLaunch flowId result settled launched).Idle := by
  unfold afterLaunch
  split <;> trivial

lemma idle_identityFailed : (identityFailed continuation error sweep).Idle := by
  cases sweep <;> trivial

lemma idle_afterIdentity {scheduled} :
    (afterIdentity continuation scheduled sweep).Idle := by
  cases sweep <;> trivial

section

variable (held : store flowId = some found)
include held

lemma recordRead_reads :
    Reads runtime now store (.record flowId childId report)
      (runtime.recordRead flowId childId report found) := by
  unfold recordRead
  split
  · exact .idle idle_yields
  · refine ensuring_elim (fun _ => .idle) ?_
    split
    · exact .idle idle_fails
    · rename_i wait waiting
      split
      · exact .idle idle_fails
      · rename_i accepted
        split_ifs with fits
        · exact .idle idle_fails
        · exact .record held waiting (by simpa using accepted) (by simpa using fits)

lemma launchRead_reads :
    Reads runtime now store (.launch flowId launched (retries + 1))
      (runtime.launchRead launched retries found) := by
  refine ensuring_elim (fun _ => .idle) ?_
  split
  · exact .idle trivial
  · split
    · exact .idle trivial
    · rename_i wait waiting
      split
      · exact .idle idle_fails
      · exact .launch held waiting

lemma launchFinishRead_reads {result} :
    Reads runtime now store (.launchFinish flowId childId result launched (retries + 1))
      (runtime.launchFinishRead flowId childId result launched retries found) := by
  unfold launchFinishRead
  split
  · exact .idle idle_afterLaunch
  · split
    · exact .idle idle_afterLaunch
    · split
      · exact .idle idle_afterLaunch
      · rename_i nextWait changed
        obtain ⟨wait, waiting, changed⟩ := bind_eq_some_iff.mp changed
        split at changed <;> exact .finish held waiting changed

lemma reconcileNext_reads {rest reconciled} :
    Reads runtime now store (.reconcileRead (flowId :: rest) reconciled)
      (runtime.reconcileNext rest reconciled found) := by
  unfold reconcileNext
  split_ifs with kept
  · exact .idle trivial
  · simp only [passedOver, not_or, not_not] at kept
    obtain ⟨suspended, -, unscheduled, delayed⟩ := kept
    exact .reconcile held suspended (by simpa using unscheduled)
      (isSome_iff_ne_none.mpr (by simpa using delayed))

end

lemma read_reads (read : runtime.read now store task = some next) :
    Reads runtime now store task next := by
  cases task with
  | resume =>
    cases read
    exact reading_elim (fun _ => .idle) fun found held =>
      ensuring_elim (fun _ => .idle) (resumeRead_reads held)
  | resumeScheduled =>
    cases read
    refine reading_elim (fun _ => .idle) fun found held => ensuring_elim (fun _ => .idle) ?_
    split
    · exact .idle idle_fails
    · exact .idle trivial
  | current =>
    cases read
    exact reading_elim (fun _ => .idle) fun found held => .idle idle_yields
  | cancel =>
    cases read
    refine reading_elim (fun _ => .idle) fun found held => ensuring_elim (fun _ => .idle) ?_
    unfold cancelRead
    split
    · exact .idle idle_yields
    · split
      · exact .idle idle_fails
      · exact .cancel held
  | record =>
    cases read
    exact reading_elim (fun _ => .idle) fun found held => recordRead_reads held
  | recordReread =>
    cases read
    exact reading_elim (fun _ => .idle) fun found held => .idle trivial
  | recordJudge =>
    cases read
    split <;> exact .idle trivial
  | launch flowId launched retries =>
    cases read
    cases retries with
    | zero => exact .idle idle_fails
    | succ => exact reading_elim (fun _ => .idle) fun found held => launchRead_reads held
  | launchFinish flowId childId result launched retries =>
    cases read
    cases retries with
    | zero => exact .idle idle_afterLaunch
    | succ retries =>
      dsimp only
      split
      · exact .idle idle_afterLaunch
      · exact .idle idle_afterLaunch
      · rename_i found read
        exact launchFinishRead_reads (Store.get_eq_some read)
  | heartbeat =>
    cases read
    split
    · exact .idle idle_fails
    · exact .idle trivial
    · exact ensuring_elim (fun _ => .idle) (.idle trivial)
  | reconcileRead flowIds reconciled =>
    cases read
    cases flowIds with
    | nil => exact .idle trivial
    | cons flowId rest =>
      dsimp only
      split
      · exact .idle idle_fails
      · exact .idle trivial
      · rename_i found read
        exact reconcileNext_reads (Store.get_eq_some read)
  | _ => cases read

/-! ### What an action does -/

lemma recordStepCompensation_eq_ok {compensated}
    (recorded : runtime.recordStepCompensation continuation now = .ok compensated) :
    ∃ compensations updatedAt,
      compensated = { continuation with compensations, updatedAt } := by
  unfold recordStepCompensation FlowContinuation.recordCompensation at recorded
  split at recorded
  · split at recorded <;> cases recorded
    exact ⟨_, _, rfl⟩
  · cases recorded
    exact ⟨_, _, rfl⟩

/-- Where a finished step leads: nowhere, or to one write that starts from the continuation the
step ran on, with at most its compensations changed. -/
inductive Follows (continuation : FlowContinuation) : Task → Prop
  | idle {next : Task} : next.Idle → Follows continuation next
  | complete : Follows continuation (.complete continuation)
  | fail {compensations updatedAt error} :
      Follows continuation (.fail { continuation with compensations, updatedAt } error)
  | transition {compensations updatedAt nextStep} :
      Follows continuation (.transition { continuation with compensations, updatedAt } nextStep)
  | suspend {compensations updatedAt nextStep resumeAt} : Follows continuation
        (.suspend { continuation with compensations, updatedAt } nextStep resumeAt)
  | await {compensations updatedAt nextStep wait} :
      Follows continuation (.await { continuation with compensations, updatedAt } nextStep wait)

lemma afterStep_follows {result} :
    Follows continuation (runtime.afterStep continuation now result) := by
  unfold afterStep
  split
  · exact .fail
  · exact .complete
  · exact .fail
  · split
    · exact .idle idle_fails
    · rename_i compensated recorded
      obtain ⟨compensations, updatedAt, rfl⟩ := recordStepCompensation_eq_ok recorded
      split
      · exact .complete
      · exact .transition
      · split
        · exact .transition
        · exact .fail
      · exact .fail
      · exact .suspend
      · exact .fail
      · split
        · exact .idle idle_fails
        · exact .fail
        · exact .await
      · exact .complete
      · exact .fail

lemma write_launchClaim
    (writes : runtime.write now (.launchClaim continuation wait launched retries) = some write) :
    ∃ childId claimedWait,
      wait.claimNextChild runtime.owner now (max runtime.staleAfter 1) =
        some (childId, claimedWait) ∧
      write = { Write.update continuation (continuation.relaunched claimedWait now)
          (fun next => .launching next.state.id childId launched) with
        exact := true
        lost := .launch continuation.state.id launched retries } := by
  simp only [FlowRuntime.write] at writes
  split at writes
  · cases writes
  · rename_i childId claimedWait claimed
    exact ⟨childId, claimedWait, claimed, (Option.some.inj writes).symm⟩

/-- A conditional write of a call: what it starts from and installs, whether the store compares all
of what it starts from, what it is recorded as, and where it leads. -/
inductive Installs (runtime : FlowRuntime) (now : Nat) :
    Task → FlowContinuation → FlowContinuation → Bool → Deed → Task → Prop
  | claim {found next : FlowContinuation} {phase}
      (phase_eq : phase = if found.state.status = .compensating then .compensating else .running)
      (shape : next = { found with
        wait := none, resumeAt := none, scheduleId := none, updatedAt := now
        state := { found.state with
          status := phase, owner := some runtime.owner, heartbeat := now
          version := found.state.version + 1 } }) :
      Installs runtime now (.claim found) found next true
        (.claimed found.state runtime.staleAfter) (drive next)
  | transition {found next : FlowContinuation} {nextStep} (shape : next = { found with
        stepName := nextStep, wait := none, resumeAt := none, scheduleId := none, updatedAt := now
        state := { found.state with
          status := .suspended, owner := none, step := found.state.step + 1
          version := found.state.version + 1 } }) :
      Installs runtime now (.transition found nextStep) found next false .moved (.claim next)
  | suspend {found next : FlowContinuation} {nextStep resumeAt} (shape : next = { found with
        stepName := nextStep, wait := none, resumeAt := some resumeAt, scheduleId := none
        updatedAt := now
        state := { found.state with
          status := .suspended, owner := none, step := found.state.step + 1
          version := found.state.version + 1 } }) :
      Installs runtime now (.suspend found nextStep resumeAt) found next false .moved
        (.schedule next none)
  | identify {found next : FlowContinuation} {scheduleId sweep} (shape : next = { found with
        scheduleId := some scheduleId, updatedAt := now
        state := { found.state with version := found.state.version + 1 } }) :
      Installs runtime now (.identify found scheduleId sweep) found next false .moved
        (afterIdentity found (some next) sweep)
  | await {found next : FlowContinuation} {nextStep wait} (shape : next = { found with
        stepName := nextStep, wait := some wait, resumeAt := none, scheduleId := none
        updatedAt := now
        state := { found.state with
          status := .suspended, owner := none, step := found.state.step + 1
          version := found.state.version + 1 } }) :
      Installs runtime now (.await found nextStep wait) found next false .waited (settle next)
  | complete {found next : FlowContinuation} (shape : next = { found with
        updatedAt := now
        state := { found.state with
          status := .done, step := found.state.step + 1, owner := none, error := none
          version := found.state.version + 1 } }) :
      Installs runtime now (.complete found) found next false .moved (settle next)
  | rollBack {found next : FlowContinuation} {error} (toUndo : found.compensations ≠ [])
      (shape : next = { found with
        wait := none, resumeAt := none, scheduleId := none, updatedAt := now
        state := { found.state with
          status := .compensating, error := some error, version := found.state.version + 1 } }) :
      Installs runtime now (.fail found error) found next false .moved (compensate next)
  | fail {found next : FlowContinuation} {error} (nothing : found.compensations = [])
      (shape : next = { found with
        wait := none, resumeAt := none, scheduleId := none, updatedAt := now
        state := { found.state with
          status := .failed, owner := none, error := some error
          version := found.state.version + 1 } }) :
      Installs runtime now (.fail found error) found next false .moved (settle next)
  | undone {found next : FlowContinuation} (shape : next = { found with
        compensations := found.compensations.dropLast, updatedAt := now
        state := { found.state with
          status := .compensating, version := found.state.version + 1 } }) :
      Installs runtime now (.undone found) found next false .moved (compensate next)
  | giveUp {found next : FlowContinuation} {error} (shape : next = { found with
        wait := none, resumeAt := none, scheduleId := none, updatedAt := now
        state := { found.state with
          status := .failed, owner := none, error := some error
          version := found.state.version + 1 } }) :
      Installs runtime now (.giveUp found) found next false .moved (settle next)
  | cancel {found next : FlowContinuation} (shape : next = { found with
        wait := none, resumeAt := none, scheduleId := none, updatedAt := now
        state := { found.state with
          status := .cancelled, owner := none, error := none
          version := found.state.version + 1 } }) :
      Installs runtime now (.cancelWrite found) found next false .moved
        (match found.scheduleId with
          | some scheduleId => .cancelSchedule scheduleId next.state
          | none => settle next)
  | launchClaim {found next : FlowContinuation} {wait claimedWait childId launched retries}
      (claimed : wait.claimNextChild runtime.owner now (max runtime.staleAfter 1) =
        some (childId, claimedWait))
      (shape : next = { found with
        wait := some claimedWait, resumeAt := none, scheduleId := none, updatedAt := now
        state := { found.state with
          status := .suspended, owner := none, version := found.state.version + 1 } }) :
      Installs runtime now (.launchClaim found wait launched retries) found next true .moved
        (.launching next.state.id childId launched)
  | launchSettle {found next : FlowContinuation} {nextWait childId result launched retries}
      (shape : next = { found with
        wait := some nextWait, resumeAt := none, scheduleId := none, updatedAt := now
        state := { found.state with
          status := .suspended, owner := none, version := found.state.version + 1 } }) :
      Installs runtime now (.launchSettle found nextWait childId result launched retries) found
        next true .moved (afterLaunch next.state.id result (.ok ()) launched)

section

variable (writes : runtime.write now task = some write)
include writes

lemma write_installs {next : FlowContinuation} (built : write.next = .ok next) :
    Installs runtime now task write.expected next write.exact write.deed (write.won next) := by
  cases task with
  | claim found =>
    cases writes
    replace built : runtime.claimed found now = .ok next := built
    refine .claim rfl ((revised_eq_ok built).trans ?_)
    split <;> rfl
  | transition =>
    cases writes
    exact .transition (steppedTo_eq_ok built)
  | suspend found nextStep resumeAt =>
    cases writes
    obtain ⟨stepped, first, rfl⟩ := map_eq_ok
      (show (found.steppedTo nextStep now).map (·.delayedUntil resumeAt now) = _ from built)
    exact .suspend (by rw [steppedTo_eq_ok first]; rfl)
  | identify found scheduleId =>
    cases writes
    obtain ⟨revised, first, rfl⟩ := map_eq_ok
      (show (found.revised now id).map (·.withScheduleId scheduleId now) = _ from built)
    exact .identify (by rw [revised_eq_ok first]; rfl)
  | await found nextStep wait =>
    cases writes
    obtain ⟨stepped, first, rfl⟩ := map_eq_ok
      (show (found.steppedTo nextStep now).map (·.withWait wait now) = _ from built)
    exact .await (by rw [steppedTo_eq_ok first]; rfl)
  | complete =>
    cases writes
    exact .complete (completed_eq_ok built)
  | fail found error =>
    cases writes
    replace built : failure found error now = .ok next := built
    have shape := revised_eq_ok built
    show Installs _ _ _ _ _ _ _ (if _ then _ else _)
    split_ifs with nothing
    · simp only [nothing] at shape
      exact .fail (List.isEmpty_iff.mp nothing) shape
    · simp only [nothing] at shape
      exact .rollBack (by simpa using nothing) shape
  | undone =>
    cases writes
    exact .undone (revised_eq_ok built)
  | giveUp =>
    cases writes
    simp only [Write.update] at built
    split at built
    · cases built
    · exact .giveUp (revised_eq_ok built)
  | cancelWrite =>
    cases writes
    exact .cancel (revised_eq_ok built)
  | launchClaim =>
    obtain ⟨childId, claimedWait, claimed, rfl⟩ := write_launchClaim writes
    exact .launchClaim claimed (relaunched_eq_ok built)
  | launchSettle =>
    cases writes
    exact .launchSettle (relaunched_eq_ok built)
  | _ => cases writes

lemma idle_lost : write.lost.Idle := by
  cases task with
  | identify => cases writes; exact idle_afterIdentity
  | launchClaim =>
    obtain ⟨childId, claimedWait, -, rfl⟩ := write_launchClaim writes
    trivial
  | _ => cases writes <;> trivial

lemma idle_failed : (write.failed error).Idle := by
  cases task with
  | identify => cases writes; exact idle_identityFailed
  | launchSettle =>
    cases writes
    exact idle_afterLaunch
  | launchClaim =>
    obtain ⟨childId, claimedWait, -, rfl⟩ := write_launchClaim writes
    trivial
  | _ => cases writes <;> trivial

end

/-- What an action can do. -/
inductive Acts (runtime : FlowRuntime) (now : Nat) (world : World) : Task → World → Task → Prop
  | read {task next : Task} : Reads runtime now world.store task next →
      Acts runtime now world task world next
  | won {task goal expected current next exactly deed} :
      Installs runtime now task expected next exactly deed goal →
      world.store next.state.id = some current →
      current.state.version = expected.state.version →
      next.state.version = expected.state.version + 1 →
      (exactly → current = expected) →
      Acts runtime now world task
        { world with
          store := world.store.put next
          history := ⟨next.state.id, runtime.owner, world.clock, deed⟩ :: world.history }
        goal
  | lost {task : Task} {write} : runtime.write now task = some write →
      Acts runtime now world task world write.lost
  | failed {task : Task} {write error} :
      runtime.write now task = some write → Acts runtime now world task world (write.failed error)
  | created {flowId firstStep data store} :
      world.store.create (.new (FlowState.new flowId runtime.definition.name data
        runtime.owner now).suspended firstStep now) = .ok (some store) →
      Acts runtime now world (.start flowId data)
        { world with
          store, history := ⟨flowId, runtime.owner, world.clock, .moved⟩ :: world.history }
        (.resume flowId none)
  | scheduled {continuation : FlowContinuation} {sweep resumeAt scheduler scheduleId} :
      continuation.resumeAt = some resumeAt →
      world.scheduler.scheduleResume continuation.state.id continuation.stepName resumeAt =
        (scheduler, .ok scheduleId) →
      Acts runtime now world (.schedule continuation sweep) { world with scheduler }
        (.identify continuation scheduleId sweep)
  | unscheduled {continuation : FlowContinuation} {sweep resumeAt scheduler error} :
      continuation.resumeAt = some resumeAt →
      world.scheduler.scheduleResume continuation.state.id continuation.stepName resumeAt =
        (scheduler, .error error) →
      Acts runtime now world (.schedule continuation sweep) { world with scheduler }
        (identityFailed continuation error sweep)
  | unschedule {scheduleId state} : Acts runtime now world (.cancelSchedule scheduleId state)
        { world with scheduler := (world.scheduler.cancelResume scheduleId world.clock).1 }
        (.yields state)
  | recorded {flowId childId : String} {report version store} :
      world.store.recordWait flowId version childId report world.clock = some store →
      Acts runtime now world (.recordWrite flowId childId report version) { world with store }
        (.resume flowId none)
  | fenced {flowId childId : String} {report version next} :
      world.store.recordWait flowId version childId report world.clock = none →
      next.Idle →
      Acts runtime now world (.recordWrite flowId childId report version) world next
  | beat {task next : Task} {flowId version store} :
      world.store.heartbeat flowId runtime.owner version world.clock = some store →
      next = task ∨ next.Idle →
      Acts runtime now world task
        { world with
          store, history := ⟨flowId, runtime.owner, world.clock, .beat⟩ :: world.history }
        next
  | unowned {continuation : FlowContinuation} {error} :
      Acts runtime now world (.step continuation) world (.fail continuation error)
  | finished {continuation : FlowContinuation} {next} : Follows continuation next →
      Acts runtime now world (.step continuation) world next
  | rolledBack {continuation : FlowContinuation} :
      Acts runtime now world (.undo continuation) world (.undone continuation)

lemma create_acts {data} :
    Acts runtime now world (.start flowId data) (runtime.create flowId data now world).1
      (runtime.create flowId data now world).2 := by
  unfold create
  split
  · exact .read (.idle idle_fails)
  · exact .read (.idle idle_fails)
  · rename_i store created
    obtain ⟨_, -, created⟩ := bind_eq_ok.mp created
    split at created
    · obtain ⟨firstStep, -, created⟩ := bind_eq_ok.mp created
      obtain ⟨_, -, created⟩ := bind_eq_ok.mp created
      exact .created created
    · cases created

lemma schedule_acts :
    Acts runtime now world (.schedule continuation sweep) (schedule continuation sweep world).1
      (schedule continuation sweep world).2 := by
  unfold schedule
  split
  · exact .read (.idle idle_afterIdentity)
  · rename_i resumeAt delayed
    cases called : world.scheduler.scheduleResume continuation.state.id continuation.stepName
        resumeAt with
    | mk scheduler scheduled =>
      cases scheduled with
      | error => exact .unscheduled delayed called
      | ok => exact .scheduled delayed called

lemma beat_acts {kept lost version} (stays : kept = task ∨ kept.Idle)
    (drops : Acts runtime now world task world lost) :
    Acts runtime now world task (runtime.beat flowId version world kept lost).1
      (runtime.beat flowId version world kept lost).2 := by
  unfold beat
  split
  · rename_i store beaten
    exact .beat beaten stays
  · exact drops

lemma perform_acts (writes : runtime.write now task = some write) :
    Acts runtime now world task (write.perform runtime.owner world).1
      (write.perform runtime.owner world).2 := by
  unfold Write.perform
  split
  · exact .failed writes
  · rename_i next built
    split
    · exact .failed writes
    · exact .lost writes
    · rename_i store committed
      obtain ⟨rfl, version, current, held, same, whole⟩ := Write.commit_eq_some committed
      exact .won (write_installs writes built) held same version whole

lemma recordWrite_acts {version} :
    Acts runtime now world (.recordWrite flowId childId report version)
      (recordWrite flowId childId report version world).1
      (recordWrite flowId childId report version world).2 := by
  unfold recordWrite
  split
  · rename_i store recorded
    exact .recorded recorded
  · rename_i fenced
    exact .fenced fenced (by cases report <;> trivial)

private lemma acts_of_eq {moved} (same : some moved = some (after, next))
    (acts : Acts runtime now world task moved.1 moved.2) :
    Acts runtime now world task after next := by
  cases same
  exact acts

lemma act_acts (acted : runtime.act now world pick task = some (after, next)) :
    Acts runtime now world task after next := by
  unfold act at acted
  split at acted
  · exact acts_of_eq acted create_acts
  · exact acts_of_eq acted schedule_acts
  · exact acts_of_eq acted recordWrite_acts
  · exact acts_of_eq acted (beat_acts (.inr trivial) (.read (.idle trivial)))
  · exact acts_of_eq acted .unschedule
  · split at acted
    · exact acts_of_eq acted (.read (.idle trivial))
    · rename_i write writes
      exact acts_of_eq acted (perform_acts writes)
  · split at acted
    · rename_i next read
      exact acts_of_eq acted (.read (read_reads read))
    · obtain ⟨write, writes, performed⟩ := map_eq_some_iff.mp acted
      exact acts_of_eq (congrArg some performed) (perform_acts writes)
  · exact acts_of_eq acted (beat_acts (.inl rfl) .unowned)
  · exact acts_of_eq acted (.finished afterStep_follows)
  · exact acts_of_eq acted (beat_acts (.inl rfl) (.read (.idle idle_fails)))
  · refine acts_of_eq acted ?_
    split
    · exact .read (.idle idle_fails)
    · exact .rolledBack
  · exact acts_of_eq acted (.read (.idle trivial))
  · refine acts_of_eq acted ?_
    split
    · exact .read (.idle idle_fails)
    · exact .read (.idle trivial)
  · cases acted

lemma Acts.clock (acts : Acts runtime now world task after next) :
    after.clock = world.clock := by
  cases acts <;> rfl

lemma Acts.keyed (acts : Acts runtime now world task after next) (keyed : world.store.Keyed) :
    after.store.Keyed := by
  cases acts with
  | won => exact keyed.update rfl
  | created created =>
    obtain ⟨rfl, -⟩ := Store.create_eq_some created
    exact keyed.update rfl
  | recorded recorded =>
    obtain ⟨current, wait, held, -, -, ⟨-, rfl⟩ | rfl⟩ := Store.recordWait_eq_some recorded
    · exact keyed
    · exact keyed.update (keyed _ current held)
  | beat beaten =>
    obtain ⟨current, held, -, -, rfl⟩ := Store.heartbeat_eq_some beaten
    exact keyed.update (keyed _ current held)
  | _ => exact keyed

lemma act_returned {result} :
    runtime.act now world pick (.returned result) = none := by
  cases pick <;> rfl

lemma act_fails : runtime.act now world pick (.fails error) = none := act_returned

end FlowRuntime

variable {choice : Choice} {thread : Thread} {world : World} {next : Thread}

variable (acted : thread.act choice world = some (after, next))
include acted

/-- An action of a thread is one of its runtime's, at a reading not after the clock. -/
lemma Thread.act_eq_some :
    choice.now ≤ world.clock ∧
      next = { thread with task := next.task, since := world.clock } ∧
      thread.runtime.act choice.now world choice.pick thread.task = some (after, next.task) := by
  unfold Thread.act at acted
  split at acted
  · rename_i timely
    obtain ⟨⟨world', task⟩, ran, moved⟩ := map_eq_some_iff.mp acted
    cases moved
    exact ⟨timely.2, rfl, ran⟩
  · cases acted

lemma Thread.since_le : thread.since ≤ choice.now := by
  simp only [Thread.act] at acted
  split at acted
  · rename_i timely
    exact timely.1
  · cases acted

lemma Thread.act_acts :
    choice.now ≤ world.clock ∧
      next = { thread with task := next.task, since := world.clock } ∧
      FlowRuntime.Acts thread.runtime choice.now world thread.task after next.task := by
  obtain ⟨timely, shape, ran⟩ := Thread.act_eq_some acted
  exact ⟨timely, shape, FlowRuntime.act_acts ran⟩

end Catga.Flow
