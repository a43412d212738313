import Catga.Flow.Machine

/-!
# A live owner is not displaced

A runtime takes over a running or compensating flow once its stored heartbeat is older than the
lease.  This spares every owner that is still active as long as the stored heartbeat is at least as
late as the owner's last durable operation, so every write that leaves the flow with an owner must
refresh it.
-/

namespace Catga.Flow

open Threads Transition

/-- The lease length of a claim that takes a flow over from an owner. -/
def Deed.takeover : Deed → Option Nat
  | .claimed previous staleAfter => if previous.status.isOwned then some staleAfter else none
  | .beat | .moved | .waited => none

def Deed.isClaim : Deed → Bool
  | .claimed _ _ => true
  | .beat | .moved | .waited => false

/-- The runtime that claimed a flow last, in a history with the latest event first. -/
def lastClaimer (flowId : String) : List Event → Option String
  | [] => none
  | event :: rest =>
    if event.flowId = flowId ∧ event.deed.isClaim then some event.owner
    else lastClaimer flowId rest

/-- Whenever a flow was taken over, its last claimer had not performed a durable operation on it
for the whole lease. -/
def LiveOwnersKept : List Event → Prop
  | [] => True
  | event :: rest =>
    (∀ staleAfter ∈ event.deed.takeover, ∀ owner ∈ lastClaimer event.flowId rest,
      ∀ earlier ∈ rest, earlier.flowId = event.flowId → earlier.owner = owner →
        earlier.time + staleAfter ≤ event.time) ∧
    LiveOwnersKept rest

/-- The stored heartbeat of an owned flow is at least as late as every durable operation on it. -/
def Refreshed (world : World) : Prop :=
  ∀ (flowId : String) (stored : FlowContinuation), world.store flowId = some stored →
    stored.state.status.isOwned → ∀ event ∈ world.history, event.flowId = flowId →
      event.time ≤ stored.state.heartbeat

instance : ∀ history, Decidable (LiveOwnersKept history)
  | [] => .isTrue trivial
  | event :: rest =>
    have := instDecidableLiveOwnersKept rest
    inferInstanceAs (Decidable ((∀ staleAfter ∈ event.deed.takeover, _) ∧ LiveOwnersKept rest))

/-- All runtimes read one clock: a time handed to `resume_at` is not ahead of it. -/
def SharedClock : Label Choice Nat (FlowRuntime × Request) → System World Thread → Prop
  | .spawn (_, .resumeAt _ now), system => now ≤ system.shared.clock
  | _, _ => True

/-- The heartbeat an action would write together with an owner: a claim stamps it with the reading
of the clock it made before, a rollback keeps the one its runtime read when it claimed the flow. -/
def Task.stamp (now : Nat) : Task → Option Nat
  | .claim _ => some now
  | .fail continuation _ =>
    if continuation.compensations.isEmpty then none else some continuation.state.heartbeat
  | .undone continuation => some continuation.state.heartbeat
  | _ => none

/-- Every write that leaves a flow with an owner stamps it with the present time. -/
def StampedNow : Label Choice Nat (FlowRuntime × Request) → System World Thread → Prop
  | .act index choice, system =>
    ∀ thread ∈ system.threads[index]?, ∀ stamp ∈ thread.task.stamp choice.now,
      stamp = system.shared.clock
  | .env _, _ | .spawn _, _ => True

instance : ∀ label system, Decidable (SharedClock label system) := by
  rintro (_ | _ | ⟨_, ⟨⟩⟩) system <;> dsimp only [SharedClock] <;> infer_instance

instance : ∀ label system, Decidable (StampedNow label system) := by
  rintro ⟨⟩ system <;> dsimp only [StampedNow] <;> infer_instance

/-- Whoever is about to take a flow over has found its heartbeat to be older than the lease, and
whoever registers a delay has found the flow suspended. -/
def Task.Timely (clock staleAfter : Nat) : Task → Prop
  | .claim found =>
    found.state.status.isOwned → found.state.heartbeat + staleAfter ≤ clock
  | .resume _ (some at_) => at_ ≤ clock
  | .schedule found _ | .identify found _ _ => found.state.status = .suspended
  | _ => True

lemma Task.Timely.later {clock later staleAfter} {task : Task}
    (timely : task.Timely clock staleAfter) (passed : clock ≤ later) :
    task.Timely later staleAfter := by
  cases task with
  | claim => exact fun owned => le_trans (timely owned) passed
  | resume flowId at_ =>
    cases at_ with
    | none => trivial
    | some => exact le_trans timely passed
  | schedule => exact timely
  | identify => exact timely
  | _ => trivial

lemma Task.Idle.timely {clock staleAfter} {task : Task} (idle : task.Idle) :
    task.Timely clock staleAfter := by
  cases task with
  | claim | schedule | identify => exact idle.elim
  | resume flowId at_ =>
    cases at_ with
    | none => trivial
    | some => exact idle.elim
  | _ => trivial

namespace FlowRuntime

variable {runtime : FlowRuntime} {now : Nat} {world after : World} {task next : Task}

variable {clock staleAfter : Nat} {expected installed : FlowContinuation} {exactly : Bool}
  {deed : Deed} {continuation : FlowContinuation}

lemma timely_compensate : (compensate continuation).Timely clock staleAfter := by
  unfold compensate
  split <;> trivial

section

variable (installs : Installs runtime now task expected installed exactly deed next)
include installs

lemma Installs.stamp (timely : task.Timely clock runtime.staleAfter)
    (owned : installed.state.status.isOwned) :
    task.stamp now = some installed.state.heartbeat := by
  cases installs with
  | claim _ shape => rw [shape]; rfl
  | rollBack toUndo shape =>
    rw [shape]
    exact if_neg (by simpa using toUndo)
  | undone shape => rw [shape]; rfl
  | identify shape =>
    have suspended : installed.state.status = .suspended := by rw [shape]; exact timely
    rw [suspended] at owned
    cases owned
  | transition shape | suspend shape | await shape | complete shape | fail _ shape
  | giveUp shape | cancel shape | launchClaim _ shape | launchSettle shape =>
    rw [shape] at owned
    cases owned

lemma Installs.takeover (taken : deed.takeover = some staleAfter) :
    task = .claim expected ∧ exactly = true ∧ installed.state.id = expected.state.id ∧
      expected.state.status.isOwned ∧ staleAfter = runtime.staleAfter := by
  cases installs with
  | claim _ shape =>
    simp only [Deed.takeover] at taken
    split at taken
    · rename_i owned
      exact ⟨rfl, rfl, by rw [shape], owned, (Option.some.inj taken).symm⟩
    · cases taken
  | _ => cases taken

lemma Installs.timely : next.Timely clock runtime.staleAfter := by
  cases installs with
  | claim =>
    unfold drive
    split
    · exact timely_compensate
    · trivial
  | transition shape =>
    intro owned
    rw [shape] at owned
    cases owned
  | rollBack => exact timely_compensate
  | undone => exact timely_compensate
  | cancel => split <;> trivial
  | identify => exact idle_afterIdentity.timely
  | launchSettle => exact idle_afterLaunch.timely
  | suspend shape => rw [shape]; rfl
  | _ => trivial

end

lemma Follows.timely (follows : Follows continuation next) : next.Timely clock staleAfter := by
  cases follows with
  | idle idle => exact idle.timely
  | _ => trivial

lemma Acts.timely (acts : Acts runtime now world task after next)
    (reading : now ≤ world.clock) (timely : task.Timely world.clock runtime.staleAfter) :
    next.Timely world.clock runtime.staleAfter := by
  cases acts with
  | read reads =>
    cases reads with
    | idle idle => exact idle.timely
    | @claim flowId at_ found held claimable =>
      intro owned
      have stale := isStale_iff.mp
        (claimable.resolve_left fun suspended => by rw [suspended] at owned; cases owned).2
      have bound : at_.getD now ≤ world.clock := by
        cases at_ with
        | none => exact reading
        | some => exact timely
      exact le_trans stale bound
    | reconcile _ suspended => exact suspended
    | _ => trivial
  | won installs => exact installs.timely
  | lost writes => exact (idle_lost writes).timely
  | failed writes => exact (idle_failed writes).timely
  | unscheduled => exact idle_identityFailed.timely
  | fenced _ idle => exact idle.timely
  | beat _ stays =>
    rcases stays with rfl | idle
    · exact timely
    · exact idle.timely
  | finished follows => exact follows.timely
  | scheduled => exact timely
  | _ => trivial

end FlowRuntime

/-- What holds of the shared state in every run that stamps its claims with the present. -/
structure Tracked (world : World) : Prop where
  past : ∀ event ∈ world.history, event.time ≤ world.clock
  refreshed : Refreshed world
  kept : LiveOwnersKept world.history

namespace Tracked

variable {world after : World}

/-- A write that is recorded now keeps the assertion if it refreshes the heartbeat of what it leaves
owned and takes nothing over from a live owner. -/
lemma record {flowId next event}
    (tracked : Tracked world) (same : event.flowId = flowId) (now : event.time = world.clock)
    (stamped : next.state.status.isOwned → next.state.heartbeat = world.clock)
    (spared : ∀ staleAfter ∈ event.deed.takeover, ∀ earlier ∈ world.history,
      earlier.flowId = flowId → earlier.time + staleAfter ≤ world.clock) :
    Tracked { world with
      store := Function.update world.store flowId (some next)
      history := event :: world.history } := by
  refine ⟨fun earlier member => ?_, fun other stored held owned earlier member about => ?_, ?_⟩
  · rcases List.mem_cons.mp member with rfl | member
    · exact le_of_eq now
    · exact tracked.past earlier member
  · obtain ⟨rfl, ⟨⟩⟩ | ⟨here, held⟩ := Foundation.update_eq_some held
    · rw [stamped owned]
      rcases List.mem_cons.mp member with rfl | member
      · exact le_of_eq now
      · exact tracked.past earlier member
    · rcases List.mem_cons.mp member with rfl | member
      · exact absurd (about.symm.trans same) here
      · exact tracked.refreshed other stored held owned earlier member about
  · refine ⟨fun staleAfter taken owner _ earlier member about _ => ?_, tracked.kept⟩
    rw [now]
    exact spared staleAfter taken earlier member (about.trans same)

lemma update {flowId current next} (tracked : Tracked world)
    (held : world.store flowId = some current) (same : next.state = current.state) :
    Tracked { world with store := Function.update world.store flowId (some next) } := by
  refine ⟨tracked.past, fun other stored found owned => ?_, tracked.kept⟩
  obtain ⟨rfl, ⟨⟩⟩ | ⟨-, found⟩ := Foundation.update_eq_some found
  · rw [same] at owned ⊢
    exact tracked.refreshed other current held owned
  · exact tracked.refreshed other stored found owned

end Tracked

namespace FlowRuntime

variable {world after : World} {task next : Task}

lemma Acts.tracked {now runtime} (acts : Acts runtime now world task after next)
    (timely : task.Timely world.clock runtime.staleAfter) (tracked : Tracked world)
    (stamped : ∀ stamp ∈ task.stamp now, stamp = world.clock) : Tracked after := by
  cases acts with
  | @won _ _ expected current installed exactly deed installs held _ _ whole =>
    refine tracked.record rfl rfl (fun owned => stamped _ (installs.stamp timely owned)) ?_
    -- A takeover replaces exactly the stale continuation, whose heartbeat bounds every event.
    intro staleAfter taken earlier member about
    obtain ⟨rfl, rfl, same, owned, rfl⟩ := installs.takeover taken
    obtain rfl := whole rfl
    have stale := timely owned
    have last := tracked.refreshed _ _ held owned earlier member about
    omega
  | created created =>
    obtain ⟨rfl, -⟩ := Store.create_eq_some created
    exact tracked.record rfl rfl (fun owned => by cases owned) fun _ taken => by cases taken
  | recorded recorded =>
    obtain ⟨current, wait, held, -, -, ⟨-, rfl⟩ | rfl⟩ := Store.recordWait_eq_some recorded
    · exact tracked
    · exact tracked.update held rfl
  | beat beaten =>
    obtain ⟨current, held, -, -, rfl⟩ := Store.heartbeat_eq_some beaten
    exact tracked.record rfl rfl (fun _ => rfl) fun _ taken => by cases taken
  | _ => exact { tracked with }

end FlowRuntime

lemma Tracked.tick {world} (tracked : Tracked world) (elapsed : Nat) :
    Tracked (world.tick elapsed) :=
  ⟨fun event member => Nat.le_add_right_of_le (tracked.past event member), tracked.refreshed,
    tracked.kept⟩

lemma liveness_valid : Machine.Outline.Valid machine
    (fun label system => SharedClock label system ∧ StampedNow label system)
    ⟨Tracked, fun world thread => thread.task.Timely world.clock thread.runtime.staleAfter,
      fun _ _ => True⟩ := by
  refine .of_rely (fun before after => before.clock ≤ after.clock) ?_ ?_ ?_ ?_
  · intro system index choice thread next after tracked timely admitted here acted
    obtain ⟨reading, moved, acts⟩ := Thread.act_acts acted
    refine ⟨acts.tracked timely tracked (admitted.2 thread here), ?_, le_of_eq acts.clock.symm⟩
    rw [moved, acts.clock]
    exact acts.timely reading timely
  · intro system elapsed after tracked _ ticked
    cases ticked
    exact ⟨tracked.tick elapsed, Nat.le_add_right ..⟩
  · intro system request _ admitted
    obtain ⟨runtime, request⟩ := request
    cases request with
    | resumeAt => exact admitted.1
    | _ => trivial
  · intro before after thread passed timely
    exact timely.later passed

/-- In every run in which every write that leaves an owner stamps it with the present time, no
takeover displaces a live owner, and the heartbeat of an owned flow is as late as the last durable
operation on it. -/
theorem liveOwnersKept_of_stampedNow {labels : List (Label Choice Nat (FlowRuntime × Request))}
    {system : System World Thread}
    (run : Runs machine.step
      (fun label system => SharedClock label system ∧ StampedNow label system)
      ⟨World.new, []⟩ labels system) :
    LiveOwnersKept system.shared.history ∧ Refreshed system.shared := by
  have tracked : Tracked World.new :=
    ⟨fun _ member => (List.not_mem_nil member).elim, fun _ _ held => (by cases held), trivial⟩
  have holds := liveness_valid.runs tracked run
  exact ⟨holds.shared.kept, holds.shared.refreshed⟩

/-- Runtime `b` takes over ten units after `a` claimed the flow and fell silent. -/
theorem liveOwnersKept_takeover :
    ∃ system, Runs machine.step
      (fun label system => SharedClock label system ∧ StampedNow label system) ⟨World.new, []⟩
      [.spawn (⟨(FlowDefinition.new "order").register ⟨"reserve", true⟩, "a", 10⟩,
          .start "o-1" []),
        .act 0 ⟨0, .go⟩, .act 0 ⟨0, .go⟩, .act 0 ⟨0, .go⟩, .env 10,
        .spawn (⟨(FlowDefinition.new "order").register ⟨"reserve", true⟩, "b", 10⟩,
          .resume "o-1"),
        .act 1 ⟨10, .go⟩, .act 1 ⟨10, .go⟩] system ∧
      system.shared.history.map (·.deed.takeover) = [some 10, none, none] ∧
      (LiveOwnersKept system.shared.history ∧ Refreshed system.shared) :=
  Runs.exists_and_of_execWhile (by decide) fun run _ => liveOwnersKept_of_stampedNow run

/-- Runtime `a` claims its second step at time 0, refreshes its lease at 8 and starts a rollback at
9, which writes the old heartbeat back; runtime `b` takes the flow over at 10. -/
theorem rollback_writes_old_heartbeat :
    ∃ system, Runs machine.step SharedClock ⟨World.new, []⟩
      [.spawn (⟨((FlowDefinition.new "order").register ⟨"reserve", true⟩).register
            ⟨"confirm", false⟩, "a", 10⟩, .start "o-1" []),
        .act 0 ⟨0, .go⟩, .act 0 ⟨0, .go⟩, .act 0 ⟨0, .go⟩, .act 0 ⟨0, .outcome (.ok .advance)⟩,
        .act 0 ⟨0, .go⟩, .act 0 ⟨0, .go⟩, .env 8, .act 0 ⟨8, .heartbeat⟩, .env 1,
        .act 0 ⟨9, .outcome (.error ⟨.internal, "declined"⟩)⟩, .act 0 ⟨9, .go⟩, .env 1,
        .spawn (⟨((FlowDefinition.new "order").register ⟨"reserve", true⟩).register
            ⟨"confirm", false⟩, "b", 10⟩, .resume "o-1"),
        .act 1 ⟨10, .go⟩, .act 1 ⟨10, .go⟩] system ∧
      ¬ LiveOwnersKept system.shared.history := Runs.exists_of_execWhile _ _ _ _ _ (by decide)

end Catga.Flow
