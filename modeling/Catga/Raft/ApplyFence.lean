import Catga.Raft.ApplyContract

/-!
# Snapshot epochs fence the apply queue

The machine is tracked next to the two tasks, with the snapshot it was last replaced by and the
entries sent since.  Entries of an older epoch may still be queued when a restore runs; the epoch
check under the mutex keeps them out, so the machine holds the snapshot followed by a prefix of the
later sends, and the frontier marks exactly that prefix.
-/

namespace Catga.Raft.Apply

open Transition List State

variable {before after : State} {μ : Type*}

/-- What `apply_committed` puts on the channel for one entry. -/
def sends (epoch : Nat) (entry : Entry) : List Queued :=
  if entry.entryType = .entryNormal ∧ entry.data ≠ [] then
    [{ index := entry.index, data := entry.data, epoch }]
  else []

/-- The accepted call of the machine's `apply` for a queued entry. -/
def Queued.accepted (queued : Queued) : Call :=
  { index := queued.index, data := queued.data, ok := true }

variable (apply : Nat → List UInt8 → μ → μ)

def replay (entries : List Queued) (machine : μ) : μ :=
  entries.foldl (fun machine queued => apply queued.index queued.data machine) machine

/-- The two tasks, the machine behind the mutex, and what was sent since the last install. -/
structure Fenced (μ : Type*) where
  tasks : State
  machine : μ
  /-- State of the last installed snapshot, or the initial state. -/
  base : μ
  sent : List Queued
  /-- Number of calls of the machine's `apply` made before that install. -/
  installedAt : Nat

open Fenced

/-- A fresh apply thread over a machine in its initial state. -/
def Fenced.init (machine : μ) : Fenced μ :=
  { tasks := .init, machine, base := machine, sent := [], installedAt := 0 }

/-- An atomic action of the tasks; `snapshot` is the state the bytes of a restore stand for. -/
structure Action (μ : Type*) where
  label : Label
  /-- What a restore puts into the machine; no other action reads it. -/
  snapshot : μ

variable (action : Action μ)

/-- What an action of the tasks does to the machine and to the record of sends. -/
def Fenced.record (before : Fenced μ) (tasks : State) : Fenced μ :=
  match action.label, before.tasks.worker with
  | .commit entry, _ =>
    { before with tasks, sent := before.sent ++ sends before.tasks.epoch entry }
  | .restore true, _ =>
    { tasks, machine := action.snapshot, base := action.snapshot, sent := [],
      installedAt := tasks.calls.length }
  | .apply true, .locked queued =>
    { before with tasks, machine := apply queued.index queued.data before.machine }
  | _, _ => { before with tasks }

/-- One atomic action of the tasks with its effect on the machine. -/
def Fenced.step (before : Fenced μ) : Option (Fenced μ) :=
  (Apply.step action.label before.tasks).map (before.record apply action)

/-- What raft-rs promises its caller: committed entries come in index order above the last
installed snapshot, and a snapshot to install covers every entry handed out before. -/
def Promised : Label → State → Prop
  | .commit entry, state =>
    (∀ earlier ∈ state.committed, earlier.index < entry.index) ∧
      state.snapshotIndex < entry.index
  | .install index, state => ∀ entry ∈ state.committed, entry.index ≤ index
  | _, _ => True

instance : ∀ label state, Decidable (Promised label state) := by
  rintro ⟨⟩ state <;> dsimp only [Promised] <;> infer_instance

/-- Neither the machine's `apply` nor its `restore` fails. -/
def Label.succeeds : Label → Bool
  | .apply ok | .restore ok => ok
  | .commit _ | .confEntry _ | .install _ | .receive | .lock => true

/-- The machine's `apply` does not fail. -/
def Label.accepts : Label → Bool
  | .apply ok => ok
  | .commit _ | .confEntry _ | .install _ | .restore _ | .receive | .lock => true

variable {label : Label} {entry : Entry}

lemma Label.accepts_of_succeeds (succeeds : label.succeeds = true) : label.accepts = true := by
  cases label <;> first | rfl | exact succeeds

/-- The actions of a run in which raft-rs keeps its promises and the machine accepts everything. -/
def Fenced.Admitted (before : Fenced μ) : Prop :=
  Promised action.label before.tasks ∧ action.label.succeeds = true
deriving Decidable

/-- What one action does to the entries in flight, to the calls and to the frontier. -/
inductive Effect (before after : State) : Label → Prop
  | commit (entry : Entry) (ready : before.owner = .ready)
      (owner_eq : after.owner =
        if entry.entryType = .entryNormal then .ready else .flushing entry)
      (inFlight_eq : after.inFlight = before.inFlight ++ sends before.epoch entry)
      (committed_eq : after.committed = before.committed ++ [entry])
      (calls_eq : after.calls = before.calls)
      (applied_eq : after.appliedIndex = before.appliedIndex)
      (snapshot_eq : after.snapshotIndex = before.snapshotIndex) :
      Effect before after (.commit entry)
  | confEntry (outcome : ConfOutcome) (entry : Entry) (flushed : before.owner = .flushed entry)
      (owner_eq : after.owner = .ready)
      (drained : before.inFlight = []) (drained_after : after.inFlight = [])
      (committed_eq : after.committed = before.committed) (calls_eq : after.calls = before.calls)
      (applied_eq : after.appliedIndex = if outcome = .undecodable then before.appliedIndex
        else max before.appliedIndex entry.index)
      (snapshot_eq : after.snapshotIndex = before.snapshotIndex) :
      Effect before after (.confEntry outcome)
  | install (index : Nat) (dropped : List Queued) (installing : after.owner.isInstalling = true)
      (inFlight_eq : before.inFlight = after.inFlight ++ dropped)
      (committed_eq : after.committed = before.committed) (calls_eq : after.calls = before.calls)
      (applied_eq : after.appliedIndex = before.appliedIndex)
      (snapshot_eq : after.snapshotIndex = before.snapshotIndex) :
      Effect before after (.install index)
  | restored (index : Nat) (installing : before.owner = .installing index)
      (owner_eq : after.owner = .ready) (drained : after.inFlight = [])
      (committed_eq : after.committed = before.committed) (calls_eq : after.calls = before.calls)
      (applied_eq : after.appliedIndex = index) (snapshot_eq : after.snapshotIndex = index) :
      Effect before after (.restore true)
  | refused (installing : after.owner.isInstalling = true)
      (inFlight_eq : after.inFlight = before.inFlight)
      (committed_eq : after.committed = before.committed) (calls_eq : after.calls = before.calls)
      (applied_eq : after.appliedIndex = before.appliedIndex)
      (snapshot_eq : after.snapshotIndex = before.snapshotIndex) :
      Effect before after (.restore false)
  | worker {label : Label} (moves : label = .receive ∨ label = .lock)
      (owner_cases : after.owner = before.owner ∨
        ∃ entry, before.owner = .flushing entry ∧ after.owner = .flushed entry)
      (inFlight_eq : after.inFlight = before.inFlight)
      (committed_eq : after.committed = before.committed) (calls_eq : after.calls = before.calls)
      (applied_eq : after.appliedIndex = before.appliedIndex)
      (snapshot_eq : after.snapshotIndex = before.snapshotIndex) :
      Effect before after label
  | applied (queued : Queued) (locked : before.worker = .locked queued)
      (owner_eq : after.owner = before.owner)
      (inFlight_eq : before.inFlight = queued :: after.inFlight)
      (committed_eq : after.committed = before.committed)
      (calls_eq : after.calls = before.calls ++ [queued.accepted])
      (applied_eq : after.appliedIndex = max before.appliedIndex queued.index)
      (snapshot_eq : after.snapshotIndex = before.snapshotIndex) :
      Effect before after (.apply true)

lemma index_of_sends {epoch queued} (sent : queued ∈ sends epoch entry) :
    queued.index = entry.index := by
  unfold sends at sent
  split at sent
  · rw [mem_singleton.mp sent]
  · cases sent

lemma effect_commit (taken : step (.commit entry) before = some after) :
    Effect before after (.commit entry) := by
  simp only [step] at taken
  split at taken
  · rename_i ready
    simp only [applyCommitted] at taken
    split at taken
    · rename_i normal
      split_ifs at taken with empty
      · cases taken
        refine .commit entry ready (by simp [ready, normal]) ?_ rfl rfl rfl rfl
        simp [inFlight, backlog, sends, empty]
      · simp only [sendEntry, send] at taken
        split at taken <;> cases taken
        refine .commit entry ready (by simp [ready, normal]) ?_ rfl rfl rfl rfl
        simp [inFlight, backlog, sends, normal, empty]
    all_goals
      simp only [send] at taken
      split at taken <;> cases taken
      rename_i conf _
      refine .commit entry ready (by simp [conf]) ?_ rfl rfl rfl rfl
      simp [inFlight, backlog, sends, conf]
  · cases taken

lemma effect_receive (taken : step .receive before = some after) :
    Effect before after .receive := by
  simp only [step] at taken
  split at taken <;> cases taken
  rename_i message rest idle queue_eq
  cases message with
  | entry queued =>
    simp only [handleApplyMsg]
    split_ifs with current
    · refine .worker (.inl rfl) (.inl rfl) ?_ rfl rfl rfl rfl
      simp [inFlight, backlog, queue_eq, idle, current]
    · refine .worker (.inl rfl) (.inl rfl) ?_ rfl rfl rfl rfl
      simp [inFlight, backlog, queue_eq, current]
  | barrier =>
    have inFlight_eq : before.inFlight = inFlight { before with queue := rest } := by
      rw [inFlight, backlog, queue_eq, filterMap_cons_none rfl]
      rfl
    simp only [handleApplyMsg]
    split
    · rename_i entry flushing
      exact .worker (.inl rfl) (.inr ⟨entry, flushing, rfl⟩) inFlight_eq.symm rfl rfl rfl rfl
    · exact .worker (.inl rfl) (.inl rfl) inFlight_eq.symm rfl rfl rfl rfl

lemma effect_lock (taken : step .lock before = some after) : Effect before after .lock := by
  simp only [step] at taken
  split at taken <;> cases taken
  rename_i queued received
  simp only [lockQueuedEntry]
  split_ifs with current
  · refine .worker (.inr rfl) (.inl rfl) ?_ rfl rfl rfl rfl
    simp [inFlight, backlog, received, current]
  · refine .worker (.inr rfl) (.inl rfl) ?_ rfl rfl rfl rfl
    simp [inFlight, backlog, received, current]

lemma effect_of_step (channel : Channel before) (accepts : label.accepts = true)
    (taken : step label before = some after) : Effect before after label := by
  cases label with
  | commit => exact effect_commit taken
  | receive => exact effect_receive taken
  | lock => exact effect_lock taken
  | confEntry outcome =>
    simp only [step] at taken
    split at taken <;> cases taken
    rename_i entry flushed
    have drained := channel.inFlight_of_flushed flushed
    cases outcome <;> exact .confEntry _ entry flushed rfl drained drained rfl rfl rfl rfl
  | install index =>
    have effect : Effect before (installSnapshot index before) (.install index) := by
      obtain ⟨dropped, inFlight_eq⟩ := channel.inFlight_install index
      exact .install index dropped rfl inFlight_eq rfl rfl rfl rfl
    simp only [step] at taken
    split at taken <;> cases taken <;> exact effect
  | restore ok =>
    simp only [step] at taken
    split at taken <;> cases taken
    rename_i index installing unlocked
    have is_installing : before.owner.isInstalling = true := by
      simp [installing]
    have drained := channel.inFlight_of_installing is_installing unlocked
    cases ok with
    | true => exact .restored index installing rfl drained rfl rfl rfl rfl
    | false => exact .refused rfl rfl rfl rfl rfl rfl
  | apply ok =>
    have ok_eq : ok = true := accepts
    subst ok_eq
    simp only [step] at taken
    split at taken <;> cases taken
    rename_i queued locked
    refine .applied queued locked rfl ?_ rfl rfl rfl rfl
    simp [inFlight, backlog, locked, applyQueuedEntry,
      advanceAppliedIndex]

lemma Effect.accepted (effect : Effect before after label)
    (accepted : ∀ call ∈ before.calls, call.ok = true) : ∀ call ∈ after.calls, call.ok = true := by
  cases effect with
  | applied queued _ _ _ _ calls_eq =>
    intro call mem
    rw [calls_eq, mem_append, mem_singleton] at mem
    rcases mem with mem | rfl
    · exact accepted call mem
    · rfl
  | commit _ _ _ _ _ calls_eq | confEntry _ _ _ _ _ _ _ calls_eq | install _ _ _ _ _ calls_eq
  | restored _ _ _ _ _ calls_eq | refused _ _ _ calls_eq | worker _ _ _ _ calls_eq =>
    exact calls_eq ▸ accepted

@[simp] lemma replay_nil (machine : μ) : replay apply [] machine = machine := rfl

variable (fenced : Fenced μ)

/-- The machine, the calls and the frontier stand at one point of what was sent: `done` has been
applied since the last install, and what an install in progress superseded is `rest`. -/
structure Stands (done rest : List Queued) : Prop where
  calls_eq : fenced.tasks.calls.drop fenced.installedAt = done.map Queued.accepted
  installed_le : fenced.installedAt ≤ fenced.tasks.calls.length
  machine_eq : fenced.machine = replay apply done fenced.base
  sent_eq : fenced.sent = done ++ (fenced.tasks.inFlight ++ rest)
  rest_nil : fenced.tasks.owner.isInstalling = false → rest = []
  done_le : ∀ queued ∈ done, queued.index ≤ fenced.tasks.appliedIndex
  ahead : ∀ queued ∈ fenced.tasks.inFlight ++ rest, fenced.tasks.appliedIndex < queued.index

/-- What was sent since the last install is above it and in index order. -/
structure Ordered : Prop where
  sorted : fenced.sent.Pairwise (fun earlier later => earlier.index < later.index)
  above : ∀ queued ∈ fenced.sent, fenced.tasks.snapshotIndex < queued.index
  committed : ∀ queued ∈ fenced.sent, ∃ entry ∈ fenced.tasks.committed, entry.index = queued.index

/-- The invariant of the tasks together with the machine. -/
structure Fence : Prop where
  invariant : Invariant fenced.tasks
  accepted : ∀ call ∈ fenced.tasks.calls, call.ok = true
  snapshot_le : fenced.tasks.snapshotIndex ≤ fenced.tasks.appliedIndex
  ordered : Ordered fenced
  stands : ∃ done rest, Stands apply fenced done rest

lemma Fence.init (machine : μ) : Fence apply (.init machine) where
  invariant := .init
  accepted := by simp [Fenced.init]
  snapshot_le := Nat.le_refl _
  ordered := by constructor <;> simp [Fenced.init]
  stands := ⟨[], [], by
    constructor <;>
      simp [Fenced.init, inFlight, backlog]⟩

/-- A run in which the machine accepts everything keeps the condition of the apply contract. -/
lemma nothingBehindFailure_of_accepted {state}
    (accepted : ∀ call ∈ state.calls, call.ok = true) (promised : Promised label state)
    (accepts : label.accepts = true) : NothingBehindFailure label state := by
  cases label with
  | commit =>
    left
    intro call mem failed
    simp [accepted call mem] at failed
  | apply => exact .inl accepts
  | install => exact promised
  | _ => trivial

lemma increasing_of_promised {state} (promised : Promised label state) :
    Increasing label state := by
  cases label with
  | commit => exact promised.1
  | _ => trivial

namespace Stands

variable {apply : Nat → List UInt8 → μ → μ} {before : Fenced μ} {done rest : List Queued}
  {tasks : State} {snapshot : μ}

variable (stands : Stands apply before done rest)
include stands

section

variable (calls_eq : tasks.calls = before.tasks.calls)
  (applied_eq : tasks.appliedIndex = before.tasks.appliedIndex)
include calls_eq applied_eq

/-- An action that keeps the calls, the frontier and the machine, and the entries in flight up to
what it supersedes, keeps the point. -/
lemma move {superseded sent}
    (sent_eq : sent = done ++ (tasks.inFlight ++ superseded))
    (quiet : tasks.owner.isInstalling = false → superseded = [])
    (ahead : ∀ queued ∈ tasks.inFlight ++ superseded, before.tasks.appliedIndex < queued.index) :
    Stands apply { before with tasks, sent } done superseded where
  calls_eq := calls_eq ▸ stands.calls_eq
  installed_le := calls_eq ▸ stands.installed_le
  machine_eq := stands.machine_eq
  sent_eq := sent_eq
  rest_nil := quiet
  done_le := applied_eq ▸ stands.done_le
  ahead := applied_eq ▸ ahead

/-- The queue moves on: what leaves it is superseded by the install in progress. -/
lemma shift {superseded}
    (split_eq : tasks.inFlight ++ superseded = before.tasks.inFlight ++ rest)
    (quiet : tasks.owner.isInstalling = false → superseded = []) :
    Stands apply { before with tasks } done superseded := by
  refine stands.move calls_eq applied_eq ?_ quiet ?_
  · rw [split_eq]
    exact stands.sent_eq
  · rw [split_eq]
    exact stands.ahead

lemma commit (ready : before.tasks.owner = .ready)
    (inFlight_eq : tasks.inFlight = before.tasks.inFlight ++ sends before.tasks.epoch entry)
    (ahead : before.tasks.appliedIndex < entry.index) :
    Stands apply (before.record apply ⟨.commit entry, snapshot⟩ tasks) done [] := by
  have rest_nil : rest = [] := stands.rest_nil (by simp [ready])
  subst rest_nil
  refine stands.move calls_eq applied_eq ?_ (fun _ => rfl) ?_
  · simp [stands.sent_eq, inFlight_eq]
  · intro queued mem
    simp only [inFlight_eq, append_nil, mem_append] at mem
    rcases mem with mem | mem
    · exact stands.ahead queued (by simp [mem])
    · exact index_of_sends mem ▸ ahead

end

lemma advance {queued} (locked : before.tasks.worker = .locked queued)
    (owner_eq : tasks.owner = before.tasks.owner)
    (inFlight_eq : before.tasks.inFlight = queued :: tasks.inFlight)
    (calls_eq : tasks.calls = before.tasks.calls ++ [queued.accepted])
    (applied_eq : tasks.appliedIndex = max before.tasks.appliedIndex queued.index)
    (sorted : before.sent.Pairwise (fun earlier later => earlier.index < later.index)) :
    Stands apply (before.record apply ⟨.apply true, snapshot⟩ tasks) (done ++ [queued]) rest := by
  have queued_ahead := stands.ahead queued (by simp [inFlight_eq])
  have later_lt : ∀ later ∈ tasks.inFlight ++ rest, queued.index < later.index := by
    rw [stands.sent_eq, inFlight_eq] at sorted
    have tail_sorted := (pairwise_append.mp sorted).2.1
    exact (pairwise_cons.mp tail_sorted).1
  simp only [record, locked]
  constructor
  case calls_eq =>
    change tasks.calls.drop before.installedAt = _
    rw [calls_eq, drop_append_of_le_length stands.installed_le, stands.calls_eq]
    simp
  case installed_le =>
    change before.installedAt ≤ tasks.calls.length
    have := stands.installed_le
    simp only [calls_eq, length_append]
    omega
  case machine_eq => simp [replay, stands.machine_eq]
  case sent_eq => simp [stands.sent_eq, inFlight_eq]
  case rest_nil =>
    intro quiet
    exact stands.rest_nil (owner_eq ▸ quiet)
  case done_le =>
    intro other mem
    change other.index ≤ tasks.appliedIndex
    rcases mem_append.mp mem with mem | mem
    · have := stands.done_le other mem
      omega
    · rw [mem_singleton.mp mem]
      omega
  case ahead =>
    intro other mem
    change tasks.appliedIndex < other.index
    have := later_lt other mem
    omega

end Stands

namespace Fence

variable {apply : Nat → List UInt8 → μ → μ} {before : Fenced μ} {tasks : State}

variable (fence : Fence apply before)
include fence

lemma applied_lt (promised : Promised (.commit entry) before.tasks) :
    before.tasks.appliedIndex < entry.index := by
  obtain ⟨increasing, above⟩ := promised
  have bounded := fence.invariant.ledger.applied_le (entry.index - 1) (by omega)
    (fun earlier mem => Nat.le_sub_one_of_lt (increasing earlier mem))
  omega

section

variable (action : Action μ) (promised : Promised action.label before.tasks)
  (effect : Effect before.tasks tasks action.label)
include promised effect

lemma ordered_record : Ordered (before.record apply action tasks) := by
  obtain ⟨sorted, above, committed⟩ := fence.ordered
  obtain ⟨label, snapshot⟩ := action
  cases effect with
  | commit entry ready owner_eq inFlight_eq committed_eq calls_eq applied_eq snapshot_eq =>
    have sends_sorted : (sends before.tasks.epoch entry).Pairwise
        (fun earlier later => earlier.index < later.index) := by
      simp only [sends]
      split <;> simp
    refine ⟨?_, ?_, ?_⟩
    · refine pairwise_append.mpr ⟨sorted, sends_sorted, fun earlier mem later later_mem => ?_⟩
      obtain ⟨source, source_mem, source_eq⟩ := committed earlier mem
      have := promised.1 source source_mem
      rw [index_of_sends later_mem]
      omega
    · intro queued mem
      change tasks.snapshotIndex < queued.index
      rw [snapshot_eq]
      rcases mem_append.mp mem with mem | mem
      · exact above queued mem
      · exact index_of_sends mem ▸ promised.2
    · intro queued mem
      change ∃ source ∈ tasks.committed, _
      rw [committed_eq]
      rcases mem_append.mp mem with mem | mem
      · obtain ⟨source, source_mem, source_eq⟩ := committed queued mem
        exact ⟨source, by simp [source_mem], source_eq⟩
      · exact ⟨entry, by simp, (index_of_sends mem).symm⟩
  | restored => exact ⟨.nil, by simp [record], by simp [record]⟩
  | confEntry outcome _ _ _ _ _ committed_eq _ _ snapshot_eq
  | install index dropped _ _ committed_eq _ _ snapshot_eq
  | refused _ _ committed_eq _ _ snapshot_eq =>
    exact ⟨sorted, snapshot_eq ▸ above, committed_eq ▸ committed⟩
  | worker moves _ _ committed_eq _ _ snapshot_eq =>
    rcases moves with rfl | rfl <;> exact ⟨sorted, snapshot_eq ▸ above, committed_eq ▸ committed⟩
  | applied queued locked _ _ committed_eq _ _ snapshot_eq =>
    simp only [record, locked]
    exact ⟨sorted, snapshot_eq ▸ above, committed_eq ▸ committed⟩

/-- The point at which the machine stands survives every action; a restore starts a new one. -/
lemma stands_record : ∃ done rest, Stands apply (before.record apply action tasks) done rest := by
  obtain ⟨done, rest, stands⟩ := fence.stands
  obtain ⟨label, snapshot⟩ := action
  cases effect with
  | commit entry ready _ inFlight_eq _ calls_eq applied_eq =>
    exact ⟨done, [], stands.commit calls_eq applied_eq ready inFlight_eq
      (fence.applied_lt promised)⟩
  | confEntry _ entry flushed _ drained drained_after _ calls_eq applied_eq =>
    have rest_nil : rest = [] := stands.rest_nil (by simp [flushed])
    have applied_le : before.tasks.appliedIndex ≤ tasks.appliedIndex := by
      rw [applied_eq]
      split <;> omega
    subst rest_nil
    refine ⟨done, [], ?_⟩
    constructor
    case calls_eq => exact calls_eq ▸ stands.calls_eq
    case installed_le => exact calls_eq ▸ stands.installed_le
    case machine_eq => exact stands.machine_eq
    case sent_eq => simpa [record, drained, drained_after] using stands.sent_eq
    case rest_nil => exact fun _ => rfl
    case done_le =>
      exact fun queued mem => Nat.le_trans (stands.done_le queued mem) applied_le
    case ahead => simp [record, drained_after]
  | install index dropped installing inFlight_eq _ calls_eq applied_eq =>
    -- what the bumped epoch drops joins what an earlier install dropped
    refine ⟨done, dropped ++ rest, stands.shift calls_eq applied_eq ?_ fun quiet => ?_⟩
    · simp [inFlight_eq]
    · cases installing.symm.trans quiet
  | restored _ _ _ drained =>
    exact ⟨[], [], by constructor <;> simp [record, drained]⟩
  | refused installing inFlight_eq _ calls_eq applied_eq =>
    refine ⟨done, rest, stands.shift calls_eq applied_eq (by rw [inFlight_eq]) fun quiet => ?_⟩
    cases installing.symm.trans quiet
  | applied queued locked owner_eq inFlight_eq _ calls_eq applied_eq =>
    exact ⟨done ++ [queued], rest, stands.advance locked owner_eq inFlight_eq calls_eq applied_eq
      fence.ordered.sorted⟩
  | worker moves owner_cases inFlight_eq _ calls_eq applied_eq =>
    have installing_eq : tasks.owner.isInstalling = before.tasks.owner.isInstalling := by
      rcases owner_cases with owner_eq | ⟨entry, flushing, flushed⟩
      · rw [owner_eq]
      · simp [flushing, flushed]
    have shifted := stands.shift calls_eq applied_eq (by rw [inFlight_eq])
      (installing_eq ▸ stands.rest_nil)
    rcases moves with rfl | rfl <;> exact ⟨done, rest, shifted⟩

end

lemma snapshot_le_of_effect {label} (effect : Effect before.tasks tasks label) :
    tasks.snapshotIndex ≤ tasks.appliedIndex := by
  have snapshot_le := fence.snapshot_le
  cases effect with
  | confEntry _ _ _ _ _ _ _ _ applied_eq =>
    rw [applied_eq]
    split <;> omega
  | _ => omega

lemma step {action after} (admitted : Fenced.Admitted action before)
    (taken : Fenced.step apply action before = some after) : Fence apply after := by
  obtain ⟨promised, succeeds⟩ := admitted
  obtain ⟨tasks, tasks_taken, rfl⟩ := Option.map_eq_some_iff.mp taken
  have accepts := Label.accepts_of_succeeds succeeds
  have effect := effect_of_step fence.invariant.channel accepts tasks_taken
  have invariant : Invariant tasks :=
    fence.invariant.step (increasing_of_promised promised)
      (nothingBehindFailure_of_accepted fence.accepted promised accepts) tasks_taken
  have tasks_eq : (before.record apply action tasks).tasks = tasks := by
    simp only [record]
    split <;> rfl
  have accepted := effect.accepted fence.accepted
  have snapshot_le := fence.snapshot_le_of_effect effect
  exact
    { invariant := by rwa [tasks_eq]
      accepted := by rwa [tasks_eq]
      snapshot_le := by rwa [tasks_eq]
      ordered := fence.ordered_record action promised effect
      stands := fence.stands_record action promised effect }

end Fence

/-- The machine holds the last installed snapshot followed by a prefix of the entries sent since,
each handed over once and in index order, the calls made since that install are those of the
prefix, and the frontier marks where the prefix ends. -/
def AtFrontier : Prop :=
  fenced.sent.Pairwise (fun earlier later => earlier.index < later.index) ∧
    (∀ queued ∈ fenced.sent, fenced.tasks.snapshotIndex < queued.index) ∧
      fenced.tasks.snapshotIndex ≤ fenced.tasks.appliedIndex ∧
        ∃ count,
          fenced.machine = replay apply (fenced.sent.take count) fenced.base ∧
            fenced.tasks.calls.drop fenced.installedAt =
              (fenced.sent.take count).map Queued.accepted ∧
            ∀ position queued, fenced.sent[position]? = some queued →
              (position < count ↔ queued.index ≤ fenced.tasks.appliedIndex)

lemma Fence.atFrontier {apply} {fenced : Fenced μ}
    (fence : Fence apply fenced) : AtFrontier apply fenced := by
  obtain ⟨done, rest, stands⟩ := fence.stands
  have take_eq : fenced.sent.take done.length = done := by simp [stands.sent_eq]
  refine ⟨fence.ordered.sorted, fence.ordered.above, fence.snapshot_le, done.length, ?_, ?_, ?_⟩
  · rw [take_eq]
    exact stands.machine_eq
  · rw [take_eq]
    exact stands.calls_eq
  · intro position queued found
    rw [stands.sent_eq] at found
    constructor
    · intro applied
      rw [List.getElem?_append_left applied] at found
      exact stands.done_le queued (mem_of_getElem? found)
    · intro behind
      by_contra pending
      rw [List.getElem?_append_right (by omega)] at found
      have := stands.ahead queued (mem_of_getElem? found)
      omega

/-- Where raft-rs keeps its promises and `apply` and `restore` succeed, the machine stands at the
frontier in every state, with the mutex free or not. -/
theorem machine_at_frontier (apply : Nat → List UInt8 → μ → μ) {machine : μ}
    {actions : List (Action μ)} {finish : Fenced μ}
    (run : Runs (Fenced.step apply) Fenced.Admitted (.init machine) actions finish) :
    AtFrontier apply finish := by
  have fence : Fence apply finish :=
    run.invariant (Fence.init apply machine) fun fence admitted taken => fence.step admitted taken
  exact fence.atFrontier

private def numbered (index : Nat) : Entry :=
  { entryType := .entryNormal, term := 1, index, data := [index.toUInt8], context := [] }

/-- Entries 1, 2 and 3 are sent and the worker holds the second when a snapshot at 5 is installed;
afterwards the machine holds the snapshot and entry 6 only. -/
theorem machine_at_frontier_after_install :
    ∃ actions finish, Runs (Fenced.step fun index _ machine => machine ++ [index])
      Fenced.Admitted (.init []) actions finish ∧ finish.machine = [50, 6] ∧
        finish.tasks.appliedIndex = 6 ∧ finish.tasks.calls.length = 2 ∧
          AtFrontier (fun index _ machine => machine ++ [index]) finish := by
  refine ⟨([.commit (numbered 1), .commit (numbered 2), .commit (numbered 3), .receive, .lock,
    .apply true, .receive, .install 5, .restore true, .lock, .commit (numbered 6), .receive,
    .receive, .lock, .apply true] : List Label).map fun label => { label, snapshot := [50] },
    Runs.exists_of_test (fun fenced => fenced.machine = [50, 6] ∧ fenced.tasks.appliedIndex = 6 ∧
      fenced.tasks.calls.length = 2) (by decide) fun run passed => ?_⟩
  obtain ⟨machine_eq, applied_eq, length_eq⟩ := passed
  exact ⟨machine_eq, applied_eq, length_eq, machine_at_frontier _ run⟩

end Catga.Raft.Apply
