import Catga.Foundation.Transition
import Catga.Raft.Entry

/-!
# The apply worker and the apply frontier

The owner loop hands committed payload entries to the apply worker over a bounded channel and
advances the frontier itself for configuration changes; a snapshot install bumps the apply epoch so
that the worker discards what is queued.  The tasks interleave at the channel, at the epoch checks
and at the state-machine mutex.
-/

namespace Catga.Raft.Apply

def defaultApplyChannelCapacity : Nat := 4096

/-- A committed entry on its way to the state machine, stamped with the epoch of its send. -/
structure Queued where
  index : Nat
  data : List UInt8
  epoch : Nat
deriving DecidableEq

/-- A message to the worker. -/
inductive ApplyMsg where
  | entry (queued : Queued)
  | barrier

/-- Where the apply worker stands between two atomic actions. -/
inductive Worker where
  | idle
  | received (queued : Queued)
  | locked (queued : Queued)
deriving DecidableEq

/-- Where the owner loop stands between two atomic actions. -/
inductive Owner where
  | ready
  | flushing (entry : Entry)
  | flushed (entry : Entry)
  | installing (index : Nat)
  /-- The restore failed; the ready that carried the snapshot is regenerated. -/
  | refused (index : Nat)
deriving DecidableEq

/-- One call of the machine's `apply` and whether it returned `Ok`. -/
structure Call where
  index : Nat
  data : List UInt8
  ok : Bool
deriving DecidableEq

/-- The apply thread, its channel, both tasks, and the history of what they did. -/
structure State where
  queue : List ApplyMsg
  epoch : Nat
  appliedIndex : Nat
  worker : Worker
  owner : Owner
  /-- Committed entries the owner has handled, oldest first. -/
  committed : List Entry
  snapshotIndex : Nat
  calls : List Call

/-- A freshly created apply thread with a spawned worker. -/
@[simp] def State.init : State :=
  { queue := [], epoch := 0, appliedIndex := 0, worker := .idle, owner := .ready,
    committed := [], snapshotIndex := 0, calls := [] }

/-- Append a message to the channel, waiting while it is full. -/
def send (message : ApplyMsg) (state : State) : Option State :=
  if state.queue.length < defaultApplyChannelCapacity then
    some { state with queue := state.queue ++ [message] }
  else none

/-- `ApplySender::send_entry`: queue one entry under the current epoch. -/
def sendEntry (index : Nat) (data : List UInt8) (state : State) : Option State :=
  send (.entry { index, data, epoch := state.epoch }) state

/-- One turn of the loop of `apply_committed`, up to the barrier of a configuration change. -/
def applyCommitted (entry : Entry) (state : State) : Option State :=
  let state := { state with committed := state.committed ++ [entry] }
  match entry.entryType with
  | .entryNormal =>
    if entry.data = [] then some state else sendEntry entry.index entry.data state
  | .entryConfChange | .entryConfChangeV2 =>
    send .barrier { state with owner := .flushing entry }

/-- How a configuration change ended on this node. -/
inductive ConfOutcome where
  | undecodable
  | refused
  | applied
deriving DecidableEq

/-- `advance_applied_index`: a `fetch_max` on the frontier. -/
def advanceAppliedIndex (index : Nat) (state : State) : State :=
  { state with appliedIndex := max state.appliedIndex index }

/-- `apply_conf_entry`: only an undecodable change leaves the frontier alone. -/
def applyConfEntry (entry : Entry) (outcome : ConfOutcome) (state : State) : State :=
  match outcome with
  | .undecodable => { state with owner := .ready }
  | .refused | .applied => advanceAppliedIndex entry.index { state with owner := .ready }

/-- The first half of `install_snapshot`: bump the epoch. -/
def installSnapshot (index : Nat) (state : State) : State :=
  { state with epoch := state.epoch + 1, owner := .installing index }

/-- `restore`, under the mutex: replace the machine and store the frontier, or fail. -/
def restore (index : Nat) (ok : Bool) (state : State) : State :=
  if ok then
    { state with appliedIndex := index, snapshotIndex := index, owner := .ready }
  else { state with owner := .refused index }

/-- `handle_apply_msg` up to the fast-path epoch check. -/
def handleApplyMsg (message : ApplyMsg) (state : State) : State :=
  match message with
  | .entry queued =>
    if queued.epoch = state.epoch then { state with worker := .received queued } else state
  | .barrier =>
    match state.owner with
    | .flushing entry => { state with owner := .flushed entry }
    | _ => state

/-- `apply_queued_entry` up to the epoch check under the mutex. -/
def lockQueuedEntry (queued : Queued) (state : State) : State :=
  if queued.epoch = state.epoch then { state with worker := .locked queued }
  else { state with worker := .idle }

/-- The rest of `apply_queued_entry`: call the machine, advance on `Ok`, release the mutex.  On
`Err` the worker only warns and goes on with the next message. -/
def applyQueuedEntry (queued : Queued) (ok : Bool) (state : State) : State :=
  let state := { state with
    worker := .idle
    calls := state.calls ++ [{ index := queued.index, data := queued.data, ok }] }
  if ok then advanceAppliedIndex queued.index state else state

/-- A step of owner or worker. -/
inductive Label where
  | commit (entry : Entry)
  | confEntry (outcome : ConfOutcome)
  | install (index : Nat)
  | restore (ok : Bool)
  | receive
  | lock
  | apply (ok : Bool)

/-- One atomic action; `none` where the task is elsewhere or blocked. -/
def step : Label → State → Option State
  | .commit entry, state =>
    match state.owner with
    | .ready => applyCommitted entry state
    | _ => none
  | .confEntry outcome, state =>
    match state.owner with
    | .flushed entry => some (applyConfEntry entry outcome state)
    | _ => none
  | .install index, state =>
    match state.owner with
    | .ready | .refused _ => some (installSnapshot index state)
    | _ => none
  | .restore ok, state =>
    match state.owner, state.worker with
    | .installing _, .locked _ => none
    | .installing index, _ => some (restore index ok state)
    | _, _ => none
  | .receive, state =>
    match state.worker, state.queue with
    | .idle, message :: rest => some (handleApplyMsg message { state with queue := rest })
    | _, _ => none
  | .lock, state =>
    match state.worker with
    | .received queued => some (lockQueuedEntry queued state)
    | _ => none
  | .apply ok, state =>
    match state.worker with
    | .locked queued => some (applyQueuedEntry queued ok state)
    | _ => none

end Catga.Raft.Apply
