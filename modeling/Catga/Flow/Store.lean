import Catga.Flow.Suspension
import Catga.Foundation.Table

/-!
# The continuation store

A linearizable map from flow identities to continuations.  A conditional write answers `none` when
its condition fails and the new store when it succeeds.  Versions only grow: every write either
installs the next version or keeps version, phase and owner of what it replaces.
-/

namespace Catga.Flow

abbrev Store := String → Option FlowContinuation

namespace Store

def empty : Store := fun _ => none

variable (store : Store)

def put (continuation : FlowContinuation) : Store :=
  Function.update store continuation.state.id (some continuation)

def Keyed : Prop :=
  ∀ flowId continuation, store flowId = some continuation → continuation.state.id = flowId

lemma Keyed.update {store : Store} (keyed : store.Keyed) {flowId : String}
    {next : FlowContinuation} (own : next.state.id = flowId) :
    Keyed (Function.update store flowId (some next)) := by
  intro other stored held
  obtain ⟨rfl, ⟨⟩⟩ | ⟨-, held⟩ := Foundation.update_eq_some held
  · exact own
  · exact keyed other stored held

def get (flowId : String) : CatgaResult (Option FlowContinuation) :=
  match store flowId with
  | none => .ok none
  | some continuation => do
      continuation.validate
      return some continuation

def create (continuation : FlowContinuation) : CatgaResult (Option Store) := do
  continuation.validate
  match store continuation.state.id with
  | none => return some (store.put continuation)
  | some _ => return none

/-- Replace the continuation at `expectedVersion` by its next version. -/
def update (expectedVersion : Nat) (next : FlowContinuation) : CatgaResult (Option Store) :=
  if FlowState.isNextVersion expectedVersion next.state.version then do
    next.validate
    match store next.state.id with
    | none => return none
    | some current =>
      if current.state.version = expectedVersion then return some (store.put next)
      else return none
  else .ok none

/-- Replace exactly the continuation `expected` by its next version. -/
def claim (expected next : FlowContinuation) : CatgaResult (Option Store) :=
  if next.state.id = expected.state.id ∧
      FlowState.isNextVersion expected.state.version next.state.version then do
    next.validate
    if store expected.state.id = some expected then return some (store.put next)
    else return none
  else .ok none

/-- `record_wait_success` and `record_wait_failure`: record a child's report at `version`.  A
report the wait does not take is answered as recorded, without a write. -/
def recordWait (flowId : String) (version : Nat) (childId : String)
    (report : ChildReport) (now : Nat) : Option Store := do
  let current ← store flowId
  if current.state.version = version then
    let wait ← current.wait
    let nextWait := wait.record childId report
    if nextWait.completedCount = wait.completedCount then return store
    else return Function.update store flowId (some (current.withWait nextWait now))
  else none

/-- Refresh the heartbeat of `owner` at `version`. -/
def heartbeat (flowId owner : String) (version now : Nat) : Option Store := do
  let current ← store flowId
  if current.state.owner = some owner ∧ current.state.version = version then
    return Function.update store flowId
      (some (current.withState (current.state.heartbeatedAt now) now))
  else none

end Store

end Catga.Flow
