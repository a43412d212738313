import Catga.Error

/-!
# Durable flow state

A flow state is an immutable revision: every transition builds a new value, and the value that is
persisted carries the next optimistic-concurrency version.  `i64` versions and `u32` step counters
are natural numbers whose increments fail at the top of their range.
-/

namespace Catga.Flow

inductive FlowStatus where
  | running
  | compensating
  | suspended
  | done
  | failed
  | cancelled
deriving DecidableEq

def FlowStatus.isTerminal : FlowStatus → Bool
  | done | failed | cancelled => true
  | running | compensating | suspended => false

def FlowStatus.isOwned : FlowStatus → Bool
  | running | compensating => true
  | suspended | done | failed | cancelled => false

/-- Largest version, `i64::MAX`. -/
def maxVersion : Nat := 2 ^ 63 - 1

/-- Largest completed-step count, `u32::MAX`. -/
def maxStep : Nat := 2 ^ 32 - 1

def maxFlowDataBytes : Nat := 1024 * 1024

/-- The durable state of a flow. -/
structure FlowState where
  id : String
  flowType : String
  status : FlowStatus
  step : Nat
  version : Nat
  owner : Option String
  heartbeat : Nat
  data : List UInt8
  error : Option CatgaError
deriving DecidableEq

namespace FlowState

/-- A running flow owned by `owner` at version zero. -/
def new (id flowType : String) (data : List UInt8) (owner : String) (now : Nat) : FlowState :=
  { id, flowType, status := .running, step := 0, version := 0, owner := some owner,
    heartbeat := now, data, error := none }

variable (state : FlowState)

/-- Check a state before it crosses a persistence boundary. -/
def validate : CatgaResult Unit :=
  if maxFlowDataBytes < state.data.length then
    .error ⟨.validation, s!"flow input payload exceeds {maxFlowDataBytes} bytes"⟩
  else .ok ()

def claimedBy (owner : String) (now : Nat) : FlowState :=
  { state with owner := some owner, heartbeat := now }

def heartbeatedAt (heartbeat : Nat) : FlowState := { state with heartbeat }

def atStep (step : Nat) : FlowState := { state with step }

/-- Undoing completed work; owner and heartbeat stay as they are. -/
def compensating : FlowState := { state with status := .compensating }

def withError (error : CatgaError) : FlowState := { state with error := some error }

def suspended : FlowState := { state with status := .suspended, owner := none }

def running : FlowState := { state with status := .running }

def done (step : Nat) : FlowState :=
  { state with status := .done, step, owner := none, error := none }

def failed (error : CatgaError) : FlowState :=
  { state with status := .failed, owner := none, error := some error }

def cancelled : FlowState := { state with status := .cancelled, owner := none, error := none }

def nextVersion : CatgaResult FlowState :=
  if state.version < maxVersion then .ok { state with version := state.version + 1 }
  else .error ⟨.conflict, "flow state version cannot advance beyond i64::MAX"⟩

/-- Whether `next` is the representable successor of `expected`. -/
def isNextVersion (expected next : Nat) : Bool :=
  decide (expected < maxVersion) && next == expected + 1

def completedSteps : CatgaResult Nat :=
  if state.step < maxStep then .ok (state.step + 1)
  else .error ⟨.internal, "flow completed step counter is exhausted"⟩

lemma nextVersion_eq_ok {state next : FlowState} :
    state.nextVersion = .ok next ↔
      state.version < maxVersion ∧ next = { state with version := state.version + 1 } := by
  unfold nextVersion
  split_ifs with below
  · simp [below, eq_comm]
  · simp [below]

lemma isNextVersion_iff {expected next : Nat} :
    isNextVersion expected next = true ↔ expected < maxVersion ∧ next = expected + 1 := by
  simp [isNextVersion]

end FlowState

/-- Whether a heartbeat is at least `staleAfter` old at `now`; a heartbeat in the future is not. -/
def isStale (heartbeat now staleAfter : Nat) : Bool :=
  decide (heartbeat ≤ now) && decide (staleAfter ≤ now - heartbeat)

lemma isStale_iff {heartbeat now staleAfter : Nat} :
    isStale heartbeat now staleAfter = true ↔ heartbeat + staleAfter ≤ now := by
  simp only [isStale, Bool.and_eq_true, decide_eq_true_eq]
  omega

end Catga.Flow
