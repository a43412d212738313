import Catga.Flow.State

/-!
# The flow executor

Executors run work for durable flows over a shared store of flow states.  A call alternates between
requests to the store and decisions of its own; the clock is read where the source reads it.  This
module has one call by itself: which request it waits for, and what it does with the answer.
-/

namespace Catga.Flow

inductive FlowResult where
  | ok (completedSteps elapsed : Nat)
  | err (completedSteps : Nat) (error : CatgaError) (elapsed : Nat)
deriving DecidableEq

namespace FlowResult

def success (completedSteps : Nat) : FlowResult := .ok completedSteps 0

def failure (completedSteps : Nat) (error : CatgaError) : FlowResult := .err completedSteps error 0

def completedSteps : FlowResult → Nat
  | .ok completedSteps _ => completedSteps
  | .err completedSteps _ _ => completedSteps

def error : FlowResult → Option CatgaError
  | .ok _ _ => none
  | .err _ error _ => some error

/-- The same outcome without the time it took. -/
def untimed : FlowResult → FlowResult
  | .ok completedSteps _ => .success completedSteps
  | .err completedSteps error _ => .failure completedSteps error

end FlowResult

def terminalState (state : FlowState) (result : FlowResult) : CatgaResult FlowState :=
  match result.error with
  | some error => ((state.atStep result.completedSteps).failed error).nextVersion
  | none => (state.done result.completedSteps).nextVersion

def terminalResult (state : FlowState) : Option (CatgaResult FlowResult) :=
  match state.status with
  | .done => some (.ok (.success state.step))
  | .failed => some (match state.error with
      | some error => .ok (.failure state.step error)
      | none => .error ⟨.internal, "a failed flow has no stored error"⟩)
  | .cancelled =>
    some (.ok (.failure state.step ⟨.cancelled, "flow was cancelled"⟩))
  | .running | .compensating | .suspended => none

/-- What a terminal state makes of the state it replaces. -/
structure Concludes (state next : FlowState) (result : FlowResult) : Prop where
  id : next.id = state.id
  version : next.version = state.version + 1
  terminal : next.status.isTerminal = true
  unowned : next.owner = none
  /-- It tells the outcome, but not how long it took. -/
  outcome : terminalResult next = some (.ok result.untimed)

variable {result : FlowResult}

lemma terminalState_eq_ok {state next}
    (concluded : terminalState state result = .ok next) : Concludes state next result := by
  cases result with
  | ok | err =>
    obtain ⟨-, rfl⟩ := FlowState.nextVersion_eq_ok.mp concluded
    exact ⟨rfl, rfl, rfl, rfl, rfl⟩

variable {state : FlowState}

lemma untimed_of_terminalResult (read : terminalResult state = some (.ok result)) :
    result.untimed = result := by
  simp only [terminalResult] at read
  split at read
  · cases read
    rfl
  · split at read <;> cases read
    rfl
  · cases read
    rfl
  all_goals cases read

lemma terminalResult_isSome (state : FlowState) :
    (terminalResult state).isSome = state.status.isTerminal := by
  rw [terminalResult]
  cases state.status <;> rfl

namespace Executor

structure FlowExecutor where
  owner : String
  /-- Age of the last heartbeat at which it takes a flow over. -/
  staleAfter : Nat

/-- What a call is for. -/
inductive Purpose where
  /-- `execute`, or `execute_with_heartbeat` if the work is supervised. -/
  | execute (id : String) (supervised : Bool)
  | recoverStale (flowType : String) (maxClaims recovered : Nat)
  | heartbeat
deriving DecidableEq

inductive Answer where
  | result (result : FlowResult)
  | recovered (count : Nat)
  | beat (recorded : Bool)
deriving DecidableEq

/-- Where a call stands. -/
inductive Phase where
  | creating (initial : FlowState)
  | loading (initial : FlowState)
  /-- `claim_or_load` asks the clock whether the flow is stale. -/
  | deciding (initial current : FlowState)
  | stamping (initial current : FlowState)
  | claiming (initial current claimed : FlowState)
  | reloading (id : String)
  | sweeping
  | working (state : FlowState)
  | beating (state : FlowState)
  | persisting (state current next : FlowState) (result : FlowResult)
  | observing (state current : FlowState) (result : FlowResult)
  | probing (id : String) (version : Nat)
  | returned (outcome : CatgaResult Answer)
deriving DecidableEq

/-- A call of an executor. -/
structure Call where
  executor : FlowExecutor
  purpose : Purpose
  phase : Phase

/-- What a call asks of the store. -/
inductive Request where
  | create (state : FlowState)
  | get (id : String)
  | update (expectedVersion : Nat) (next : FlowState)
  | tryClaim (flowType owner : String) (staleAfter : Nat)
  | heartbeat (id owner : String) (version : Nat)

inductive Response where
  | failed (error : CatgaError)
  | flag (value : Bool)
  | found (state : Option FlowState)

inductive Task where
  | execute (id flowType : String) (data : List UInt8) (supervised : Bool)
  | recoverStale (flowType : String) (maxClaims : Nat)
  | heartbeat (id : String) (version : Nat)

/-- What moves a call on. -/
inductive Progress where
  | proceed
  | finish (outcome : CatgaResult FlowResult)
  | beat
  | cancel

namespace Call

variable (call : Call)

def goto (phase : Phase) : Call := { call with phase }

def refuse (code : ErrorCode) (message : String) : Call :=
  call.goto (.returned (.error ⟨code, message⟩))

/-- The head of the loop of `recover_stale`. -/
def sweep (flowType : String) (maxClaims recovered : Nat) : Call :=
  { call with
    purpose := .recoverStale flowType maxClaims recovered
    phase := if recovered < maxClaims then .sweeping else .returned (.ok (.recovered recovered)) }

/-- What follows the result of `persist_result`. -/
def conclude (outcome : CatgaResult FlowResult) : Call :=
  match outcome, call.purpose with
  | .error error, _ => call.goto (.returned (.error error))
  | .ok _, .recoverStale flowType maxClaims recovered =>
    call.sweep flowType maxClaims (recovered + 1)
  | .ok result, _ => call.goto (.returned (.ok (.result result)))

/-- The head of the loop of `persist_result`. -/
def persist (state current : FlowState) (result : FlowResult) : Call :=
  match terminalState current result with
  | .ok next => call.goto (.persisting state current next result)
  | .error error => call.goto (.returned (.error error))

def enter (executor : FlowExecutor) (now : Nat) : Task → Call
  | .execute id flowType data supervised =>
    let initial := FlowState.new id flowType data executor.owner now
    { executor, purpose := .execute id supervised
      phase := match initial.validate with
        | .ok () => .creating initial
        | .error error => .returned (.error error) }
  | .recoverStale flowType maxClaims =>
    sweep { executor, purpose := .heartbeat, phase := .sweeping } flowType maxClaims 0
  | .heartbeat id version => { executor, purpose := .heartbeat, phase := .probing id version }

def request : Option Request :=
  match call.phase with
  | .creating initial => some (.create initial)
  | .loading initial => some (.get initial.id)
  | .claiming _ current claimed => some (.update current.version claimed)
  | .reloading id => some (.get id)
  | .sweeping =>
    match call.purpose with
    | .recoverStale flowType _ _ =>
      some (.tryClaim flowType call.executor.owner call.executor.staleAfter)
    | _ => none
  | .beating state => some (.heartbeat state.id call.executor.owner state.version)
  | .persisting state _ next _ => some (.update state.version next)
  | .observing _ current _ => some (.get current.id)
  | .probing id version => some (.heartbeat id call.executor.owner version)
  | .deciding _ _ | .stamping _ _ | .working _ | .returned _ => none

section

variable {executor : FlowExecutor} {purpose : Purpose} {phase : Phase}

lemma request_create (requested : request ⟨executor, purpose, phase⟩ = some (.create state)) :
    phase = .creating state := by
  cases phase with
  | creating =>
    cases requested
    rfl
  | sweeping => cases purpose <;> cases requested
  | _ => cases requested

lemma request_get {id} (requested : request ⟨executor, purpose, phase⟩ = some (.get id)) :
    (∃ initial, phase = .loading initial ∧ initial.id = id) ∨ phase = .reloading id ∨
      ∃ state current result, phase = .observing state current result ∧ current.id = id := by
  cases phase with
  | loading initial =>
    cases requested
    exact .inl ⟨initial, rfl, rfl⟩
  | reloading =>
    cases requested
    exact .inr (.inl rfl)
  | observing state current result =>
    cases requested
    exact .inr (.inr ⟨state, current, result, rfl, rfl⟩)
  | sweeping => cases purpose <;> cases requested
  | _ => cases requested

lemma request_update {version next}
    (requested : request ⟨executor, purpose, phase⟩ = some (.update version next)) :
    (∃ initial current, phase = .claiming initial current next ∧ current.version = version) ∨
      ∃ state current result,
        phase = .persisting state current next result ∧ state.version = version := by
  cases phase with
  | claiming initial current =>
    cases requested
    exact .inl ⟨initial, current, rfl, rfl⟩
  | persisting state current terminal result =>
    cases requested
    exact .inr ⟨state, current, result, rfl, rfl⟩
  | sweeping => cases purpose <;> cases requested
  | _ => cases requested

lemma request_tryClaim {flowType owner staleAfter}
    (requested : request ⟨executor, purpose, phase⟩ = some (.tryClaim flowType owner staleAfter)) :
    phase = .sweeping ∧ owner = executor.owner ∧ staleAfter = executor.staleAfter ∧
      ∃ maxClaims recovered, purpose = .recoverStale flowType maxClaims recovered := by
  cases phase with
  | sweeping =>
    cases purpose with
    | recoverStale own maxClaims recovered =>
      cases requested
      exact ⟨rfl, rfl, rfl, maxClaims, recovered, rfl⟩
    | _ => cases requested
  | _ => cases requested

lemma request_heartbeat {id owner version}
    (requested : request ⟨executor, purpose, phase⟩ = some (.heartbeat id owner version)) :
    owner = executor.owner ∧
      ((∃ state, phase = .beating state ∧ state.id = id ∧ state.version = version) ∨
        phase = .probing id version) := by
  cases phase with
  | beating state =>
    cases requested
    exact ⟨rfl, .inl ⟨state, rfl, rfl, rfl⟩⟩
  | probing =>
    cases requested
    exact ⟨rfl, .inr rfl⟩
  | sweeping => cases purpose <;> cases requested
  | _ => cases requested

end

def settledResult (state : FlowState) : Option (CatgaResult FlowResult) :=
  if state.status.isTerminal then terminalResult state else none

lemma settledResult_eq_some {outcome}
    (settled : settledResult state = some outcome) :
    state.status.isTerminal = true ∧ terminalResult state = some outcome := by
  simp only [settledResult] at settled
  split at settled
  · rename_i ended
    exact ⟨ended, settled⟩
  · cases settled

lemma settledResult_eq_none (unsettled : settledResult state = none) :
    state.status.isTerminal = false := by
  have some_result := terminalResult_isSome state
  cases ended : state.status.isTerminal with
  | false => rfl
  | true =>
    rw [settledResult, if_pos ended] at unsettled
    rw [unsettled, ended] at some_result
    cases some_result

/-- `claim_or_load` after reading the flow. -/
def load (initial : FlowState) : Option FlowState → Call
  | none => call.refuse .transient "flow disappeared before it could be loaded"
  | some current =>
    match current.validate with
    | .error error => call.goto (.returned (.error error))
    | .ok () =>
      if current.flowType ≠ initial.flowType then
        call.refuse .conflict "a flow with this identity has a different type"
      else
        match settledResult current with
        | some outcome => call.goto (.returned (outcome.map .result))
        | none => call.goto (.deciding initial current)

/-- `load_running_or_terminal` after reading the flow. -/
def reload : Option FlowState → Call
  | none => call.refuse .transient "flow disappeared while ownership was changing"
  | some current =>
    match current.validate with
    | .error error => call.goto (.returned (.error error))
    | .ok () =>
      match settledResult current with
      | some outcome => call.goto (.returned (outcome.map .result))
      | none => call.refuse .transient "flow ownership changed before execution began"

/-- `persist_result` after reading the flow. -/
def observe (state : FlowState) (result : FlowResult) : Option FlowState → Call
  | none => call.refuse .transient "flow disappeared while saving its result"
  | some observed =>
    match observed.validate with
    | .error error => call.goto (.returned (.error error))
    | .ok () =>
      if observed.status.isTerminal then
        match terminalResult observed with
        | some outcome => call.conclude outcome
        | none => call.refuse .internal "terminal flow state has no result"
      else if observed.status = .running ∧ observed.owner = some call.executor.owner ∧
          observed.version = state.version then
        -- a heartbeat has replaced the record under the same version
        call.persist state observed result
      else call.refuse .transient "flow ownership changed before its result was saved"

/-- A flow that `try_claim` has returned. -/
def claimed : Option FlowState → Call
  | none =>
    match call.purpose with
    | .recoverStale _ _ recovered => call.goto (.returned (.ok (.recovered recovered)))
    | _ => call
  | some state =>
    match state.validate with
    | .error error => call.goto (.returned (.error error))
    | .ok () => call.goto (.working state)

/-- What a call does with the answer to its request. -/
def respond (response : Response) : Option Call :=
  match response, call.phase with
  | .failed _, .returned _ => none
  | .failed error, _ => some (call.goto (.returned (.error error)))
  | .flag created, .creating initial =>
    some (call.goto (if created then .working initial else .loading initial))
  | .flag updated, .claiming initial _ claimed =>
    some (call.goto (if updated then .working claimed else .reloading initial.id))
  | .flag recorded, .beating state =>
    some (if recorded then call.goto (.working state)
      else call.refuse .conflict "durable flow ownership was lost while heartbeating")
  | .flag updated, .persisting state current _ result =>
    some (if updated then call.conclude (.ok result)
      else call.goto (.observing state current result))
  | .flag recorded, .probing _ _ => some (call.goto (.returned (.ok (.beat recorded))))
  | .found state, .loading initial => some (call.load initial state)
  | .found state, .reloading _ => some (call.reload state)
  | .found observed, .observing state _ result => some (call.observe state result observed)
  | .found state, .sweeping => some (call.claimed state)
  | _, _ => none

/-- What a call does without the store, with the time it reads. -/
def proceed (now : Nat) (progress : Progress) : Option Call :=
  match call.phase, progress with
  | .deciding initial current, .proceed =>
    some (if isStale current.heartbeat now call.executor.staleAfter then
        call.goto (.stamping initial current)
      else call.refuse .transient "flow is already running on another owner")
  | .stamping initial current, .proceed =>
    some (match (current.claimedBy call.executor.owner now).nextVersion with
      | .ok claimed => call.goto (.claiming initial current claimed)
      | .error error => call.goto (.returned (.error error)))
  | .working state, .finish outcome =>
    some (call.persist state state (match outcome with
      | .ok result => result
      | .error error => .failure state.step error))
  | .working state, .beat =>
    match call.purpose with
    | .execute _ true => some (call.goto (.beating state))
    | _ => none
  | .working _, .cancel =>
    match call.purpose with
    | .execute _ true => some (call.refuse .cancelled "durable flow work was cancelled")
    | _ => none
  | _, _ => none

end Call

end Executor

end Catga.Flow
