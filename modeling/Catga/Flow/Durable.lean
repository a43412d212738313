import Catga.Flow.Suspension
import Catga.Flow.TimeWire

/-!
# Durable records of a flow and their wire forms

The records of a flow with every field that is persisted, in the types the wire knows, and the
conversions to and from their wire records.  An error survives the conversions only if it carries
the retryability of its own category: its wire record has room for no other.
-/

namespace Catga.Flow.Durable

open Codec List Option

def maxErrorDetailsBytes : Nat := 1024

/-- The longest run of characters within a number of bytes. -/
def takeWithin : Nat → List Char → List Char
  | _, [] => []
  | budget, char :: chars =>
    if (String.utf8EncodeChar char).length ≤ budget then
      char :: takeWithin (budget - (String.utf8EncodeChar char).length) chars
    else []

def boundedDetails (details : String) : String :=
  String.ofList (takeWithin maxErrorDetailsBytes details.toList)

lemma length_takeWithin_le (budget : Nat) (chars : List Char) :
    ((takeWithin budget chars).flatMap String.utf8EncodeChar).length ≤ budget := by
  induction chars generalizing budget with
  | nil => exact Nat.zero_le budget
  | cons char chars ih =>
    rw [takeWithin]
    split_ifs with within_budget
    · have rest := ih (budget - (String.utf8EncodeChar char).length)
      rw [flatMap_cons, length_append]
      omega
    · exact Nat.zero_le budget

lemma takeWithin_eq_self {budget chars}
    (short : (chars.flatMap String.utf8EncodeChar).length ≤ budget) :
    takeWithin budget chars = chars := by
  induction chars generalizing budget with
  | nil => rfl
  | cons char chars ih =>
    rw [flatMap_cons, length_append] at short
    rw [takeWithin, if_pos (by omega), ih (by omega)]

lemma length_boundedDetails_le (details : String) :
    (utf8Bytes (boundedDetails details)).length ≤ maxErrorDetailsBytes := by
  rw [Format.utf8Bytes_eq, boundedDetails, String.toList_ofList]
  exact length_takeWithin_le _ _

lemma boundedDetails_eq_self {details}
    (short : (utf8Bytes details).length ≤ maxErrorDetailsBytes) :
    boundedDetails details = details := by
  rw [Format.utf8Bytes_eq] at short
  rw [boundedDetails, takeWithin_eq_self short, String.ofList_toList]

def isRetryable : ErrorCode → Bool
  | .transportFailed | .timeout | .flowTimeout | .transient | .unavailable => true
  | _ => false

/-- An error with all that equality compares. -/
structure CatgaError where
  code : ErrorCode
  message : String
  details : Option String
  retryable : Option Bool
  bounded : ∀ text ∈ details, (utf8Bytes text).length ≤ maxErrorDetailsBytes

structure CatgaErrorWire where
  code : UInt8
  message : String
  details : Option String
  retryable : Bool

def CatgaErrorWire.default : CatgaErrorWire := ⟨0, "", none, false⟩

def encodeErrorCode : ErrorCode → UInt8
  | .validation => 0
  | .notFound => 1
  | .conflict => 2
  | .unauthorized => 3
  | .forbidden => 4
  | .cancelled => 5
  | .timeout => 6
  | .unsupported => 7
  | .transient => 8
  | .unavailable => 9
  | .internal => 10
  | .handlerFailed => 11
  | .handlerNotFound => 12
  | .pipelineFailed => 13
  | .persistenceFailed => 14
  | .lockFailed => 15
  | .transportFailed => 16
  | .serializationFailed => 17
  | .flowFailed => 18
  | .flowCancelled => 19
  | .flowTimeout => 20
  | .flowCompensating => 21

def decodeErrorCode (value : UInt8) : Except MemoryPackError ErrorCode :=
  match value.toNat with
  | 0 => .ok .validation
  | 1 => .ok .notFound
  | 2 => .ok .conflict
  | 3 => .ok .unauthorized
  | 4 => .ok .forbidden
  | 5 => .ok .cancelled
  | 6 => .ok .timeout
  | 7 => .ok .unsupported
  | 8 => .ok .transient
  | 9 => .ok .unavailable
  | 10 => .ok .internal
  | 11 => .ok .handlerFailed
  | 12 => .ok .handlerNotFound
  | 13 => .ok .pipelineFailed
  | 14 => .ok .persistenceFailed
  | 15 => .ok .lockFailed
  | 16 => .ok .transportFailed
  | 17 => .ok .serializationFailed
  | 18 => .ok .flowFailed
  | 19 => .ok .flowCancelled
  | 20 => .ok .flowTimeout
  | 21 => .ok .flowCompensating
  | _ => .error (.deserializationError s!"invalid Catga error code: {value}")

lemma decodeErrorCode_encodeErrorCode (code) :
    decodeErrorCode (encodeErrorCode code) = .ok code := by
  cases code <;> rfl

namespace CatgaError

def new (code : ErrorCode) (message : String) : CatgaError :=
  { code, message, details := none, retryable := some (Durable.isRetryable code)
    bounded := by simp }

variable (error : CatgaError)

def withDetails (details : String) : CatgaError :=
  { error with
    details := some (boundedDetails details)
    bounded := by
      intro text given
      cases given
      exact length_boundedDetails_le details }

def isRetryable : Bool := error.retryable.getD (Durable.isRetryable error.code)

def wire : CatgaErrorWire where
  code := encodeErrorCode error.code
  message := error.message
  details := error.details
  retryable := error.isRetryable

def ofWire (wire : CatgaErrorWire) : Except MemoryPackError CatgaError := do
  let code ← decodeErrorCode wire.code
  if wire.retryable ≠ Durable.isRetryable code then
    .error (.deserializationError "error retryability does not match its error code")
  else
    pure (match wire.details with
      | some details => (new code wire.message).withDetails details
      | none => new code wire.message)

def Plain : Prop := error.retryable = some (Durable.isRetryable error.code)
deriving Decidable

lemma ofWire_wire {error} (plain : error.Plain) : ofWire error.wire = .ok error := by
  have retryable_eq : error.wire.retryable = Durable.isRetryable error.code := by
    rw [wire, isRetryable, plain, getD_some]
  have rebuilt : (match error.details with
      | some details => (new error.code error.message).withDetails details
      | none => new error.code error.message) = error := by
    obtain ⟨code, message, details, retryable, bounded⟩ := error
    obtain rfl : retryable = some (Durable.isRetryable code) := plain
    cases details with
    | none => rfl
    | some details =>
      simp [withDetails, new, boundedDetails_eq_self (bounded details rfl)]
  refine bind_eq_ok.mpr ⟨error.code, decodeErrorCode_encodeErrorCode error.code, ?_⟩
  rw [if_neg (not_not.mpr retryable_eq)]
  exact congrArg Except.ok rebuilt

lemma plain_of_ofWire {wire error} (read : ofWire wire = .ok error) :
    error.Plain := by
  obtain ⟨code, -, continued⟩ := bind_eq_ok.mp read
  split at continued <;> cases continued
  cases wire.details with
  | none => rfl
  | some => rfl

end CatgaError

section

variable {α β : Type} {wire : α → β} {ofWire : β → Except MemoryPackError α} {property : α → Prop}
  {value : Option α} {values : List α}

lemma mapM_map_eq_ok (inverse : ∀ value ∈ values, ofWire (wire value) = .ok value) :
    (values.map wire).mapM ofWire = .ok values := by
  induction values with
  | nil => rfl
  | cons value values ih =>
    rw [map_cons, mapM_cons, inverse value mem_cons_self,
      ih fun other listed => inverse other (mem_cons_of_mem value listed)]
    rfl

lemma forall_of_mapM_eq_ok (carries : ∀ record value, ofWire record = .ok value → property value)
    {records : List β} (read : records.mapM ofWire = .ok values) :
    ∀ value ∈ values, property value := by
  induction records generalizing values with
  | nil =>
    cases read
    simp
  | cons record records ih =>
    rw [mapM_cons] at read
    obtain ⟨value, value_read, continued⟩ := bind_eq_ok.mp read
    obtain ⟨rest, rest_read, returned⟩ := bind_eq_ok.mp continued
    cases returned
    rw [forall_mem_cons]
    exact ⟨carries record value value_read, ih rest_read⟩

lemma option_mapM_map_eq_ok (inverse : ∀ held ∈ value, ofWire (wire held) = .ok held) :
    (value.map wire).mapM ofWire = .ok value := by
  cases value with
  | none => rfl
  | some value =>
    simp only [map_some, mapM_some, inverse value rfl]
    rfl

lemma forall_of_option_mapM_eq_ok
    (carries : ∀ record value, ofWire record = .ok value → property value) {record : Option β}
    (read : record.mapM ofWire = .ok value) : ∀ held ∈ value, property held := by
  cases record with
  | none =>
    cases read
    simp
  | some record =>
    obtain ⟨converted, converted_read, returned⟩ := bind_eq_ok.mp read
    cases returned
    rintro held ⟨⟩
    exact carries record _ converted_read

def validated (check : CatgaResult Unit) (describe : Catga.CatgaError → String) (value : α) :
    Except MemoryPackError α :=
  match check with
  | .ok () => .ok value
  | .error error => .error (.deserializationError (describe error))

lemma validated_eq_ok {check describe}
    {value result : α} :
    validated check describe value = .ok result ↔ check = .ok () ∧ value = result := by
  cases check with
  | error => simp [validated]
  | ok => simp [validated]

end

structure FlowState where
  id : String
  flowType : String
  status : FlowStatus
  step : UInt32
  version : Int64
  owner : Option String
  heartbeat : SystemTime
  data : List UInt8
  error : Option CatgaError

structure FlowStateWire where
  id : String
  flowType : String
  status : UInt8
  step : UInt32
  version : Int64
  owner : Option String
  heartbeat : TimeWire
  data : List UInt8
  error : Option CatgaErrorWire

def encodeFlowStatus : FlowStatus → UInt8
  | .running => 0
  | .compensating => 1
  | .suspended => 2
  | .done => 3
  | .failed => 4
  | .cancelled => 5

def decodeFlowStatus (value : UInt8) : Except MemoryPackError FlowStatus :=
  match value.toNat with
  | 0 => .ok .running
  | 1 => .ok .compensating
  | 2 => .ok .suspended
  | 3 => .ok .done
  | 4 => .ok .failed
  | 5 => .ok .cancelled
  | _ => .error (.deserializationError s!"invalid flow status: {value}")

lemma decodeFlowStatus_encodeFlowStatus (status) :
    decodeFlowStatus (encodeFlowStatus status) = .ok status := by
  cases status <;> rfl

namespace FlowState

variable (state : FlowState)

/-- What the runtime's model keeps of a state: counters and times as natural numbers, errors without
their details. -/
def model : Flow.FlowState where
  id := state.id
  flowType := state.flowType
  status := state.status
  step := state.step.toNat
  version := state.version.toNatClampNeg
  owner := state.owner
  heartbeat := state.heartbeat.nanos.toNat
  data := state.data
  error := state.error.map fun error => ⟨error.code, error.message⟩

def validate : CatgaResult Unit := state.model.validate

def wire : FlowStateWire where
  id := state.id
  flowType := state.flowType
  status := encodeFlowStatus state.status
  step := state.step
  version := state.version
  owner := state.owner
  heartbeat := encodeTime state.heartbeat
  data := state.data
  error := state.error.map CatgaError.wire

def ofWire (wire : FlowStateWire) : Except MemoryPackError FlowState := do
  let status ← decodeFlowStatus wire.status
  let heartbeat ← decodeTime wire.heartbeat
  let error ← wire.error.mapM CatgaError.ofWire
  let state : FlowState :=
    { id := wire.id, flowType := wire.flowType, status, step := wire.step, version := wire.version,
      owner := wire.owner, heartbeat, data := wire.data, error }
  validated state.validate (fun error => s!"invalid flow state: {error.message}") state

/-- Its failure asserts the retryability of its category. -/
def Plain : Prop := ∀ error ∈ state.error, error.Plain
deriving Decidable

variable {state : FlowState}

lemma ofWire_wire (plain : state.Plain) (valid : state.validate = .ok ()) :
    ofWire state.wire = .ok state := by
  have error_read : (state.error.map CatgaError.wire).mapM CatgaError.ofWire = .ok state.error :=
    option_mapM_map_eq_ok fun error held => CatgaError.ofWire_wire (plain error held)
  simp only [ofWire, wire, decodeFlowStatus_encodeFlowStatus, decodeTime_encodeTime, error_read]
  exact validated_eq_ok.mpr ⟨valid, rfl⟩

lemma plain_of_ofWire {wire} (read : ofWire wire = .ok state) : state.Plain := by
  obtain ⟨status, -, continued⟩ := bind_eq_ok.mp read
  obtain ⟨heartbeat, -, continued⟩ := bind_eq_ok.mp continued
  obtain ⟨error, error_read, continued⟩ := bind_eq_ok.mp continued
  have plain : ∀ held ∈ error, held.Plain :=
    forall_of_option_mapM_eq_ok (fun _ _ => CatgaError.plain_of_ofWire) error_read
  obtain ⟨-, rfl⟩ := validated_eq_ok.mp continued
  exact plain

end FlowState

structure WaitResult where
  childId : String
  payload : Option (List UInt8)
  error : Option CatgaError

inductive FlowChildLaunchState where
  | pending
  | claimed (owner : String) (expiresAt : SystemTime)
  | launched

structure FlowChildLaunch where
  childId : String
  state : FlowChildLaunchState

structure WaitCondition where
  correlationId : String
  policy : WaitPolicy
  expectedCount : UInt32
  results : List WaitResult
  createdAt : SystemTime
  timeout : Duration
  childLaunches : List FlowChildLaunch

structure WaitResultWire where
  childId : String
  payload : Option (List UInt8)
  error : Option CatgaErrorWire

structure FlowChildLaunchWire where
  childId : String
  state : UInt8
  owner : Option String
  expiresAt : Option TimeWire

structure WaitConditionWire where
  correlationId : String
  policy : UInt8
  expectedCount : UInt32
  results : List WaitResultWire
  createdAt : TimeWire
  timeout : DurationWire
  childLaunches : List FlowChildLaunchWire

def WaitConditionWire.default : WaitConditionWire := ⟨"", 0, 0, [], .default, .default, []⟩

namespace WaitResult

def wire (result : WaitResult) : WaitResultWire where
  childId := result.childId
  payload := result.payload
  error := result.error.map CatgaError.wire

def ofWire (wire : WaitResultWire) : Except MemoryPackError WaitResult := do
  let error ← wire.error.mapM CatgaError.ofWire
  pure { childId := wire.childId, payload := wire.payload, error }

def Plain (result : WaitResult) : Prop := ∀ error ∈ result.error, error.Plain
deriving Decidable

variable {result : WaitResult}

lemma ofWire_wire (plain : result.Plain) : ofWire result.wire = .ok result := by
  have error_read : (result.error.map CatgaError.wire).mapM CatgaError.ofWire = .ok result.error :=
    option_mapM_map_eq_ok fun error held => CatgaError.ofWire_wire (plain error held)
  simp only [ofWire, wire, error_read]
  rfl

lemma plain_of_ofWire {wire} (read : ofWire wire = .ok result) :
    result.Plain := by
  obtain ⟨error, error_read, returned⟩ := bind_eq_ok.mp read
  cases returned
  exact forall_of_option_mapM_eq_ok (fun _ _ => CatgaError.plain_of_ofWire) error_read

end WaitResult

namespace FlowChildLaunch

def wire (launch : FlowChildLaunch) : FlowChildLaunchWire :=
  match launch.state with
  | .pending => { childId := launch.childId, state := 0, owner := none, expiresAt := none }
  | .claimed owner expiresAt =>
    { childId := launch.childId, state := 1, owner := some owner,
      expiresAt := some (encodeTime expiresAt) }
  | .launched => { childId := launch.childId, state := 2, owner := none, expiresAt := none }

def ofWire (wire : FlowChildLaunchWire) : Except MemoryPackError FlowChildLaunch := do
  let state ← match wire.state.toNat, wire.owner, wire.expiresAt with
    | 0, none, none => pure .pending
    | 1, some owner, some expiresAt => do
        let expiresAt ← decodeTime expiresAt
        pure (.claimed owner expiresAt)
    | 2, none, none => pure .launched
    | _, _, _ => .error (.deserializationError "invalid flow child launch state")
  pure { childId := wire.childId, state }

lemma ofWire_wire (launch) : ofWire launch.wire = .ok launch := by
  obtain ⟨childId, state⟩ := launch
  cases state with
  | pending => rfl
  | claimed owner expiresAt =>
    have time_read := decodeTime_encodeTime expiresAt
    change (do
      let expiresAt ← decodeTime (encodeTime expiresAt)
      pure (⟨childId, .claimed owner expiresAt⟩ : FlowChildLaunch)) = _
    rw [time_read]
    rfl
  | launched => rfl

end FlowChildLaunch

def encodeWaitPolicy : WaitPolicy → UInt8
  | .all => 0
  | .any => 1

def decodeWaitPolicy (value : UInt8) : Except MemoryPackError WaitPolicy :=
  match value.toNat with
  | 0 => .ok .all
  | 1 => .ok .any
  | _ => .error (.deserializationError s!"invalid wait policy: {value}")

lemma decodeWaitPolicy_encodeWaitPolicy (policy) :
    decodeWaitPolicy (encodeWaitPolicy policy) = .ok policy := by
  cases policy <;> rfl

/-- The debug text of an error of `validate`; all of them are plain validation errors. -/
def debugValidation (message : String) : String :=
  "CatgaError \x7b code: Validation, message: \"" ++ message ++
    "\", details: None, retryable: Some(false), source: None \x7d"

namespace WaitCondition

variable (wait : WaitCondition)

def model : Flow.WaitCondition where
  correlationId := wait.correlationId
  policy := wait.policy
  expectedCount := wait.expectedCount.toNat
  results := wait.results.map fun result =>
    ⟨result.childId, result.payload, result.error.map fun error => ⟨error.code, error.message⟩⟩
  createdAt := wait.createdAt.nanos.toNat
  timeout := wait.timeout.seconds.toNat * nanosPerSecond + wait.timeout.nanos.toNat
  childLaunches := wait.childLaunches.map fun launch => ⟨launch.childId, match launch.state with
    | .pending => .pending
    | .claimed owner expiresAt => .claimed owner expiresAt.nanos.toNat
    | .launched => .launched⟩

def validate : CatgaResult Unit := wait.model.validate

def wire : WaitConditionWire where
  correlationId := wait.correlationId
  policy := encodeWaitPolicy wait.policy
  expectedCount := wait.expectedCount
  results := wait.results.map WaitResult.wire
  createdAt := encodeTime wait.createdAt
  timeout := encodeDuration wait.timeout
  childLaunches := wait.childLaunches.map FlowChildLaunch.wire

/-- The fields that are converted before the timeout. -/
def leadingFields (wire : WaitConditionWire) :
    Except MemoryPackError (WaitPolicy × List WaitResult × SystemTime) := do
  let policy ← decodeWaitPolicy wire.policy
  let results ← wire.results.mapM WaitResult.ofWire
  let createdAt ← decodeTime wire.createdAt
  pure (policy, results, createdAt)

/-- The wait a wire record stands for; `none` where converting the timeout panics. -/
def ofWire (wire : WaitConditionWire) : Option (Except MemoryPackError WaitCondition) :=
  match leadingFields wire with
  | .error error => some (.error error)
  | .ok (policy, results, createdAt) =>
    match decodeDuration wire.timeout with
    | none => none
    | some timeout => some do
        let childLaunches ← wire.childLaunches.mapM FlowChildLaunch.ofWire
        let condition : WaitCondition :=
          { correlationId := wire.correlationId, policy, expectedCount := wire.expectedCount,
            results, createdAt, timeout, childLaunches }
        validated condition.validate
          (fun error => s!"invalid flow wait condition: {debugValidation error.message}") condition

/-- The errors among its results assert the retryability of their categories. -/
def Plain : Prop := ∀ result ∈ wait.results, result.Plain
deriving Decidable

variable {wait : WaitCondition} {wire : WaitConditionWire}

lemma leadingFields_wire (plain : wait.Plain) :
    leadingFields wait.wire = .ok (wait.policy, wait.results, wait.createdAt) := by
  have results_read :
      (wait.results.map WaitResult.wire).mapM WaitResult.ofWire = .ok wait.results :=
    mapM_map_eq_ok fun result listed => WaitResult.ofWire_wire (plain result listed)
  simp only [leadingFields, wire, decodeWaitPolicy_encodeWaitPolicy, results_read,
    decodeTime_encodeTime]
  rfl

lemma ofWire_wire (plain : wait.Plain) (valid : wait.validate = .ok ()) :
    ofWire wait.wire = some (.ok wait) := by
  have launches_read : (wait.childLaunches.map FlowChildLaunch.wire).mapM FlowChildLaunch.ofWire =
      .ok wait.childLaunches := mapM_map_eq_ok fun launch _ => launch.ofWire_wire
  have timeout_read : decodeDuration wait.wire.timeout = some wait.timeout :=
    decodeDuration_encodeDuration wait.timeout
  rw [ofWire, leadingFields_wire plain]
  simp only [timeout_read]
  simp only [wire, launches_read]
  exact congrArg some (validated_eq_ok.mpr ⟨valid, rfl⟩)

/-- Converting a wait panics exactly if its timeout overflows and the fields before it convert. -/
lemma ofWire_eq_none :
    ofWire wire = none ↔ (∃ fields, leadingFields wire = .ok fields) ∧
      2 ^ 64 ≤ wire.timeout.seconds.toNat + wire.timeout.nanoseconds.toNat / nanosPerSecond := by
  rw [← decodeDuration_eq_none, ofWire]
  cases fields : leadingFields wire with
  | error => simp
  | ok =>
    cases timeout : decodeDuration wire.timeout with
    | none => simp
    | some => simp

lemma plain_of_ofWire (read : ofWire wire = some (.ok wait)) : wait.Plain := by
  cases fields : leadingFields wire with
  | error =>
    simp only [ofWire, fields] at read
    cases read
  | ok converted =>
    obtain ⟨policy, results, createdAt⟩ := converted
    obtain ⟨_, -, continued⟩ := bind_eq_ok.mp fields
    obtain ⟨_, results_read, continued⟩ := bind_eq_ok.mp continued
    obtain ⟨_, -, returned⟩ := bind_eq_ok.mp continued
    cases returned
    have plain : ∀ result ∈ results, result.Plain :=
      forall_of_mapM_eq_ok (fun _ _ => WaitResult.plain_of_ofWire) results_read
    cases timeout : decodeDuration wire.timeout with
    | none =>
      simp only [ofWire, fields, timeout] at read
      cases read
    | some =>
      simp only [ofWire, fields, timeout] at read
      obtain ⟨launches, -, continued⟩ := bind_eq_ok.mp (Option.some.inj read)
      obtain ⟨-, rfl⟩ := validated_eq_ok.mp continued
      exact plain

end WaitCondition

structure FlowContinuation where
  state : FlowState
  stepName : String
  wait : Option WaitCondition
  resumeAt : Option SystemTime
  scheduleId : Option String
  compensations : List String
  createdAt : SystemTime
  updatedAt : SystemTime

structure FlowContinuationWire where
  state : FlowState
  stepName : String
  wait : Option WaitConditionWire
  resumeAt : Option TimeWire
  scheduleId : Option String
  compensations : List String
  createdAt : TimeWire
  updatedAt : TimeWire

namespace FlowContinuation

variable (continuation : FlowContinuation)

def validate : CatgaResult Unit := do
  continuation.state.validate
  match continuation.wait with
  | some wait => wait.validate
  | none => .ok ()

def wire : FlowContinuationWire where
  state := continuation.state
  stepName := continuation.stepName
  wait := continuation.wait.map WaitCondition.wire
  resumeAt := continuation.resumeAt.map encodeTime
  scheduleId := continuation.scheduleId
  compensations := continuation.compensations
  createdAt := encodeTime continuation.createdAt
  updatedAt := encodeTime continuation.updatedAt

/-- The wait of a wire record; `none` where converting it panics. -/
def waitOfWire : Option WaitConditionWire → Option (Except MemoryPackError (Option WaitCondition))
  | none => some (.ok none)
  | some wire => (WaitCondition.ofWire wire).map fun converted => converted.map some

/-- The continuation a wire record stands for; `none` where converting its wait panics. -/
def ofWire (wire : FlowContinuationWire) : Option (Except MemoryPackError FlowContinuation) :=
  (waitOfWire wire.wait).map fun converted => do
    let wait ← converted
    let resumeAt ← wire.resumeAt.mapM decodeTime
    let createdAt ← decodeTime wire.createdAt
    let updatedAt ← decodeTime wire.updatedAt
    let continuation : FlowContinuation :=
      { state := wire.state, stepName := wire.stepName, wait, resumeAt,
        scheduleId := wire.scheduleId, compensations := wire.compensations, createdAt, updatedAt }
    validated continuation.validate
      (fun error => s!"invalid flow continuation: {debugValidation error.message}") continuation

def Plain : Prop := continuation.state.Plain ∧ ∀ wait ∈ continuation.wait, wait.Plain
deriving Decidable

variable {continuation : FlowContinuation} {wire : FlowContinuationWire}

lemma validate_eq_ok :
    continuation.validate = .ok () ↔
      continuation.state.validate = .ok () ∧
        ∀ wait ∈ continuation.wait, wait.validate = .ok () := by
  rw [validate]
  cases continuation.state.validate with
  | error => exact iff_of_false (by rintro ⟨⟩) (by rintro ⟨⟨⟩, -⟩)
  | ok =>
    cases continuation.wait with
    | none => exact iff_of_true rfl ⟨rfl, by simp⟩
    | some wait =>
      change wait.validate = .ok () ↔ _
      simp

lemma waitOfWire_wire (plain : continuation.Plain) (valid : continuation.validate = .ok ()) :
    waitOfWire continuation.wire.wait = some (.ok continuation.wait) := by
  obtain ⟨-, waits_valid⟩ := validate_eq_ok.mp valid
  obtain ⟨-, waits_plain⟩ := plain
  rw [wire]
  cases held : continuation.wait with
  | none => rfl
  | some wait =>
    simp only [map_some, waitOfWire,
      WaitCondition.ofWire_wire (waits_plain wait held) (waits_valid wait held)]
    rfl

lemma ofWire_wire (plain : continuation.Plain) (valid : continuation.validate = .ok ()) :
    ofWire continuation.wire = some (.ok continuation) := by
  have resume_read : (continuation.resumeAt.map encodeTime).mapM decodeTime =
      .ok continuation.resumeAt := option_mapM_map_eq_ok fun time _ => decodeTime_encodeTime time
  rw [ofWire, waitOfWire_wire plain valid, map_some]
  simp only [wire, resume_read, decodeTime_encodeTime]
  exact congrArg some (validated_eq_ok.mpr ⟨valid, rfl⟩)

lemma plain_of_ofWire (state_plain : wire.state.Plain)
    (read : ofWire wire = some (.ok continuation)) : continuation.Plain := by
  obtain ⟨converted, wait_read, rest_read⟩ := map_eq_some_iff.mp read
  obtain ⟨wait, rfl, continued⟩ := bind_eq_ok.mp rest_read
  have wait_plain : ∀ held ∈ wait, held.Plain := by
    rintro held ⟨⟩
    cases carried : wire.wait with
    | none =>
      rw [carried] at wait_read
      cases wait_read
    | some =>
      rw [carried] at wait_read
      obtain ⟨outcome, record_read, mapped⟩ := map_eq_some_iff.mp wait_read
      cases outcome with
      | error => cases mapped
      | ok =>
        cases mapped
        exact WaitCondition.plain_of_ofWire record_read
  obtain ⟨resumeAt, -, continued⟩ := bind_eq_ok.mp continued
  obtain ⟨createdAt, -, continued⟩ := bind_eq_ok.mp continued
  obtain ⟨updatedAt, -, continued⟩ := bind_eq_ok.mp continued
  obtain ⟨-, rfl⟩ := validated_eq_ok.mp continued
  exact ⟨state_plain, wait_plain⟩

lemma ofWire_eq_none :
    ofWire wire = none ↔ ∃ wait ∈ wire.wait, WaitCondition.ofWire wait = none := by
  rw [ofWire, map_eq_none_iff]
  cases wire.wait with
  | none => simp [waitOfWire]
  | some => simp [waitOfWire]

end FlowContinuation

end Catga.Flow.Durable
