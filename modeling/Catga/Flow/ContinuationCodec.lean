import Catga.Flow.Durable

/-!
# The codec of durable continuations

A continuation is framed by a format version and written through its wire record.  Writing checks
the size of the flow's input and the bounds of its wait; reading also holds the frame to the limits
of the flow codec, which bound every string, the frame and what is allocated for it.
-/

namespace Catga.Flow.Durable

open Codec Format FlowContinuationWire Durable.FlowContinuation List

/-- Memory taken by one entry of the vectors in a continuation. -/
structure RecordSizes where
  waitResult : Nat
  childLaunch : Nat
  string : Nat

def CatgaErrorWire.format : Format CatgaErrorWire :=
  .object 4
    ((Format.u8.pair (Format.string.pair ((Format.option "" .string).pair Format.bool))).convert
      (fun wire => (wire.code, wire.message, wire.details, wire.retryable))
      fun (code, message, details, retryable) => .ok { code, message, details, retryable })

def FlowStateWire.format : Format FlowStateWire :=
  .object 9
    ((Format.string.pair (Format.string.pair (Format.u8.pair (Format.u32.pair (Format.i64.pair
        ((Format.option "" .string).pair (TimeWire.format.pair (Format.bytes.pair
          (Format.option .default CatgaErrorWire.format))))))))).convert
      (fun wire => (wire.id, wire.flowType, wire.status, wire.step, wire.version, wire.owner,
        wire.heartbeat, wire.data, wire.error))
      fun (id, flowType, status, step, version, owner, heartbeat, data, error) =>
        .ok { id, flowType, status, step, version, owner, heartbeat, data, error })

/-- The codec of `FlowState`, which checks a state before it writes it. -/
def FlowState.format : Format FlowState :=
  { FlowStateWire.format.convert FlowState.wire FlowState.ofWire with
    serialize := fun state =>
      match state.validate with
      | .ok () => FlowStateWire.format.serialize state.wire
      | .error error => .error (.serializationError error.message) }

def WaitResultWire.format : Format WaitResultWire :=
  .object 3
    ((Format.string.pair ((Format.option [] .bytes).pair
        (Format.option .default CatgaErrorWire.format))).convert
      (fun wire => (wire.childId, wire.payload, wire.error))
      fun (childId, payload, error) => .ok { childId, payload, error })

def FlowChildLaunchWire.format : Format FlowChildLaunchWire :=
  .object 4
    ((Format.string.pair (Format.u8.pair ((Format.option "" .string).pair
        (Format.option .default TimeWire.format)))).convert
      (fun wire => (wire.childId, wire.state, wire.owner, wire.expiresAt))
      fun (childId, state, owner, expiresAt) => .ok { childId, state, owner, expiresAt })

variable (sizes : RecordSizes)

def WaitConditionWire.format : Format WaitConditionWire :=
  .object 7
    ((Format.string.pair (Format.u8.pair (Format.u32.pair
        ((Format.vec sizes.waitResult WaitResultWire.format).pair (TimeWire.format.pair
          (DurationWire.format.pair
            (.vec sizes.childLaunch FlowChildLaunchWire.format))))))).convert
      (fun wire => (wire.correlationId, wire.policy, wire.expectedCount, wire.results,
        wire.createdAt, wire.timeout, wire.childLaunches))
      fun (correlationId, policy, expectedCount, results, createdAt, timeout, childLaunches) =>
        .ok { correlationId, policy, expectedCount, results, createdAt, timeout, childLaunches })

/-- The fields of `FlowContinuationWire` after its state. -/
def FlowContinuationWire.fieldsFormat :
    Format (String × Option WaitConditionWire × Option TimeWire × Option String × List String ×
      TimeWire × TimeWire) :=
  Format.string.pair ((Format.option .default (WaitConditionWire.format sizes)).pair
    ((Format.option .default TimeWire.format).pair ((Format.option "" .string).pair
      ((Format.vec sizes.string .string).pair (TimeWire.format.pair TimeWire.format)))))

def FlowContinuationWire.format : Format FlowContinuationWire :=
  .object 8
    ((FlowState.format.pair (FlowContinuationWire.fieldsFormat sizes)).convert
      (fun wire => (wire.state, wire.stepName, wire.wait, wire.resumeAt, wire.scheduleId,
        wire.compensations, wire.createdAt, wire.updatedAt))
      fun (state, stepName, wait, resumeAt, scheduleId, compensations, createdAt, updatedAt) =>
        .ok { state, stepName, wait, resumeAt, scheduleId, compensations, createdAt, updatedAt })

/-- Room for everything but the input of a flow. -/
def maxFlowCodecMetadataBytes : Nat := 1024 * 1024

def formatVersion : UInt8 := 7

def memorypackDecodeLimits : CatgaResult MemoryPackDecodeLimits :=
  let maximum := UInt64.ofNat (maxFlowDataBytes + maxFlowCodecMetadataBytes)
  match MemoryPackDecodeLimits.new maximum maximum (256 * 1024) (.ofNat maxFlowDataBytes) 32 with
  | .ok limits => .ok limits
  | .error error =>
    .error ⟨.internal, s!"cannot configure flow state decode limits: {error.message}"⟩

def encodeContinuation (continuation : FlowContinuation) : CatgaResult (List UInt8) := do
  continuation.validate
  match (FlowContinuationWire.format sizes).serialize continuation.wire with
  | .ok payload => pure (formatVersion :: payload)
  | .error error => .error ⟨.internal, s!"cannot encode flow continuation: {error.message}"⟩

/-- `deserialize_bounded` of a continuation; `none` where its conversion panics. -/
def deserializeContinuation (limits : MemoryPackDecodeLimits)
    (bytes : List UInt8) : Option (Except MemoryPackError FlowContinuation) :=
  if limits.maxFrameBytes.toNat < bytes.length then
    some (.error (.limitExceeded "frame bytes" limits.maxFrameBytes.toNat))
  else
    match (FlowContinuationWire.format sizes).deserialize limits limits.maxNestingDepth.toNat
        { rest := bytes, used := 0 } with
    | .error error => some (.error error)
    | .ok (wire, input) =>
      (FlowContinuation.ofWire wire).map fun converted => do
        let continuation ← converted
        if input.rest = [] then pure continuation else .error .trailingBytes

/-- `decode_continuation`; `none` where it panics. -/
def decodeContinuation : List UInt8 → Option (CatgaResult FlowContinuation)
  | [] => some (.error ⟨.internal, "flow continuation value is missing its format version"⟩)
  | version :: payload =>
    if version ≠ formatVersion then
      some (.error ⟨.internal, s!"unsupported flow continuation format version {version}"⟩)
    else
      match memorypackDecodeLimits with
      | .error error => some (.error error)
      | .ok limits => (deserializeContinuation sizes limits payload).map fun decoded =>
        match decoded with
        | .ok continuation => .ok continuation
        | .error error => .error
            ⟨.internal, s!"cannot decode MemoryPack flow continuation: {error.message}"⟩

def flowLimits : MemoryPackDecodeLimits where
  maxFrameBytes := 2097152
  maxAllocationBytes := 2097152
  maxStringBytes := 262144
  maxCollectionItems := 1048576
  maxNestingDepth := 32
  nonzero := by decide
  string_le := by decide

lemma memorypackDecodeLimits_eq : memorypackDecodeLimits = .ok flowLimits := by
  decide

@[simp] lemma CatgaErrorWire.format_lossless : CatgaErrorWire.format.Lossless :=
  object_lossless (by decide) (convert_lossless (by (repeat' apply pair_lossless) <;> simp)
    fun _ => rfl)

@[simp] lemma FlowStateWire.format_lossless : FlowStateWire.format.Lossless :=
  object_lossless (by decide) (convert_lossless (by (repeat' apply pair_lossless) <;> simp)
    fun _ => rfl)

@[simp] lemma WaitResultWire.format_lossless : WaitResultWire.format.Lossless :=
  object_lossless (by decide) (convert_lossless (by (repeat' apply pair_lossless) <;> simp)
    fun _ => rfl)

@[simp] lemma FlowChildLaunchWire.format_lossless : FlowChildLaunchWire.format.Lossless :=
  object_lossless (by decide) (convert_lossless (by (repeat' apply pair_lossless) <;> simp)
    fun _ => rfl)

variable (sizes : RecordSizes)

@[simp] lemma WaitConditionWire.format_lossless : (WaitConditionWire.format sizes).Lossless :=
  object_lossless (by decide) (convert_lossless (by (repeat' apply pair_lossless) <;> simp)
    fun _ => rfl)

@[simp] lemma FlowContinuationWire.fieldsFormat_lossless :
    (FlowContinuationWire.fieldsFormat sizes).Lossless := by
  (repeat' apply pair_lossless) <;> simp

variable {state : FlowState} {continuation : FlowContinuation} {payload : List UInt8}
  {wire : FlowContinuationWire} {frame : List UInt8}

lemma FlowState.serialize_eq_ok {bytes} :
    FlowState.format.serialize state = .ok bytes ↔
      state.validate = .ok () ∧ FlowStateWire.format.serialize state.wire = .ok bytes := by
  simp only [FlowState.format]
  cases state.validate with
  | error => simp
  | ok => simp

lemma FlowState.format_restores (plain : state.Plain) (valid : state.validate = .ok ()) :
    FlowState.format.Restores state := by
  have converted : (FlowStateWire.format.convert FlowState.wire FlowState.ofWire).Restores state :=
    convert_restores (FlowStateWire.format_lossless.restores state.wire)
      (FlowState.ofWire_wire plain valid)
  exact
    { length := fun serialized => converted.length (FlowState.serialize_eq_ok.mp serialized).2
      reads := fun limits remaining serialized =>
        converted.reads limits remaining (FlowState.serialize_eq_ok.mp serialized).2 }

/-- Every state that is read asserts the retryability of its failure's category. -/
lemma FlowState.format_produces : FlowState.format.Produces FlowState.Plain := by
  have converted : (FlowStateWire.format.convert FlowState.wire FlowState.ofWire).Produces
      FlowState.Plain :=
    convert_produces (fun _ _ _ _ _ _ => trivial : FlowStateWire.format.Produces fun _ => True)
      fun _ _ _ => FlowState.plain_of_ofWire
  exact fun limits remaining input value rest read =>
    converted limits remaining input value rest read

lemma FlowContinuationWire.format_restores (restores : FlowState.format.Restores wire.state) :
    (FlowContinuationWire.format sizes).Restores wire :=
  object_restores (by decide) (convert_restores
    (pair_restores restores
      ((fieldsFormat_lossless sizes).restores _)) rfl)

lemma FlowContinuationWire.format_produces :
    (FlowContinuationWire.format sizes).Produces fun wire => wire.state.Plain := by
  refine object_produces 8 (convert_produces
    (pair_produces _ FlowState.format_produces) ?_)
  rintro record wire plain ⟨⟩
  exact plain

def CatgaErrorWire.footprint (wire : CatgaErrorWire) : Footprint :=
  { fixed := 7, texts := [wire.message, wire.details.getD ""] }

lemma CatgaErrorWire.format_occupies :
    CatgaErrorWire.format.Occupies CatgaErrorWire.footprint 1 :=
  object_occupies (convert_occupies
    (pair_occupies u8_occupies (pair_occupies string_occupies
      (pair_occupies (option_occupies string_occupies "")
        bool_occupies))) _ _) 4

def FlowStateWire.footprint (wire : FlowStateWire) : Footprint :=
  { fixed := 43
    texts := [wire.id, wire.flowType, wire.owner.getD "", (wire.error.getD .default).message,
      (wire.error.getD .default).details.getD ""]
    blobs := [wire.data] }

lemma FlowStateWire.format_occupies : FlowStateWire.format.Occupies FlowStateWire.footprint 2 :=
  object_occupies (convert_occupies
    (pair_occupies string_occupies (pair_occupies string_occupies
      (pair_occupies u8_occupies (pair_occupies u32_occupies
        (pair_occupies i64_occupies
          (pair_occupies (option_occupies string_occupies "")
            (pair_occupies TimeWire.format_occupies (pair_occupies bytes_occupies
              (option_occupies CatgaErrorWire.format_occupies .default))))))))) _ _) 9

def WaitResultWire.footprint (wire : WaitResultWire) : Footprint :=
  { fixed := 16
    texts := [wire.childId, (wire.error.getD .default).message,
      (wire.error.getD .default).details.getD ""]
    blobs := [wire.payload.getD []] }

lemma WaitResultWire.format_occupies :
    WaitResultWire.format.Occupies WaitResultWire.footprint 2 :=
  object_occupies (convert_occupies
    (pair_occupies string_occupies
      (pair_occupies (option_occupies bytes_occupies [])
        (option_occupies CatgaErrorWire.format_occupies .default))) _ _) 3

def FlowChildLaunchWire.footprint (wire : FlowChildLaunchWire) : Footprint :=
  { fixed := 24, texts := [wire.childId, wire.owner.getD ""] }

lemma FlowChildLaunchWire.format_occupies :
    FlowChildLaunchWire.format.Occupies FlowChildLaunchWire.footprint 2 :=
  object_occupies (convert_occupies
    (pair_occupies string_occupies (pair_occupies u8_occupies
      (pair_occupies (option_occupies string_occupies "")
        (option_occupies TimeWire.format_occupies .default)))) _ _) 4

def WaitConditionWire.footprint (wire : WaitConditionWire) : Footprint :=
  Footprint.both { fixed := 33, texts := [wire.correlationId] }
    ((Format.vecFootprint sizes.waitResult WaitResultWire.footprint wire.results).both
      (Format.vecFootprint sizes.childLaunch FlowChildLaunchWire.footprint wire.childLaunches))

lemma WaitConditionWire.format_occupies :
    (WaitConditionWire.format sizes).Occupies (WaitConditionWire.footprint sizes) 3 := by
  intro wire
  have fields := object_occupies (convert_occupies
    (pair_occupies string_occupies (pair_occupies u8_occupies
      (pair_occupies u32_occupies
        (pair_occupies (vec_occupies WaitResultWire.format_occupies sizes.waitResult)
          (pair_occupies TimeWire.format_occupies
            (pair_occupies DurationWire.format_occupies
              (vec_occupies FlowChildLaunchWire.format_occupies sizes.childLaunch)))))))
    (fun wire : WaitConditionWire => (wire.correlationId, wire.policy, wire.expectedCount,
      wire.results, wire.createdAt, wire.timeout, wire.childLaunches))
    (fun (correlationId, policy, expectedCount, results, createdAt, timeout, childLaunches) =>
      .ok { correlationId, policy, expectedCount, results, createdAt, timeout, childLaunches }))
      7 wire
  refine Eq.mp ?_ fields
  congr 1
  simp [footprint]
  omega

def FlowContinuationWire.footprint (wire : FlowContinuationWire) : Footprint :=
  wire.state.wire.footprint.both
    (Footprint.both { fixed := 55, texts := [wire.stepName] }
      (((wire.wait.getD .default).footprint sizes).both
        (Footprint.both { texts := [wire.scheduleId.getD ""] }
          (Format.vecFootprint sizes.string (fun text => { texts := [text] }) wire.compensations))))

lemma FlowState.format_occupies :
    FlowState.format.Occupies (fun state => state.wire.footprint) 2 :=
  fun state => FlowStateWire.format_occupies state.wire

lemma FlowContinuationWire.format_occupies :
    (FlowContinuationWire.format sizes).Occupies (FlowContinuationWire.footprint sizes) 4 := by
  intro wire
  have fields := object_occupies (convert_occupies
    (pair_occupies FlowState.format_occupies (pair_occupies string_occupies
      (pair_occupies (option_occupies (WaitConditionWire.format_occupies sizes) .default)
        (pair_occupies (option_occupies TimeWire.format_occupies .default)
          (pair_occupies (option_occupies string_occupies "")
            (pair_occupies (vec_occupies string_occupies sizes.string)
              (pair_occupies TimeWire.format_occupies TimeWire.format_occupies)))))))
    (fun wire : FlowContinuationWire => (wire.state, wire.stepName, wire.wait, wire.resumeAt,
      wire.scheduleId, wire.compensations, wire.createdAt, wire.updatedAt))
    (fun (state, stepName, wait, resumeAt, scheduleId, compensations, createdAt, updatedAt) =>
      .ok { state, stepName, wait, resumeAt, scheduleId, compensations, createdAt, updatedAt })) 8
    wire
  refine Eq.mp ?_ fields
  congr 1
  simp [footprint]
  omega

/-- The continuation stays within the limits of the flow codec: 256 KiB for a string, 1 MiB for a
payload, and 2 MiB for the frame and for what is allocated. -/
def FlowContinuation.Moderate (continuation : FlowContinuation) : Prop :=
  (continuation.wire.footprint sizes).wireBytes ≤ 2 * 1024 * 1024 ∧
    (continuation.wire.footprint sizes).Texts (256 * 1024) ∧
    (continuation.wire.footprint sizes).Lengths (1024 * 1024) ∧
    (continuation.wire.footprint sizes).allocation ≤ 2 * 1024 * 1024
deriving Decidable

lemma FlowContinuation.fits_iff (continuation : FlowContinuation) :
    (FlowContinuationWire.format sizes).Fits flowLimits continuation.wire ↔
      continuation.Moderate sizes := (format_occupies sizes).fits_iff (by decide) continuation.wire

lemma encodeContinuation_eq_ok :
    encodeContinuation sizes continuation = .ok frame ↔
      continuation.validate = .ok () ∧
      ∃ payload, (FlowContinuationWire.format sizes).serialize continuation.wire = .ok payload ∧
        frame = formatVersion :: payload := by
  simp only [encodeContinuation]
  cases continuation.validate with
  | error => exact iff_of_false (by rintro ⟨⟩) (by rintro ⟨⟨⟩, -⟩)
  | ok =>
    cases (FlowContinuationWire.format sizes).serialize continuation.wire with
    | error => exact iff_of_false (by rintro ⟨⟩) (by rintro ⟨-, payload, ⟨⟩, -⟩)
    | ok payload =>
      constructor
      · rintro ⟨⟩
        exact ⟨rfl, payload, rfl, rfl⟩
      · rintro ⟨-, payload, ⟨⟩, rfl⟩
        rfl

lemma decodeContinuation_cons (payload : List UInt8) :
    decodeContinuation sizes (formatVersion :: payload) =
      (deserializeContinuation sizes flowLimits payload).map fun decoded =>
        match decoded with
        | .ok continuation => .ok continuation
        | .error error => .error
            ⟨.internal, s!"cannot decode MemoryPack flow continuation: {error.message}"⟩ := by
  simp [decodeContinuation, memorypackDecodeLimits_eq]

lemma decodeContinuation_cons_eq_ok :
    decodeContinuation sizes (formatVersion :: payload) = some (.ok continuation) ↔
      deserializeContinuation sizes flowLimits payload = some (.ok continuation) := by
  rw [decodeContinuation_cons, Option.map_eq_some_iff]
  constructor
  · rintro ⟨decoded, read, mapped⟩
    cases decoded with
    | error => cases mapped
    | ok =>
      cases mapped
      exact read
  · intro read
    exact ⟨_, read, rfl⟩

lemma plain_of_deserializeContinuation {limits}
    (read : deserializeContinuation sizes limits payload = some (.ok continuation)) :
    continuation.Plain := by
  simp only [deserializeContinuation] at read
  split at read
  · cases read
  · split at read
    · cases read
    · rename_i wire input wire_read
      obtain ⟨converted, record_read, finished⟩ := Option.map_eq_some_iff.mp read
      obtain ⟨result, rfl, returned⟩ := bind_eq_ok.mp finished
      have state_plain : wire.state.Plain :=
        format_produces sizes _ _ _ _ _ wire_read
      split at returned <;> cases returned
      exact plain_of_ofWire state_plain record_read

/-- The frame of a valid continuation with plain errors is read back exactly if it fits. -/
lemma deserializeContinuation_eq_ok_iff (plain : continuation.Plain)
    (valid : continuation.validate = .ok ())
    (serialized : (FlowContinuationWire.format sizes).serialize continuation.wire = .ok payload) :
    deserializeContinuation sizes flowLimits payload = some (.ok continuation) ↔
      (FlowContinuationWire.format sizes).Fits flowLimits continuation.wire := by
  have restores : (FlowContinuationWire.format sizes).Restores continuation.wire :=
    format_restores sizes
      (FlowState.format_restores plain.1 (validate_eq_ok.mp valid).1)
  have length_eq := restores.length serialized
  have converted := ofWire_wire plain valid
  rw [Format.Fits, ← length_eq]
  by_cases long : flowLimits.maxFrameBytes.toNat < payload.length
  · simp [deserializeContinuation, if_pos long, not_le.mpr long]
  · rw [deserializeContinuation, if_neg long]
    by_cases fits : ((FlowContinuationWire.format sizes).demand continuation.wire).Fits flowLimits
    · obtain ⟨used, read⟩ := restores.deserialize_eq_ok flowLimits serialized fits
      simp only [read, converted]
      exact iff_of_true rfl ⟨not_lt.mp long, fits⟩
    · obtain ⟨error, read⟩ := restores.deserialize_eq_error flowLimits serialized fits
      simp only [read]
      exact iff_of_false (by rintro ⟨⟩) fun both => fits both.2

/-- The frame holds a wait whose timeout overflows a duration, behind fields that convert. -/
def HoldsOverflowingTimeout (frame : List UInt8) : Prop :=
  ∃ payload wire input wait, frame = formatVersion :: payload ∧ payload.length ≤ 2 * 1024 * 1024 ∧
    (FlowContinuationWire.format sizes).deserialize flowLimits 32 { rest := payload, used := 0 } =
      .ok (wire, input) ∧
    wire.wait = some wait ∧ (∃ fields, WaitCondition.leadingFields wait = .ok fields) ∧
    2 ^ 64 ≤ wait.timeout.seconds.toNat + wait.timeout.nanoseconds.toNat / nanosPerSecond

lemma deserializeContinuation_eq_none :
    deserializeContinuation sizes flowLimits payload = none ↔
      payload.length ≤ 2 * 1024 * 1024 ∧ ∃ wire input,
        (FlowContinuationWire.format sizes).deserialize flowLimits 32
          { rest := payload, used := 0 } =
          .ok (wire, input) ∧ FlowContinuation.ofWire wire = none := by
  have frame_limit : flowLimits.maxFrameBytes.toNat = 2 * 1024 * 1024 := by decide
  have depth_limit : flowLimits.maxNestingDepth.toNat = 32 := by decide
  rw [deserializeContinuation, frame_limit, depth_limit]
  split_ifs with long
  · simp [not_le.mpr long]
  · cases read : (FlowContinuationWire.format sizes).deserialize flowLimits 32
        { rest := payload, used := 0 } with
    | error error => simp
    | ok outcome =>
      obtain ⟨wire, input⟩ := outcome
      rw [Option.map_eq_none_iff]
      constructor
      · intro panicked
        exact ⟨not_lt.mp long, wire, input, rfl, panicked⟩
      · rintro ⟨-, _, _, ⟨⟩, panicked⟩
        exact panicked

lemma decodeContinuation_eq_none :
    decodeContinuation sizes frame = none ↔ HoldsOverflowingTimeout sizes frame := by
  cases frame with
  | nil => exact iff_of_false (by rintro ⟨⟩) (by rintro ⟨_, _, _, _, ⟨⟩, -⟩)
  | cons version payload =>
    by_cases current : version = formatVersion
    · subst current
      rw [decodeContinuation_cons, Option.map_eq_none_iff, deserializeContinuation_eq_none]
      constructor
      · rintro ⟨short, wire, input, read, panicked⟩
        obtain ⟨wait, carried, wait_panicked⟩ := ofWire_eq_none.mp panicked
        exact ⟨payload, wire, input, wait, rfl, short, read, carried,
          WaitCondition.ofWire_eq_none.mp wait_panicked⟩
      · rintro ⟨_, wire, input, wait, ⟨⟩, short, read, carried, overflows⟩
        exact ⟨short, wire, input, read, ofWire_eq_none.mpr
          ⟨wait, carried, WaitCondition.ofWire_eq_none.mpr overflows⟩⟩
    · rw [decodeContinuation, if_pos current]
      refine iff_of_false (by rintro ⟨⟩) ?_
      rintro ⟨_, _, _, _, ⟨⟩, -⟩
      exact current rfl

/-- An encoded continuation comes back exactly if its errors have the retryability of their
categories and it is within the limits of the flow codec; and decoding returns on exactly the frames
without an overflowing timeout. -/
theorem continuation_readable_iff :
    (∀ continuation frame, encodeContinuation sizes continuation = .ok frame →
      (decodeContinuation sizes frame = some (.ok continuation) ↔
        continuation.Plain ∧ continuation.Moderate sizes)) ∧
    ∀ frame, (∃ outcome, decodeContinuation sizes frame = some outcome) ↔
      ¬HoldsOverflowingTimeout sizes frame := by
  constructor
  · intro continuation frame encoded
    obtain ⟨valid, payload, serialized, rfl⟩ := (encodeContinuation_eq_ok sizes).mp encoded
    rw [decodeContinuation_cons_eq_ok, ← continuation.fits_iff sizes]
    constructor
    · intro read
      have plain := plain_of_deserializeContinuation sizes read
      exact ⟨plain, (deserializeContinuation_eq_ok_iff sizes plain valid serialized).mp read⟩
    · rintro ⟨plain, fits⟩
      exact (deserializeContinuation_eq_ok_iff sizes plain valid serialized).mpr fits
  · intro frame
    rw [← decodeContinuation_eq_none, ← ne_eq, Option.ne_none_iff_exists']

@[simp] lemma CatgaErrorWire.accepts_format {wire} :
    CatgaErrorWire.format.Accepts wire ↔
      (utf8Bytes wire.message).length < 2 ^ 31 ∧
        (utf8Bytes (wire.details.getD "")).length < 2 ^ 31 := by
  simp [CatgaErrorWire.format]

@[simp] lemma FlowState.accepts_format :
    FlowState.format.Accepts state ↔ state.validate = .ok () ∧
      (utf8Bytes state.id).length < 2 ^ 31 ∧ (utf8Bytes state.flowType).length < 2 ^ 31 ∧
      (utf8Bytes (state.owner.getD "")).length < 2 ^ 31 ∧ state.data.length < 2 ^ 31 ∧
      CatgaErrorWire.format.Accepts ((state.error.map CatgaError.wire).getD .default) := by
  have wire_accepts : FlowState.format.Accepts state ↔
      state.validate = .ok () ∧ FlowStateWire.format.Accepts state.wire := by
    simp [Format.Accepts, FlowState.serialize_eq_ok]
  rw [wire_accepts]
  simp [FlowStateWire.format, FlowState.wire]

@[simp] lemma WaitResultWire.accepts_format {wire} :
    WaitResultWire.format.Accepts wire ↔
      (utf8Bytes wire.childId).length < 2 ^ 31 ∧ (wire.payload.getD []).length < 2 ^ 31 ∧
      CatgaErrorWire.format.Accepts (wire.error.getD .default) := by
  simp [WaitResultWire.format]

@[simp] lemma FlowChildLaunchWire.accepts_format {wire} :
    FlowChildLaunchWire.format.Accepts wire ↔
      (utf8Bytes wire.childId).length < 2 ^ 31 ∧
        (utf8Bytes (wire.owner.getD "")).length < 2 ^ 31 := by
  simp [FlowChildLaunchWire.format]

@[simp] lemma WaitConditionWire.accepts_format {wire} :
    (WaitConditionWire.format sizes).Accepts wire ↔
      (utf8Bytes wire.correlationId).length < 2 ^ 31 ∧
      (wire.results.length < 2 ^ 31 ∧
        ∀ result ∈ wire.results, WaitResultWire.format.Accepts result) ∧
      wire.childLaunches.length < 2 ^ 31 ∧
      ∀ launch ∈ wire.childLaunches, FlowChildLaunchWire.format.Accepts launch := by
  simp [WaitConditionWire.format]

@[simp] lemma FlowContinuationWire.accepts_format :
    (FlowContinuationWire.format sizes).Accepts wire ↔
      FlowState.format.Accepts wire.state ∧ (utf8Bytes wire.stepName).length < 2 ^ 31 ∧
      (WaitConditionWire.format sizes).Accepts (wire.wait.getD .default) ∧
      (utf8Bytes (wire.scheduleId.getD "")).length < 2 ^ 31 ∧ wire.compensations.length < 2 ^ 31 ∧
      ∀ name ∈ wire.compensations, (utf8Bytes name).length < 2 ^ 31 := by
  simp [FlowContinuationWire.format, FlowContinuationWire.fieldsFormat]

lemma exists_encodeContinuation (valid : continuation.validate = .ok ())
    (accepted : (FlowContinuationWire.format sizes).Accepts continuation.wire) :
    ∃ frame, encodeContinuation sizes continuation = .ok frame := by
  obtain ⟨payload, serialized⟩ := accepted
  exact ⟨_, (encodeContinuation_eq_ok sizes).mpr ⟨valid, payload, serialized, rfl⟩⟩

def epochPlus (seconds : UInt32) : SystemTime :=
  ⟨seconds.toNat * 1000000000, by omega, by have := seconds.toNat_lt; omega⟩

def orderAt (stepName : String) (error : Option CatgaError) : FlowContinuation :=
  { state :=
      { id := "o-1", flowType := "order", status := .suspended, step := 2, version := 5
        owner := some "w", heartbeat := epochPlus 90, data := [1, 2], error }
    stepName
    wait := none
    resumeAt := none
    scheduleId := none
    compensations := ["pay"]
    createdAt := epochPlus 60
    updatedAt := epochPlus 90 }

def someSizes : RecordSizes := ⟨104, 72, 24⟩

/-- A flow that waits for two children, of which one has failed and one is being launched. -/
def waitingOrder : FlowContinuation :=
  { orderAt "ship" none with
    wait := some
      { correlationId := "c", policy := .all, expectedCount := 2
        results := [⟨"a", none, some ((CatgaError.new .timeout "late").withDetails "by 3 s")⟩]
        createdAt := epochPlus 70
        timeout := ⟨30, 500, by decide⟩
        childLaunches := [⟨"a", .launched⟩, ⟨"b", .claimed "w" (epochPlus 95)⟩] } }

/-- Waiting for children, with a reported failure and a claimed launch, survives its frame; a frame
without content is refused. -/
theorem waiting_order_readable :
    (∃ frame, encodeContinuation someSizes waitingOrder = .ok frame ∧
      decodeContinuation someSizes frame = some (.ok waitingOrder)) ∧
    ∃ outcome, decodeContinuation someSizes [] = some outcome := by
  have accepted : (FlowContinuationWire.format someSizes).Accepts waitingOrder.wire := by
    simp [waitingOrder, orderAt, FlowContinuation.wire]
    decide
  obtain ⟨frame, encoded⟩ := exists_encodeContinuation someSizes (by decide) accepted
  refine ⟨⟨frame, encoded, ?_⟩, ?_⟩
  · exact ((continuation_readable_iff someSizes).1 waitingOrder frame encoded).mpr
      ⟨by decide, by decide⟩
  · refine ((continuation_readable_iff someSizes).2 []).mpr ?_
    rintro ⟨_, _, _, _, ⟨⟩, -⟩

lemma length_utf8Bytes_replicate (count : Nat) :
    (utf8Bytes (String.ofList (replicate count 'a'))).length = count := by
  rw [utf8Bytes_eq, String.toList_ofList]
  induction count with
  | zero => rfl
  | succ count ih =>
    rw [replicate_succ, flatMap_cons, length_append, ih, Nat.add_comm]
    rfl

/-- A flow whose next step has a name of some length. -/
def longOrder (count : Nat) : FlowContinuation := orderAt (String.ofList (replicate count 'a')) none

/-- It is encoded, but a name of more than 256 KiB is not read back. -/
lemma longOrder_lost {count} (long : 256 * 1024 < count) (representable : count < 2 ^ 31) :
    ∃ frame, encodeContinuation someSizes (longOrder count) = .ok frame ∧
      decodeContinuation someSizes frame ≠ some (.ok (longOrder count)) := by
  have length_eq := length_utf8Bytes_replicate count
  have valid : (longOrder count).validate = .ok () := rfl
  have plain : (longOrder count).Plain := ⟨by rintro error ⟨⟩, by rintro wait ⟨⟩⟩
  have accepted : (FlowContinuationWire.format someSizes).Accepts (longOrder count).wire := by
    have small : count < 2147483648 := representable
    simp [longOrder, orderAt, FlowContinuation.wire, length_eq, small]
    decide
  obtain ⟨payload, serialized⟩ := accepted
  refine ⟨_, (encodeContinuation_eq_ok someSizes).mpr ⟨valid, payload, serialized, rfl⟩, ?_⟩
  rw [ne_eq, decodeContinuation_cons_eq_ok,
    deserializeContinuation_eq_ok_iff someSizes plain valid serialized,
    fits_iff]
  rintro ⟨-, texts, -, -⟩
  have bound := texts (longOrder count).stepName
    (mem_append_right _ mem_cons_self)
  have name_length : (utf8Bytes (longOrder count).stepName).length = count := length_eq
  omega

/-- A validation error that may be retried. -/
def overriddenError : CatgaError :=
  { CatgaError.new .validation "full" with retryable := some true }

def overflowingWire : FlowContinuationWire :=
  { (orderAt "ship" none).wire with
    wait := some { WaitConditionWire.default with timeout := ⟨18446744073709551615, 1000000000⟩ } }

/-- A long step name and an overridden retryability are encoded and do not come back, and one frame
makes decoding panic. -/
theorem continuation_frames_lost :
    (∃ frame, encodeContinuation someSizes (longOrder 262145) = .ok frame ∧
      decodeContinuation someSizes frame ≠ some (.ok (longOrder 262145))) ∧
    (∃ frame, encodeContinuation someSizes (orderAt "ship" (some overriddenError)) = .ok frame ∧
      decodeContinuation someSizes frame ≠ some (.ok (orderAt "ship" (some overriddenError)))) ∧
    ∃ frame, decodeContinuation someSizes frame = none := by
  refine ⟨longOrder_lost (by decide) (by decide), ?_, ?_⟩
  · have accepted : (FlowContinuationWire.format someSizes).Accepts
        (orderAt "ship" (some overriddenError)).wire := by
      simp [orderAt, FlowContinuation.wire]
      decide
    obtain ⟨payload, serialized⟩ := accepted
    refine ⟨_, (encodeContinuation_eq_ok someSizes).mpr ⟨rfl, payload, serialized, rfl⟩, ?_⟩
    rw [ne_eq, decodeContinuation_cons_eq_ok]
    intro read
    have plain := plain_of_deserializeContinuation someSizes read
    exact absurd plain (by decide)
  · have accepted : (FlowContinuationWire.format someSizes).Accepts overflowingWire := by
      simp [overflowingWire, orderAt, FlowContinuation.wire]
      decide
    have restores : (FlowContinuationWire.format someSizes).Restores overflowingWire :=
      format_restores someSizes (FlowState.format_restores (by decide) rfl)
    have fits : (FlowContinuationWire.format someSizes).Fits flowLimits overflowingWire := by
      decide
    obtain ⟨payload, serialized⟩ := accepted
    obtain ⟨used, read⟩ := restores.deserialize_eq_ok flowLimits serialized fits.2
    have short : payload.length ≤ 2 * 1024 * 1024 := restores.length serialized ▸ fits.1
    refine ⟨formatVersion :: payload, (decodeContinuation_eq_none someSizes).mpr ?_⟩
    exact ⟨payload, overflowingWire, _, _, rfl, short, read, rfl, ⟨_, rfl⟩, by decide⟩

end Catga.Flow.Durable
