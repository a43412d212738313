import Catga.Flow.TimeWire

/-!
# The codec of the SQL progress stores

A progress record is framed by a format version and written through its wire record.  The store
accepts payloads of up to one megabyte, but reads its frames back under the default limits of the
codec, which bound a vector of bytes like every other collection.
-/

namespace Catga.Dsl

open Codec Catga.Flow Format List

def maxDslStepProgressPayloadBytes : Nat := 1024 * 1024

def dslStepProgressFormatVersion : UInt8 := 2

inductive DslProgressKind where
  | applicationState
  | checkpointFrame
  | terminal

/-- The stored progress of a step. -/
structure DslStepProgress where
  flowId : String
  stepIndex : UInt32
  version : Int64
  kind : DslProgressKind
  payload : List UInt8
  updatedAt : SystemTime

structure DslStepProgressWire where
  flowId : String
  stepIndex : UInt32
  version : Int64
  kind : UInt8
  payload : List UInt8
  updatedAt : TimeWire

def encodeProgressKind : DslProgressKind → UInt8
  | .applicationState => 0
  | .checkpointFrame => 1
  | .terminal => 2

def decodeProgressKind (value : UInt8) : Except MemoryPackError DslProgressKind :=
  if value = 0 then .ok .applicationState
  else if value = 1 then .ok .checkpointFrame
  else if value = 2 then .ok .terminal
  else .error (.deserializationError s!"invalid DSL progress kind: {value}")

lemma decodeProgressKind_encodeProgressKind (kind : DslProgressKind) :
    decodeProgressKind (encodeProgressKind kind) = .ok kind := by
  cases kind <;> rfl

def DslStepProgressWire.format : Format DslStepProgressWire :=
  .object 6
    ((Format.string.pair (Format.u32.pair (Format.i64.pair (Format.u8.pair
        (Format.bytes.pair TimeWire.format))))).convert
      (fun wire => (wire.flowId, wire.stepIndex, wire.version, wire.kind, wire.payload,
        wire.updatedAt))
      fun (flowId, stepIndex, version, kind, payload, updatedAt) =>
        .ok { flowId, stepIndex, version, kind, payload, updatedAt })

variable (progress : DslStepProgress)

def DslStepProgress.wire : DslStepProgressWire where
  flowId := progress.flowId
  stepIndex := progress.stepIndex
  version := progress.version
  kind := encodeProgressKind progress.kind
  payload := progress.payload
  updatedAt := encodeTime progress.updatedAt

def DslStepProgress.ofWire (wire : DslStepProgressWire) :
    Except MemoryPackError DslStepProgress := do
  let kind ← decodeProgressKind wire.kind
  let updatedAt ← decodeTime wire.updatedAt
  pure { flowId := wire.flowId, stepIndex := wire.stepIndex, version := wire.version, kind,
         payload := wire.payload, updatedAt }

def DslStepProgress.format : Format DslStepProgress :=
  DslStepProgressWire.format.convert DslStepProgress.wire DslStepProgress.ofWire

def validateProgress : CatgaResult Unit :=
  if maxDslStepProgressPayloadBytes < progress.payload.length then
    .error ⟨.validation, "DSL step progress payload exceeds the one-megabyte recovery limit"⟩
  else .ok ()

def encodeProgress : CatgaResult (List UInt8) := do
  validateProgress progress
  match DslStepProgress.format.serialize progress with
  | .ok payload => pure (dslStepProgressFormatVersion :: payload)
  | .error error =>
    .error ⟨.internal, s!"cannot encode SQL DSL step progress: {error.message}"⟩

def decodeProgress : List UInt8 → CatgaResult DslStepProgress
  | [] => .error ⟨.internal, "SQL DSL step progress is missing its format version"⟩
  | version :: payload =>
    if version ≠ dslStepProgressFormatVersion then
      .error ⟨.internal, s!"unsupported SQL DSL step progress format version {version}"⟩
    else
      match DslStepProgress.format.deserializeBounded .default payload with
      | .error error =>
        .error ⟨.internal, s!"cannot decode MemoryPack SQL DSL step progress: {error.message}"⟩
      | .ok progress => do
          validateProgress progress
          pure progress

lemma DslStepProgress.ofWire_wire : DslStepProgress.ofWire progress.wire = .ok progress := by
  simp only [ofWire, wire, decodeProgressKind_encodeProgressKind, decodeTime_encodeTime]
  rfl

lemma DslStepProgress.format_lossless : DslStepProgress.format.Lossless :=
  convert_lossless
    (object_lossless (by decide) (convert_lossless
      (pair_lossless string_lossless (pair_lossless u32_lossless
        (pair_lossless i64_lossless (pair_lossless u8_lossless
          (pair_lossless bytes_lossless TimeWire.format_lossless))))) fun _ => rfl))
    DslStepProgress.ofWire_wire

/-- What a record takes: 40 bytes at most beside its identity and its payload. -/
def DslStepProgress.footprint : Footprint :=
  { fixed := 28, texts := [progress.flowId], blobs := [progress.payload] }

lemma DslStepProgress.format_occupies :
    DslStepProgress.format.Occupies DslStepProgress.footprint 2 :=
  convert_occupies (object_occupies (convert_occupies
    (pair_occupies string_occupies (pair_occupies u32_occupies
      (pair_occupies i64_occupies (pair_occupies u8_occupies
        (pair_occupies bytes_occupies TimeWire.format_occupies))))) _ _) 6) _ _

/-- The default limits admit exactly the records with a short identity and a short payload; what
such a record allocates and the bytes it takes are far below the other limits. -/
lemma DslStepProgress.fits_iff : DslStepProgress.format.Fits .default progress ↔
      (utf8Bytes progress.flowId).length ≤ 256 * 1024 ∧ progress.payload.length ≤ 65536 := by
  have text_le : textBytes progress.flowId ≤ 8 + (utf8Bytes progress.flowId).length := by
    rw [textBytes]
    split <;> omega
  rw [DslStepProgress.format_occupies.fits_iff (by decide)]
  change (_ ≤ 1048576 ∧ _ ∧ _ ∧ _ ≤ 1048576) ↔ _
  simp [footprint, MemoryPackDecodeLimits.default]
  omega

variable {progress : DslStepProgress} {payload : List UInt8}

lemma validateProgress_eq_ok :
    validateProgress progress = .ok () ↔
      progress.payload.length ≤ maxDslStepProgressPayloadBytes := by
  rw [validateProgress]
  split <;> simp_all

lemma encodeProgress_eq_ok (valid : validateProgress progress = .ok ())
    (representable : (utf8Bytes progress.flowId).length < 2 ^ 31) :
    ∃ payload, DslStepProgress.format.serialize progress = .ok payload ∧
      encodeProgress progress = .ok (dslStepProgressFormatVersion :: payload) := by
  have bounded : progress.payload.length < 2 ^ 31 :=
    lt_of_le_of_lt (validateProgress_eq_ok.mp valid) (by decide)
  have accepted : DslStepProgress.format.Accepts progress := by
    simpa [DslStepProgress.format, DslStepProgressWire.format, DslStepProgress.wire] using
      And.intro representable bounded
  obtain ⟨payload, serialized⟩ := accepted
  refine ⟨payload, serialized, ?_⟩
  simp only [encodeProgress, valid, serialized]
  rfl

lemma serialize_of_encodeProgress {frame}
    (encoded : encodeProgress progress = .ok frame) :
    ∃ payload, DslStepProgress.format.serialize progress = .ok payload ∧
      frame = dslStepProgressFormatVersion :: payload := by
  simp only [encodeProgress] at encoded
  cases valid : validateProgress progress with
  | error =>
    rw [valid] at encoded
    cases encoded
  | ok =>
    rw [valid] at encoded
    cases serialized : DslStepProgress.format.serialize progress with
    | error =>
      rw [serialized] at encoded
      cases encoded
    | ok payload =>
      rw [serialized] at encoded
      cases encoded
      exact ⟨payload, rfl, rfl⟩

lemma decodeProgress_of_fits (valid : validateProgress progress = .ok ())
    (serialized : DslStepProgress.format.serialize progress = .ok payload)
    (fits : DslStepProgress.format.Fits .default progress) :
    decodeProgress (dslStepProgressFormatVersion :: payload) = .ok progress := by
  have read := DslStepProgress.format_lossless.deserializeBounded_eq_ok .default serialized fits
  simp only [decodeProgress, read, valid, ne_eq, not_true_eq_false, if_false]
  rfl

lemma decodeProgress_of_misfit
    (serialized : DslStepProgress.format.serialize progress = .ok payload)
    (misfit : ¬DslStepProgress.format.Fits .default progress) :
    ∃ error, decodeProgress (dslStepProgressFormatVersion :: payload) = .error error := by
  obtain ⟨error, refused⟩ :=
    DslStepProgress.format_lossless.deserializeBounded_eq_error .default serialized misfit
  simp only [decodeProgress, refused, ne_eq, not_true_eq_false, if_false]
  exact ⟨_, rfl⟩

/-- A record that the store accepts is encoded, and decoded to an equal record, exactly if its
identity takes at most 256 KiB and its payload at most 65,536 bytes. -/
theorem progress_readable_iff (progress : DslStepProgress)
    (valid : validateProgress progress = .ok ()) :
    (∃ frame, encodeProgress progress = .ok frame ∧ decodeProgress frame = .ok progress) ↔
      (utf8Bytes progress.flowId).length ≤ 256 * 1024 ∧ progress.payload.length ≤ 65536 := by
  rw [← progress.fits_iff]
  constructor
  · rintro ⟨frame, encoded, decoded⟩
    obtain ⟨payload, serialized, rfl⟩ := serialize_of_encodeProgress encoded
    by_contra misfit
    obtain ⟨error, refused⟩ := decodeProgress_of_misfit serialized misfit
    rw [refused] at decoded
    cases decoded
  · intro fits
    have short := progress.fits_iff.mp fits
    obtain ⟨payload, serialized, encoded⟩ := encodeProgress_eq_ok valid (by omega)
    exact ⟨_, encoded, decodeProgress_of_fits valid serialized fits⟩

/-- Progress of a flow with some payload, made at the epoch. -/
def progressWith (payload : List UInt8) : DslStepProgress :=
  { flowId := "f", stepIndex := 0, version := 0, kind := .applicationState, payload
    updatedAt := ⟨0, by decide, by decide⟩ }

/-- The longest readable payload comes back. -/
theorem progress_readable_at_limit :
    ∃ frame, encodeProgress (progressWith (replicate 65536 0)) = .ok frame ∧
      decodeProgress frame = .ok (progressWith (replicate 65536 0)) := by
  refine (progress_readable_iff _ ?_).mpr ⟨by decide, ?_⟩
  · rw [validateProgress_eq_ok, progressWith, length_replicate]
    decide
  · exact le_of_eq length_replicate

/-- A payload of one byte more is accepted and written, and its frame cannot be read. -/
theorem accepted_progress_unreadable :
    validateProgress (progressWith (replicate 65537 0)) = .ok () ∧
      ∃ frame, encodeProgress (progressWith (replicate 65537 0)) = .ok frame ∧
        ∃ error, decodeProgress frame = .error error := by
  have valid : validateProgress (progressWith (replicate 65537 0)) = .ok () := by
    rw [validateProgress_eq_ok, progressWith, length_replicate]
    decide
  have misfit : ¬DslStepProgress.format.Fits .default (progressWith (replicate 65537 0)) := by
    rw [DslStepProgress.fits_iff, progressWith, length_replicate]
    omega
  obtain ⟨payload, serialized, encoded⟩ := encodeProgress_eq_ok valid (by decide)
  exact ⟨valid, _, encoded, decodeProgress_of_misfit serialized misfit⟩

end Catga.Dsl
