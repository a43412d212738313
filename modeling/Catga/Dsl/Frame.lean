import Catga.Codec.Footprint

/-!
# Checkpoint frames

The bytes of a checkpoint: a header, the path of levels, the application state and a MemoryPack
record of the work in progress.  Writing a frame bounds its path, its state and its total size.
Reading one also bounds the work record by the default limits of the codec.
-/

namespace Catga.Dsl.Frame

open Codec Format List

def toBeBytes (value : UInt32) : List UInt8 := (LittleEndian.encode 4 value.toNat).reverse

def fromBeBytes (bytes : List UInt8) : UInt32 := .ofNat (LittleEndian.decode bytes.reverse)

def slice (payload : List UInt8) (first last : Nat) : List UInt8 :=
  (payload.drop first).take (last - first)

@[simp] lemma length_toBeBytes (value : UInt32) : (toBeBytes value).length = 4 := by
  simp [toBeBytes]

@[simp] lemma fromBeBytes_toBeBytes (value : UInt32) : fromBeBytes (toBeBytes value) = value := by
  have small : value.toNat < 256 ^ 4 := value.toNat_lt
  simp [fromBeBytes, toBeBytes, LittleEndian.decode_encode small]

lemma slice_part {payload part first last} (before after : List UInt8)
    (split : payload = before ++ (part ++ after)) (first_eq : first = before.length)
    (last_eq : last = first + part.length) : slice payload first last = part := by
  subst split first_eq last_eq
  simp [slice]

/-- How far a branch has come. -/
inductive ParallelBranchProgress where
  | completed (state : List UInt8)
  | inProgress (stepIndex : UInt32) (checkpointFrame : Bool) (payload : List UInt8)

def ParallelBranchProgress.default : ParallelBranchProgress := .completed []

/-- What a frame is in the middle of. -/
inductive CheckpointWork where
  | branch
  | forEach (nextIndex total : UInt32)
  | replayableForEach (nextIndex : UInt32) (items : List (List UInt8))
  | parallel (states : List (Option (List UInt8)))
  | whenAny (winner : UInt32) (state : List UInt8)
  | parallelBranches (branches : List (Option ParallelBranchProgress))

open Frame.CheckpointWork

/-- `size_of` the items of the vectors of a work record. -/
structure MemorySizes where
  bytes : Nat
  optionalBytes : Nat
  optionalBranch : Nat

def completedFormat : Format (List UInt8) := .object 1 .bytes

def inProgressFormat : Format (UInt32 × Bool × List UInt8) :=
  .object 3 (Format.u32.pair (Format.bool.pair Format.bytes))

namespace ParallelBranchProgress

/-- `serialize`: a tag and the wire record of the variant. -/
def serialize : ParallelBranchProgress → Except MemoryPackError (List UInt8)
  | completed state => do
      let bytes ← completedFormat.serialize state
      pure (0 :: bytes)
  | inProgress stepIndex checkpointFrame payload => do
      let bytes ← inProgressFormat.serialize (stepIndex, checkpointFrame, payload)
      pure (1 :: bytes)

def deserialize (limits : MemoryPackDecodeLimits) (remaining : Nat) :
    Reader ParallelBranchProgress := do
  match ← readUnsigned 1 with
  | 0 => do
      let state ← completedFormat.deserialize limits remaining
      pure (completed state)
  | 1 => do
      let (stepIndex, checkpointFrame, payload) ← inProgressFormat.deserialize limits remaining
      pure (inProgress stepIndex checkpointFrame payload)
  | value => Metered.fail (.deserializationError s!"invalid DSL parallel branch tag: {value}")

def format : Format ParallelBranchProgress where
  serialize := serialize
  deserialize := deserialize
  size
    | completed state => 1 + completedFormat.size state
    | inProgress stepIndex checkpointFrame payload =>
      1 + inProgressFormat.size (stepIndex, checkpointFrame, payload)
  demand
    | completed state => completedFormat.demand state
    | inProgress stepIndex checkpointFrame payload =>
      inProgressFormat.demand (stepIndex, checkpointFrame, payload)

end ParallelBranchProgress

lemma completedFormat_lossless : completedFormat.Lossless :=
  object_lossless (by decide) bytes_lossless

lemma inProgressFormat_lossless : inProgressFormat.Lossless :=
  object_lossless (by decide) (pair_lossless u32_lossless
    (pair_lossless bool_lossless bytes_lossless))

/-- A variant of a union is written as a tag and a wire record. -/
lemma restores_tagged {α γ : Type} {format : Format α} {union : Format γ} {tag}
    {next : MemoryPackDecodeLimits → Nat → Nat → Reader γ} (lossless : format.Lossless)
    (image : α → γ) (value : α)
    (written : union.serialize (image value) = (do
      let body ← format.serialize value
      pure (tag :: body)))
    (size : union.size (image value) = 1 + format.size value)
    (demand : union.demand (image value) = format.demand value)
    (read : union.deserialize = fun limits remaining => readUnsigned 1 >>= next limits remaining)
    (next_eq : ∀ limits remaining, next limits remaining tag.toNat = (do
      let value ← format.deserialize limits remaining
      pure (image value))) : union.Restores (image value) where
  length := by
    intro bytes serialized
    obtain ⟨body, body_ok, rfl⟩ := (framed_eq_ok _).mp (written.symm.trans serialized)
    rw [length_cons, lossless.length body_ok, size, Nat.add_comm]
  reads := by
    intro bytes limits remaining serialized
    obtain ⟨body, body_ok, rfl⟩ := (framed_eq_ok _).mp (written.symm.trans serialized)
    rw [read, demand]
    refine yields_then body (yields_readTag tag) ?_ rfl
    rw [next_eq]
    exact (lossless.reads limits remaining body_ok).map image

lemma ParallelBranchProgress.format_lossless : ParallelBranchProgress.format.Lossless := by
  refine .of_restores fun progress => ?_
  cases progress with
  | completed state =>
    exact restores_tagged completedFormat_lossless completed state rfl rfl rfl rfl fun _ _ => rfl
  | inProgress stepIndex checkpointFrame payload =>
    exact restores_tagged inProgressFormat_lossless
      (fun record => inProgress record.1 record.2.1 record.2.2)
      (stepIndex, checkpointFrame, payload) rfl rfl rfl rfl fun _ _ => rfl

section

variable (sizes : MemorySizes)

def forEachFormat : Format (UInt32 × UInt32) := .object 2 (Format.u32.pair Format.u32)

def replayableForEachFormat : Format (UInt32 × List (List UInt8)) :=
  .object 2 (Format.u32.pair (.vec sizes.bytes .bytes))

def parallelFormat : Format (List (Option (List UInt8))) :=
  .object 1 (.vec sizes.optionalBytes (.option [] .bytes))

def whenAnyFormat : Format (UInt32 × List UInt8) := .object 2 (Format.u32.pair Format.bytes)

def parallelBranchesFormat : Format (List (Option ParallelBranchProgress)) :=
  .object 1 (.vec sizes.optionalBranch (.option .default ParallelBranchProgress.format))

namespace CheckpointWork

/-- `serialize`: a tag and the wire record of the variant. -/
def serialize : CheckpointWork → Except MemoryPackError (List UInt8)
  | branch => .ok [0]
  | forEach nextIndex total => do
      let bytes ← forEachFormat.serialize (nextIndex, total)
      pure (1 :: bytes)
  | replayableForEach nextIndex items => do
      let bytes ← (replayableForEachFormat sizes).serialize (nextIndex, items)
      pure (2 :: bytes)
  | parallel states => do
      let bytes ← (parallelFormat sizes).serialize states
      pure (3 :: bytes)
  | whenAny winner state => do
      let bytes ← whenAnyFormat.serialize (winner, state)
      pure (4 :: bytes)
  | parallelBranches branches => do
      let bytes ← (parallelBranchesFormat sizes).serialize branches
      pure (5 :: bytes)

def deserialize (limits : MemoryPackDecodeLimits) (remaining : Nat) : Reader CheckpointWork := do
  match ← readUnsigned 1 with
  | 0 => pure branch
  | 1 => do
      let (nextIndex, total) ← forEachFormat.deserialize limits remaining
      pure (forEach nextIndex total)
  | 2 => do
      let (nextIndex, items) ← (replayableForEachFormat sizes).deserialize limits remaining
      pure (replayableForEach nextIndex items)
  | 3 => do
      let states ← (parallelFormat sizes).deserialize limits remaining
      pure (parallel states)
  | 4 => do
      let (winner, state) ← whenAnyFormat.deserialize limits remaining
      pure (whenAny winner state)
  | 5 => do
      let branches ← (parallelBranchesFormat sizes).deserialize limits remaining
      pure (parallelBranches branches)
  | value => Metered.fail (.deserializationError s!"invalid DSL checkpoint work tag: {value}")

def format : Format CheckpointWork where
  serialize := serialize sizes
  deserialize := deserialize sizes
  size
    | branch => 1
    | forEach nextIndex total => 1 + forEachFormat.size (nextIndex, total)
    | replayableForEach nextIndex items =>
      1 + (replayableForEachFormat sizes).size (nextIndex, items)
    | parallel states => 1 + (parallelFormat sizes).size states
    | whenAny winner state => 1 + whenAnyFormat.size (winner, state)
    | parallelBranches branches => 1 + (parallelBranchesFormat sizes).size branches
  demand
    | branch => .none
    | forEach nextIndex total => forEachFormat.demand (nextIndex, total)
    | replayableForEach nextIndex items => (replayableForEachFormat sizes).demand (nextIndex, items)
    | parallel states => (parallelFormat sizes).demand states
    | whenAny winner state => whenAnyFormat.demand (winner, state)
    | parallelBranches branches => (parallelBranchesFormat sizes).demand branches

end CheckpointWork

lemma forEachFormat_lossless : forEachFormat.Lossless :=
  object_lossless (by decide) (pair_lossless u32_lossless u32_lossless)

lemma replayableForEachFormat_lossless : (replayableForEachFormat sizes).Lossless :=
  object_lossless (by decide) (pair_lossless u32_lossless
    (vec_lossless _ bytes_lossless))

lemma parallelFormat_lossless : (parallelFormat sizes).Lossless :=
  object_lossless (by decide)
    (vec_lossless _ (option_lossless _ bytes_lossless))

lemma whenAnyFormat_lossless : whenAnyFormat.Lossless :=
  object_lossless (by decide)
    (pair_lossless u32_lossless bytes_lossless)

lemma parallelBranchesFormat_lossless : (parallelBranchesFormat sizes).Lossless :=
  object_lossless (by decide) (vec_lossless _
    (option_lossless _ ParallelBranchProgress.format_lossless))

lemma CheckpointWork.format_lossless : (format sizes).Lossless := by
  refine .of_restores fun work => ?_
  cases work with
  | branch =>
    refine ⟨fun serialized => by cases serialized; rfl, fun limits remaining serialized => ?_⟩
    cases serialized
    refine reads_free remaining (yields_then [] (yields_readTag 0) ?_ rfl)
    exact Metered.Yields.pure branch
  | forEach nextIndex total =>
    exact restores_tagged forEachFormat_lossless (fun record => forEach record.1 record.2)
      (nextIndex, total) rfl rfl rfl rfl fun _ _ => rfl
  | replayableForEach nextIndex items =>
    exact restores_tagged (replayableForEachFormat_lossless sizes)
      (fun record => replayableForEach record.1 record.2) (nextIndex, items) rfl rfl rfl rfl
      fun _ _ => rfl
  | parallel states =>
    exact restores_tagged (parallelFormat_lossless sizes) parallel states rfl rfl rfl rfl
      fun _ _ => rfl
  | whenAny winner state =>
    exact restores_tagged whenAnyFormat_lossless (fun record => whenAny record.1 record.2)
      (winner, state) rfl rfl rfl rfl fun _ _ => rfl
  | parallelBranches branches =>
    exact restores_tagged (parallelBranchesFormat_lossless sizes) parallelBranches branches rfl rfl
      rfl rfl fun _ _ => rfl

def ParallelBranchProgress.recorded : ParallelBranchProgress → List UInt8
  | completed state => state
  | inProgress _ _ payload => payload

def ParallelBranchProgress.overhead : ParallelBranchProgress → Nat
  | completed _ => 2
  | inProgress .. => 7

def ParallelBranchProgress.footprint (progress : ParallelBranchProgress) : Footprint :=
  { fixed := progress.overhead, blobs := [progress.recorded] }

/-- What a work record takes; an absent entry takes what an empty one does. -/
def CheckpointWork.footprint : CheckpointWork → Footprint
  | branch => { fixed := 1 }
  | forEach .. => { fixed := 10 }
  | replayableForEach _ items =>
    { fixed := 10, blobs := items, reserved := items.length * sizes.bytes,
      counts := [items.length] }
  | parallel states =>
    { fixed := 6 + states.length * 4
      blobs := states.map (·.getD [])
      reserved := states.length * sizes.optionalBytes
      counts := [states.length] }
  | whenAny _ state => { fixed := 6, blobs := [state] }
  | parallelBranches branches =>
    { fixed := 6 + (branches.map fun progress => 4 + (progress.getD .default).overhead).sum
      blobs := branches.map fun progress => (progress.getD .default).recorded
      reserved := branches.length * sizes.optionalBranch
      counts := [branches.length] }

/-- What a work record takes is within the default limits of the codec. -/
def CheckpointWork.Moderate (work : CheckpointWork) : Prop :=
  (work.footprint sizes).Lengths 65536 ∧ (work.footprint sizes).allocation ≤ 1024 * 1024 ∧
    (work.footprint sizes).wireBytes ≤ 1024 * 1024

lemma completedFormat_occupies :
    completedFormat.Occupies (fun state => { fixed := 1, blobs := [state] }) 1 :=
  object_occupies bytes_occupies 1

lemma inProgressFormat_occupies :
    inProgressFormat.Occupies (fun record => { fixed := 6, blobs := [record.2.2] }) 1 :=
  object_occupies (pair_occupies u32_occupies
    (pair_occupies bool_occupies bytes_occupies)) 3

lemma ParallelBranchProgress.format_occupies :
    ParallelBranchProgress.format.Occupies ParallelBranchProgress.footprint 1 := by
  intro progress
  cases progress with
  | completed state => exact (completedFormat_occupies state).behind 1
  | inProgress stepIndex checkpointFrame payload =>
    exact (inProgressFormat_occupies (stepIndex, checkpointFrame, payload)).behind 1

lemma CheckpointWork.format_occupies :
    (format sizes).Occupies (footprint sizes) 2 := by
  intro work
  cases work with
  | branch => exact (Footprint.Measures.nothing.behind 1).mono (by decide)
  | forEach nextIndex total =>
    have record := object_occupies (pair_occupies u32_occupies
      u32_occupies) 2 (nextIndex, total)
    exact (record.behind 1).mono (by decide)
  | replayableForEach nextIndex items =>
    have entries := vec_blobs_occupies (fun _ => 0) id bytes_occupies sizes.bytes
    have record := (object_occupies (pair_occupies u32_occupies entries) 2
      (nextIndex, items)).behind 1
    refine Eq.mp ?_ (record.mono (by decide : 1 ≤ 2))
    congr 1
    simp [footprint]
  | parallel states =>
    have entries := vec_blobs_occupies (fun _ => 4)
      (fun state : Option (List UInt8) => state.getD [])
      (option_occupies bytes_occupies []) sizes.optionalBytes
    have record := (object_occupies entries 1 states).behind 1
    refine Eq.mp ?_ (record.mono (by decide : 1 ≤ 2))
    congr 1
    simp [footprint]
    omega
  | whenAny winner state =>
    have record := object_occupies (pair_occupies u32_occupies
      bytes_occupies) 2 (winner, state)
    exact (record.behind 1).mono (by decide)
  | parallelBranches branches =>
    have entries := vec_blobs_occupies
      (fun progress : Option ParallelBranchProgress => 4 + (progress.getD .default).overhead)
      (fun progress => (progress.getD .default).recorded)
      (option_occupies ParallelBranchProgress.format_occupies .default)
      sizes.optionalBranch
    have record := (object_occupies entries 1 branches).behind 1
    refine Eq.mp ?_ record
    congr 1
    simp [footprint]
    omega

lemma CheckpointWork.fits_iff (work) :
    (format sizes).Fits .default work ↔ work.Moderate sizes := by
  have no_texts : (work.footprint sizes).Texts (256 * 1024) := by
    cases work <;> simp [footprint]
  rw [(format_occupies sizes).fits_iff (by decide), Moderate]
  change (_ ≤ 1024 * 1024 ∧ (work.footprint sizes).Texts (256 * 1024) ∧ _ ∧ _ ≤ 1024 * 1024) ↔ _
  tauto

end

def maxCheckpointPathDepth : Nat := 32

def checkpointFrameMagic : List UInt8 := [67, 68, 70, 49]

def checkpointFrameVersion : UInt8 := 1

/-- Bytes of a frame without levels, state and work. -/
def checkpointFrameHeaderBytes : Nat := 10

def checkpointLevelBytes : Nat := 8

def maxCheckpointStateBytes : Nat := 1024 * 1024

def maxCheckpointFrameBytes : Nat :=
  checkpointFrameHeaderBytes + checkpointLevelBytes * maxCheckpointPathDepth +
    maxCheckpointStateBytes

/-- A branch that is open. -/
structure CheckpointLevel where
  branch : UInt32
  nextStep : UInt32

/-- A stored place inside a flow. -/
structure CheckpointFrame where
  levels : List CheckpointLevel
  state : List UInt8
  work : CheckpointWork

def CheckpointLevel.toBytes (level : CheckpointLevel) : List UInt8 :=
  toBeBytes level.branch ++ toBeBytes level.nextStep

/-- The front of a frame: the magic bytes, the version and the path behind its length. -/
def front (levels : List CheckpointLevel) : List UInt8 :=
  checkpointFrameMagic ++ [checkpointFrameVersion, .ofNat levels.length] ++
    levels.flatMap CheckpointLevel.toBytes

/-- A frame: the front, and the state and the work record each behind its length. -/
def assemble (levels : List CheckpointLevel) (state cursor : List UInt8) : List UInt8 :=
  front levels ++ (toBeBytes (.ofNat state.length) ++
    (state ++ (toBeBytes (.ofNat cursor.length) ++ cursor)))

variable {levels : List CheckpointLevel}

section

variable (sizes : MemorySizes)

def encode (levels : List CheckpointLevel) (state : List UInt8) (work : CheckpointWork) :
    CatgaResult (List UInt8) :=
  if maxCheckpointPathDepth < levels.length then
    .error ⟨.validation, "DSL checkpoint path exceeds the maximum depth"⟩
  else if maxCheckpointStateBytes < state.length then
    .error ⟨.validation, "DSL checkpoint state exceeds the maximum size"⟩
  else
    match work.serialize sizes with
    | .error _ => .error ⟨.validation, "DSL checkpoint work cursor cannot be encoded"⟩
    | .ok cursor =>
      if 2 ^ 32 ≤ cursor.length then
        .error ⟨.validation, "DSL checkpoint work cursor is too large"⟩
      else if maxCheckpointFrameBytes <
          checkpointFrameHeaderBytes + levels.length * checkpointLevelBytes + state.length + 4 +
            cursor.length then
        .error ⟨.validation, "DSL checkpoint frame exceeds the maximum size"⟩
      else
        .ok (assemble levels state cursor)

variable (payload : List UInt8)

/-- The work record of a frame whose state ends at `expectedLen`; frames without one are at a
branch. -/
def decodeWork (expectedLen : Nat) : CatgaResult CheckpointWork :=
  if expectedLen = payload.length then .ok .branch
  else if payload.length < expectedLen + 4 then
    .error ⟨.validation, "DSL checkpoint work cursor is truncated"⟩
  else
    let workLengthEnd := expectedLen + 4
    let workEnd := workLengthEnd + (fromBeBytes (slice payload expectedLen workLengthEnd)).toNat
    if workEnd ≠ payload.length then
      .error ⟨.validation, "DSL checkpoint work cursor has an invalid length"⟩
    else
      match (format sizes).deserializeBounded .default
          (slice payload workLengthEnd workEnd) with
      | .ok work => .ok work
      | .error _ => .error ⟨.validation, "DSL checkpoint work cursor is invalid"⟩

def decodeLevel (index : Nat) : CheckpointLevel :=
  let offset := 6 + index * checkpointLevelBytes
  { branch := fromBeBytes (slice payload offset (offset + 4))
    nextStep := fromBeBytes (slice payload (offset + 4) (offset + 8)) }

def decode : CatgaResult (Option CheckpointFrame) :=
  if ¬checkpointFrameMagic <+: payload then .ok none
  else if maxCheckpointFrameBytes < payload.length ∨
      payload.length < checkpointFrameHeaderBytes then
    .error ⟨.validation, "DSL checkpoint frame has an invalid size"⟩
  else if payload[4]? ≠ some checkpointFrameVersion then
    .error ⟨.validation, "DSL checkpoint frame has an unsupported version"⟩
  else
    let levelCount := (payload[5]?.getD 0).toNat
    if maxCheckpointPathDepth < levelCount then
      .error ⟨.validation, "DSL checkpoint frame exceeds the maximum path depth"⟩
    else
      let stateLengthOffset := 6 + levelCount * checkpointLevelBytes
      let stateOffset := stateLengthOffset + 4
      if payload.length < stateOffset then
        .error ⟨.validation, "DSL checkpoint frame is truncated"⟩
      else
        let stateLen := (fromBeBytes (slice payload stateLengthOffset stateOffset)).toNat
        if maxCheckpointStateBytes < stateLen then
          .error ⟨.validation, "DSL checkpoint state exceeds the maximum size"⟩
        else do
          let work ← decodeWork sizes payload (stateOffset + stateLen)
          pure (some
            { levels := (List.range levelCount).map (decodeLevel payload)
              state := slice payload stateOffset (stateOffset + stateLen)
              work })

/-- What `encode` has checked when it returns a frame, and the parts of that frame. -/
lemma encode_eq_ok {state work payload}
    (encoded : encode sizes levels state work = .ok payload) :
    ∃ cursor, work.serialize sizes = .ok cursor ∧ levels.length ≤ 32 ∧ state.length ≤ 1024 * 1024 ∧
      cursor.length < 2 ^ 32 ∧
      levels.length * 8 + state.length + cursor.length ≤ 252 + 1024 * 1024 ∧
      payload = assemble levels state cursor := by
  simp only [encode] at encoded
  split at encoded
  · cases encoded
  rename_i shallow
  split at encoded
  · cases encoded
  rename_i small
  split at encoded
  · cases encoded
  rename_i cursor serialized
  split at encoded
  · cases encoded
  split at encoded
  · cases encoded
  rename_i bounded
  cases encoded
  simp only [maxCheckpointPathDepth, maxCheckpointStateBytes, maxCheckpointFrameBytes,
    checkpointFrameHeaderBytes, checkpointLevelBytes] at shallow small bounded
  exact ⟨cursor, serialized, by omega, by omega, by omega, by omega, rfl⟩

end

section

variable (levels : List CheckpointLevel) (state cursor : List UInt8)

@[simp] lemma length_toBytes (level : CheckpointLevel) : level.toBytes.length = 8 := by
  simp [CheckpointLevel.toBytes]

lemma length_path : (levels.flatMap CheckpointLevel.toBytes).length = levels.length * 8 := by
  induction levels with
  | nil => rfl
  | cons level levels ih =>
    rw [flatMap_cons, length_append, ih, length_toBytes, length_cons]
    omega

@[simp] lemma length_front : (front levels).length = 6 + levels.length * 8 := by
  rw [front, length_append, length_path]
  rfl

lemma length_assemble :
    (assemble levels state cursor).length =
      10 + levels.length * 8 + state.length + 4 + cursor.length := by
  simp only [assemble, length_append, length_front, length_toBeBytes]
  omega

lemma slice_stateLength :
    slice (assemble levels state cursor) (6 + levels.length * 8) (6 + levels.length * 8 + 4) =
      toBeBytes (.ofNat state.length) := slice_part (front levels) _ rfl (by simp) (by simp)

lemma slice_state :
    slice (assemble levels state cursor) (6 + levels.length * 8 + 4)
      (6 + levels.length * 8 + 4 + state.length) = state :=
  slice_part (front levels ++ toBeBytes (.ofNat state.length))
    (toBeBytes (.ofNat cursor.length) ++ cursor) (by simp [assemble]) (by simp) rfl

lemma slice_workLength :
    slice (assemble levels state cursor) (6 + levels.length * 8 + 4 + state.length)
      (6 + levels.length * 8 + 4 + state.length + 4) = toBeBytes (.ofNat cursor.length) :=
  slice_part (front levels ++ toBeBytes (.ofNat state.length) ++ state) cursor
    (by simp [assemble]) (by simp [Nat.add_assoc]) (by simp)

lemma slice_work :
    slice (assemble levels state cursor) (6 + levels.length * 8 + 4 + state.length + 4)
      (6 + levels.length * 8 + 4 + state.length + 4 + cursor.length) = cursor :=
  slice_part (front levels ++ toBeBytes (.ofNat state.length) ++ state ++
    toBeBytes (.ofNat cursor.length)) [] (by simp [assemble]) (by simp [Nat.add_assoc]) rfl

lemma decodeLevel_assemble (index : Nat) (inside : index < levels.length) :
    decodeLevel (assemble levels state cursor) index = levels[index] := by
  let before := checkpointFrameMagic ++ [checkpointFrameVersion, .ofNat levels.length] ++
    (levels.take index).flatMap CheckpointLevel.toBytes
  obtain ⟨after, split⟩ : ∃ after, assemble levels state cursor =
      before ++
        (toBeBytes levels[index].branch ++ (toBeBytes levels[index].nextStep ++ after)) := by
    have levels_eq : levels.flatMap CheckpointLevel.toBytes =
        (levels.take index ++ levels[index] :: levels.drop (index + 1)).flatMap
          CheckpointLevel.toBytes := by
      simp
    refine ⟨(levels.drop (index + 1)).flatMap CheckpointLevel.toBytes ++
      (toBeBytes (.ofNat state.length) ++
        (state ++ (toBeBytes (.ofNat cursor.length) ++ cursor))), ?_⟩
    rw [assemble, front, levels_eq, flatMap_append, flatMap_cons, CheckpointLevel.toBytes]
    simp [before, append_assoc]
  have before_length : before.length = 6 + index * 8 := by
    rw [length_append, length_path, length_take, min_eq_left (le_of_lt inside)]
    rfl
  have branch_eq : slice (assemble levels state cursor) (6 + index * 8) (6 + index * 8 + 4) =
      toBeBytes levels[index].branch :=
    slice_part before _ split before_length.symm (by simp)
  have step_eq : slice (assemble levels state cursor) (6 + index * 8 + 4) (6 + index * 8 + 8) =
      toBeBytes levels[index].nextStep := by
    refine slice_part (before ++ toBeBytes levels[index].branch) after ?_ ?_ (by simp)
    · exact split.trans (append_assoc _ _ _).symm
    · rw [length_append, before_length, length_toBeBytes]
  simp [decodeLevel, checkpointLevelBytes, branch_eq, step_eq]

lemma decodeLevels_assemble :
    (List.range levels.length).map (decodeLevel (assemble levels state cursor)) = levels := by
  refine ext_getElem (by simp) fun index inside _ => ?_
  rw [getElem_map, getElem_range]
  exact decodeLevel_assemble levels state cursor index (by simpa using inside)

end

section

variable (sizes : MemorySizes)

lemma decodeWork_assemble (levels : List CheckpointLevel) (state : List UInt8)
    {cursor} (representable : cursor.length < 2 ^ 32) :
    decodeWork sizes (assemble levels state cursor) (6 + levels.length * 8 + 4 + state.length) =
      match (format sizes).deserializeBounded .default cursor with
      | .ok work => .ok work
      | .error _ => .error ⟨.validation, "DSL checkpoint work cursor is invalid"⟩ := by
  have length_eq := length_assemble levels state cursor
  have cursor_eq : (UInt32.ofNat cursor.length).toNat = cursor.length :=
    UInt32.toNat_ofNat_of_lt' representable
  rw [decodeWork, if_neg (by omega), if_neg (by omega)]
  simp only [slice_workLength, fromBeBytes_toBeBytes, cursor_eq]
  rw [if_neg (by omega), slice_work]

lemma decode_assemble {state cursor} (shallow : levels.length ≤ 32)
    (small : state.length ≤ 1024 * 1024) (representable : cursor.length < 2 ^ 32)
    (bounded : levels.length * 8 + state.length + cursor.length ≤ 252 + 1024 * 1024) :
    decode sizes (assemble levels state cursor) = (do
      let work ← decodeWork sizes (assemble levels state cursor)
        (6 + levels.length * 8 + 4 + state.length)
      pure (some { levels, state, work })) := by
  have length_eq := length_assemble levels state cursor
  have magic : checkpointFrameMagic <+: assemble levels state cursor :=
    ⟨_, by simp only [assemble, front, append_assoc]; rfl⟩
  have version : (assemble levels state cursor)[4]? = some checkpointFrameVersion := rfl
  have count : (assemble levels state cursor)[5]? = some (.ofNat levels.length) := rfl
  have count_eq : (UInt8.ofNat levels.length).toNat = levels.length :=
    UInt8.toNat_ofNat_of_lt' (lt_of_le_of_lt shallow (by decide))
  have state_eq : (UInt32.ofNat state.length).toNat = state.length :=
    UInt32.toNat_ofNat_of_lt' (lt_of_le_of_lt small (by decide))
  have sized : ¬(maxCheckpointFrameBytes < (assemble levels state cursor).length ∨
      (assemble levels state cursor).length < checkpointFrameHeaderBytes) := by
    simp only [maxCheckpointFrameBytes, checkpointFrameHeaderBytes, checkpointLevelBytes,
      maxCheckpointPathDepth, maxCheckpointStateBytes]
    omega
  rw [decode, if_neg (not_not_intro magic), if_neg sized, version,
    if_neg (not_not_intro rfl), count]
  simp only [Option.getD_some, count_eq, checkpointLevelBytes, slice_stateLength,
    fromBeBytes_toBeBytes, state_eq, slice_state, decodeLevels_assemble]
  rw [if_neg (by simp only [maxCheckpointPathDepth]; omega), if_neg (by omega),
    if_neg (by simp only [maxCheckpointStateBytes]; omega)]

/-- A checkpoint that was written is read back exactly if the sizes inside its work record are
within the default limits of the codec. -/
theorem frame_resumes_iff (levels : List CheckpointLevel) (state : List UInt8)
    (work : CheckpointWork) (payload : List UInt8)
    (encoded : encode sizes levels state work = .ok payload) :
    decode sizes payload = .ok (some { levels, state, work }) ↔ work.Moderate sizes := by
  obtain ⟨cursor, serialized, shallow, small, representable, bounded, rfl⟩ :=
    encode_eq_ok sizes encoded
  rw [decode_assemble sizes shallow small representable bounded,
    decodeWork_assemble sizes levels state representable, ← CheckpointWork.fits_iff]
  constructor
  · intro decoded
    by_contra misfit
    obtain ⟨error, refused⟩ :=
      (CheckpointWork.format_lossless sizes).deserializeBounded_eq_error .default serialized misfit
    rw [refused] at decoded
    cases decoded
  · intro fits
    rw [(CheckpointWork.format_lossless sizes).deserializeBounded_eq_ok .default serialized fits]
    rfl

/-- A parallel step with a completed, an untouched and an interrupted branch comes back. -/
theorem frame_resumes_parallel :
    ∃ payload,
      encode ⟨24, 24, 32⟩ [⟨1, 2⟩] [7]
        (.parallelBranches [some (.completed [1]), none, some (.inProgress 3 true [2, 3])]) =
          .ok payload ∧
      decode ⟨24, 24, 32⟩ payload = .ok (some
        { levels := [⟨1, 2⟩], state := [7]
          work :=
            .parallelBranches [some (.completed [1]), none, some (.inProgress 3 true [2, 3])] }) :=
  ⟨_, rfl, (frame_resumes_iff _ _ _ _ _ rfl).mpr ⟨by decide, by decide, by decide⟩⟩

/-- A parallel step with one completed branch, whose state is of the given length. -/
def oneBranch (length : Nat) : CheckpointWork :=
  .parallelBranches [some (.completed (List.replicate length 0))]

lemma serialize_oneBranch {length} (representable : length < 2 ^ 31) :
    ∃ cursor, (format sizes).serialize (oneBranch length) = .ok cursor := by
  have state_accepted : completedFormat.Accepts (List.replicate length 0) := by
    simpa [completedFormat] using representable
  obtain ⟨state, state_ok⟩ := state_accepted
  have accepted :
      (parallelBranchesFormat sizes).Accepts [some (.completed (List.replicate length 0))] := by
    refine accepts_object.mpr (accepts_vec.mpr ⟨by simp, ?_⟩)
    intro progress listed
    rw [mem_singleton.mp listed]
    exact accepts_option.mpr
      ⟨0 :: state, (framed_eq_ok _).mpr ⟨state, state_ok, rfl⟩⟩
  obtain ⟨body, body_ok⟩ := accepted
  exact ⟨5 :: body, (framed_eq_ok _).mpr ⟨body, body_ok, rfl⟩⟩

/-- A branch state beyond the limit of a collection is written into a frame that is refused. -/
lemma refused_of_long {length} (long : 65536 < length) (short : length ≤ 1024 * 1024) :
    ∃ payload, encode sizes [] [] (oneBranch length) = .ok payload ∧
      ∃ error, decode sizes payload = .error error := by
  have representable : length < 2 ^ 31 := by omega
  obtain ⟨cursor, serialized⟩ := serialize_oneBranch sizes representable
  have length_eq : cursor.length = 16 + length := by
    rw [(format_lossless sizes).length serialized,
      (format_occupies sizes (oneBranch length)).size]
    simp [oneBranch, footprint, ParallelBranchProgress.overhead,
      ParallelBranchProgress.recorded]
    omega
  have encoded : encode sizes [] [] (oneBranch length) = .ok (assemble [] [] cursor) := by
    have bounded : ¬maxCheckpointFrameBytes < checkpointFrameHeaderBytes +
        ([] : List CheckpointLevel).length * checkpointLevelBytes + ([] : List UInt8).length + 4 +
          cursor.length := by
      simp only [maxCheckpointFrameBytes, checkpointFrameHeaderBytes, checkpointLevelBytes,
        maxCheckpointPathDepth, maxCheckpointStateBytes, length_nil]
      omega
    have written : (oneBranch length).serialize sizes = .ok cursor := serialized
    rw [encode, if_neg (by simp), if_neg (by simp), written]
    simp only
    rw [if_neg (by omega), if_neg bounded]
  have misfit : ¬(format sizes).Fits .default (oneBranch length) := by
    rw [fits_iff]
    rintro ⟨⟨each, -⟩, -, -⟩
    have bound := each (List.replicate length 0) (mem_singleton.mpr rfl)
    rw [length_replicate] at bound
    omega
  obtain ⟨error, refused⟩ :=
    (format_lossless sizes).deserializeBounded_eq_error .default serialized misfit
  refine ⟨_, encoded, ?_⟩
  rw [decode_assemble sizes (Nat.zero_le _) (Nat.zero_le _) (by omega)
      (by simp only [length_nil]; omega),
    decodeWork_assemble sizes [] [] (by omega), refused]
  exact ⟨_, rfl⟩

/-- A checkpoint whose only branch has a state of 65,537 bytes is written, and its frame is
refused. -/
theorem written_frame_refused :
    ∃ payload, encode ⟨24, 24, 40⟩ [] [] (oneBranch 65537) = .ok payload ∧
      ∃ error, decode ⟨24, 24, 40⟩ payload = .error error :=
  refused_of_long ⟨24, 24, 40⟩ (by decide) (by decide)

end

end Catga.Dsl.Frame
