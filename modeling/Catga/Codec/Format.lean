import Catga.Codec.ReadBack
import Catga.Foundation.PrefixFree

/-!
# Wire forms

How the values of a type are written and read, with the number of bytes a value takes and what
reading it back asks of the reader.  Every rule below builds a wire form the way an implementation
of the codec's traits does, and keeps three properties: the announced size, that a written value is
read back exactly if its demand fits, and that writings are prefix free.
-/

namespace Catga.Codec

open Metered List

variable {α β : Type}

/-- The wire form of a type. -/
structure Format (α : Type) where
  serialize : α → Except MemoryPackError (List UInt8)
  deserialize : MemoryPackDecodeLimits → Nat → Reader α
  size : α → Nat
  /-- What reading a value back asks of the reader. -/
  demand : α → Demand

namespace Format

/-- What is written has the announced size and is read back exactly if its demand fits. -/
structure Lossless (format : Format α) : Prop where
  length : ∀ {value bytes}, format.serialize value = .ok bytes → bytes.length = format.size value
  reads : ∀ {value bytes} (limits : MemoryPackDecodeLimits) (remaining : Nat),
    format.serialize value = .ok bytes →
      Yields limits.maxAllocationBytes.toNat (format.deserialize limits remaining)
        (pieceOf limits remaining bytes value (format.demand value))

/-- The same of one value: a type may have values that its reader changes or refuses. -/
structure Restores (format : Format α) (value : α) : Prop where
  length : ∀ {bytes}, format.serialize value = .ok bytes → bytes.length = format.size value
  reads : ∀ {bytes} (limits : MemoryPackDecodeLimits) (remaining : Nat),
    format.serialize value = .ok bytes →
      Yields limits.maxAllocationBytes.toNat (format.deserialize limits remaining)
        (pieceOf limits remaining bytes value (format.demand value))

variable {format : Format α} {wire : α → β} {tryFrom : β → Except MemoryPackError α}
  {property : α → Prop} {first item : Format α} {values : List α} {count : Nat} {fields : Format α}
  {limits : MemoryPackDecodeLimits} {value : α}

lemma Lossless.restores (lossless : format.Lossless) (value : α) :
    format.Restores value where
  length := lossless.length
  reads := lossless.reads

lemma Lossless.of_restores (restores : ∀ value, format.Restores value) :
    format.Lossless where
  length := fun {value} => (restores value).length
  reads := fun {value} => (restores value).reads

def Produces (format : Format α) (property : α → Prop) : Prop :=
  ∀ limits remaining input value rest,
    format.deserialize limits remaining input = .ok (value, rest) → property value

section

variable (format : Format α) (limits : MemoryPackDecodeLimits)

def deserializeBounded (bytes : List UInt8) : Except MemoryPackError α :=
  if limits.maxFrameBytes.toNat < bytes.length then
    .error (.limitExceeded "frame bytes" limits.maxFrameBytes.toNat)
  else do
    let (value, input) ← format.deserialize limits limits.maxNestingDepth.toNat
      { rest := bytes, used := 0 }
    if input.rest = [] then pure value else .error .trailingBytes

/-- A value takes no more bytes and asks for no more than the limits of a frame allow. -/
def Fits (value : α) : Prop :=
  format.size value ≤ limits.maxFrameBytes.toNat ∧ (format.demand value).Fits limits
deriving Decidable

end

section

variable (limits : MemoryPackDecodeLimits) {bytes : List UInt8}
  (serialized : format.serialize value = .ok bytes)
include serialized

lemma Restores.deserialize_eq_ok (restores : format.Restores value)
    (fits : (format.demand value).Fits limits) :
    ∃ used, format.deserialize limits limits.maxNestingDepth.toNat { rest := bytes, used := 0 } =
      .ok (value, { rest := [], used }) := by
  have accepted :=
    (restores.reads limits limits.maxNestingDepth.toNat serialized [] 0 (Nat.zero_le _)).1
  simp only [pieceOf, append_nil, Nat.zero_add] at accepted
  exact ⟨_, accepted fits⟩

lemma Restores.deserialize_eq_error (restores : format.Restores value)
    (exceeds : ¬(format.demand value).Fits limits) :
    ∃ error, format.deserialize limits limits.maxNestingDepth.toNat { rest := bytes, used := 0 } =
      .error error := by
  have refused :=
    (restores.reads limits limits.maxNestingDepth.toNat serialized [] 0 (Nat.zero_le _)).2
  simp only [pieceOf, append_nil, Nat.zero_add] at refused
  exact refused exceeds

lemma Lossless.deserializeBounded_eq_error (lossless : format.Lossless)
    (misfit : ¬format.Fits limits value) :
    ∃ error, format.deserializeBounded limits bytes = .error error := by
  simp only [deserializeBounded]
  by_cases long : limits.maxFrameBytes.toNat < bytes.length
  · exact ⟨_, if_pos long⟩
  · have exceeds : ¬(format.demand value).Fits limits := fun fits =>
      misfit ⟨lossless.length serialized ▸ not_lt.mp long, fits⟩
    obtain ⟨error, failed⟩ :=
      (lossless.restores value).deserialize_eq_error limits serialized exceeds
    rw [if_neg long, failed]
    exact ⟨error, rfl⟩

lemma Lossless.deserializeBounded_eq_ok (lossless : format.Lossless)
    (fits : format.Fits limits value) : format.deserializeBounded limits bytes = .ok value := by
  have short : bytes.length ≤ limits.maxFrameBytes.toNat := lossless.length serialized ▸ fits.1
  obtain ⟨used, read⟩ := (lossless.restores value).deserialize_eq_ok limits serialized fits.2
  rw [deserializeBounded, if_neg (not_lt.mpr short), read]
  rfl

end

def Writes (format : Format α) (value : α) (bytes : List UInt8) : Prop :=
  format.serialize value = .ok bytes

section

def unit : Format Unit where
  serialize _ := .ok []
  deserialize _ _ := pure ()
  size _ := 0
  demand _ := .none

lemma unit_lossless : unit.Lossless where
  length := by
    rintro value bytes ⟨⟩
    rfl
  reads := by
    rintro value bytes limits remaining ⟨⟩
    exact reads_free remaining (Yields.pure ())

def bool : Format Bool where
  serialize value := .ok [if value then 1 else 0]
  deserialize _ _ := readBool
  size _ := 1
  demand _ := .none

lemma bool_lossless : bool.Lossless where
  length := by
    rintro value bytes ⟨⟩
    rfl
  reads := by
    rintro value bytes limits remaining ⟨⟩
    exact reads_free remaining (yields_readBool value)

def fixed (width : Nat) : Format (BitVec (8 * width)) where
  serialize value := .ok (LittleEndian.encode width value.toNat)
  deserialize _ _ := do
    let bits ← readUnsigned width
    pure (BitVec.ofNat (8 * width) bits)
  size _ := width
  demand _ := .none

lemma fixed_lossless (width : Nat) : (fixed width).Lossless where
  length := by
    rintro value bytes ⟨⟩
    exact LittleEndian.length_encode width value.toNat
  reads := by
    rintro value bytes limits remaining ⟨⟩
    have small : value.toNat < 256 ^ width := by
      have bounded := value.isLt
      rwa [Nat.pow_mul] at bounded
    have bits : Reads limits (readUnsigned width)
        (free (LittleEndian.encode width value.toNat) value.toNat) := yields_readUnsigned small
    have read := bits.map (BitVec.ofNat (8 * width))
    exact reads_free remaining (read.congr rfl (by simp [free]) rfl Iff.rfl)

def char : Format Char where
  serialize value := .ok (writeChar value)
  deserialize _ _ := readChar
  size value := if value.toNat ≤ 0xFFFF then 2 else 4
  demand _ := .none

lemma char_lossless : char.Lossless where
  length := by
    rintro value bytes ⟨⟩
    simp only [writeChar, char]
    split <;> simp
  reads := by
    rintro value bytes limits remaining ⟨⟩
    exact reads_free remaining (yields_readChar value)

end

def string : Format String where
  serialize := writeString
  deserialize limits _ := readString limits
  size text := if utf8Bytes text = [] then 4 else 8 + (utf8Bytes text).length
  demand text :=
    { Demand.none with
      allocation := (utf8Bytes text).length, longestString := (utf8Bytes text).length }

@[simp] lemma length_writeI32 (value : Int) : (writeI32 value).length = 4 :=
  LittleEndian.length_encode 4 _

lemma string_lossless : string.Lossless where
  length := by
    intro text bytes written
    simp only [string]
    obtain ⟨empty, rfl⟩ | ⟨nonempty, -, -, rfl⟩ := writeString_eq_ok written
    · rw [if_pos empty, length_writeI32]
    · rw [if_neg nonempty]
      simp only [length_append, length_writeI32]
  reads := by
    intro text bytes limits remaining written
    exact (yields_readString limits written).congr rfl rfl rfl
      (by simp [string])

/-- A type that is written as another one, its wire record. -/
def convert (format : Format β) (wire : α → β) (tryFrom : β → Except MemoryPackError α) :
    Format α where
  serialize value := format.serialize (wire value)
  deserialize limits remaining := do
    let record ← format.deserialize limits remaining
    match tryFrom record with
    | .ok value => pure value
    | .error error => fail error
  size value := format.size (wire value)
  demand value := format.demand (wire value)

variable {format : Format β} {second : Format β}

lemma convert_restores (restores : format.Restores (wire value))
    (inverse : tryFrom (wire value) = .ok value) :
    (format.convert wire tryFrom).Restores value where
  length := fun serialized => restores.length serialized
  reads := by
    intro bytes limits remaining serialized
    have read := restores.reads limits remaining serialized
    have converted : Reads limits (match tryFrom (wire value) with
          | .ok value => pure value
          | .error error => fail error : Reader α) (free [] value) := by
      rw [inverse]
      exact Yields.pure value
    exact Yields.seq _ read converted (by simp [free]) rfl (by simp [free, convert])
      (by simp [free, convert])

lemma convert_lossless (lossless : format.Lossless)
    (inverse : ∀ value, tryFrom (wire value) = .ok value) :
    (format.convert wire tryFrom).Lossless :=
  .of_restores fun value => convert_restores (lossless.restores (wire value)) (inverse value)

lemma convert_produces {record} (produces : format.Produces record)
    (carries : ∀ value converted, record value → tryFrom value = .ok converted → property converted)
    : (format.convert wire tryFrom).Produces property := by
  intro limits remaining input value rest read
  obtain ⟨⟨raw, after⟩, raw_read, continued⟩ := bind_eq_ok.mp read
  cases converted : tryFrom raw with
  | error =>
    simp only [converted] at continued
    cases continued
  | ok =>
    simp only [converted] at continued
    cases continued
    exact carries raw value (produces _ _ _ _ _ raw_read) converted

def u8 : Format UInt8 := (fixed 1).convert UInt8.toBitVec (fun bits => .ok (.ofBitVec bits))

def u32 : Format UInt32 := (fixed 4).convert UInt32.toBitVec (fun bits => .ok (.ofBitVec bits))

def u64 : Format UInt64 := (fixed 8).convert UInt64.toBitVec (fun bits => .ok (.ofBitVec bits))

def i64 : Format Int64 := (fixed 8).convert Int64.toBitVec (fun bits => .ok (.ofBitVec bits))

lemma u8_lossless : u8.Lossless := convert_lossless (fixed_lossless 1) fun _ => rfl

lemma u32_lossless : u32.Lossless := convert_lossless (fixed_lossless 4) fun _ => rfl

lemma u64_lossless : u64.Lossless := convert_lossless (fixed_lossless 8) fun _ => rfl

lemma i64_lossless : i64.Lossless := convert_lossless (fixed_lossless 8) fun _ => rfl

lemma framed_eq_ok {written : Except MemoryPackError (List UInt8)} {bytes}
    (frame : List UInt8 → List UInt8) :
    (do
      let body ← written
      pure (frame body)) = .ok bytes ↔ ∃ body, written = .ok body ∧ bytes = frame body := by
  constructor
  · intro serialized
    obtain ⟨body, body_ok, returned⟩ := bind_eq_ok.mp serialized
    exact ⟨body, body_ok, (Except.ok.inj returned).symm⟩
  · rintro ⟨body, body_ok, rfl⟩
    exact bind_eq_ok.mpr ⟨body, body_ok, rfl⟩

def pair (first : Format α) (second : Format β) : Format (α × β) where
  serialize value := do
    let bytes ← first.serialize value.1
    let rest ← second.serialize value.2
    pure (bytes ++ rest)
  deserialize limits remaining := do
    let value ← first.deserialize limits remaining
    let next ← second.deserialize limits remaining
    pure (value, next)
  size value := first.size value.1 + second.size value.2
  demand value := (first.demand value.1).both (second.demand value.2)

lemma append_eq_ok {first second : Except MemoryPackError (List UInt8)} {bytes} :
    (do
      let header ← first
      let rest ← second
      pure (header ++ rest)) = .ok bytes ↔
      ∃ header rest, first = .ok header ∧ second = .ok rest ∧ bytes = header ++ rest := by
  constructor
  · intro written
    obtain ⟨header, first_ok, continued⟩ := bind_eq_ok.mp written
    obtain ⟨rest, second_ok, returned⟩ := bind_eq_ok.mp continued
    exact ⟨header, rest, first_ok, second_ok, (Except.ok.inj returned).symm⟩
  · rintro ⟨header, rest, rfl, rfl, rfl⟩
    rfl

lemma pair_restores {value : α × β} (first_restores : first.Restores value.1)
    (second_restores : second.Restores value.2) : (first.pair second).Restores value where
  length := by
    intro bytes serialized
    obtain ⟨header, rest, first_ok, second_ok, rfl⟩ := append_eq_ok.mp serialized
    rw [length_append, first_restores.length first_ok, second_restores.length second_ok]
    rfl
  reads := by
    intro bytes limits remaining serialized
    obtain ⟨header, rest, first_ok, second_ok, rfl⟩ := append_eq_ok.mp serialized
    have tail := (second_restores.reads limits remaining second_ok).map (Prod.mk value.1)
    exact Yields.seq _ (first_restores.reads limits remaining first_ok) tail rfl rfl rfl
      Demand.within_both

lemma pair_lossless (first_lossless : first.Lossless) (second_lossless : second.Lossless) :
    (first.pair second).Lossless :=
  .of_restores fun value =>
    pair_restores (first_lossless.restores value.1) (second_lossless.restores value.2)

lemma pair_produces (second : Format β) (produces : first.Produces property) :
    (first.pair second).Produces fun value => property value.1 := by
  intro limits remaining input value rest read
  obtain ⟨⟨left, after⟩, left_read, continued⟩ := bind_eq_ok.mp read
  obtain ⟨⟨right, last⟩, right_read, returned⟩ := bind_eq_ok.mp continued
  cases returned
  exact produces _ _ _ _ _ left_read

def serializeItems (item : Format α) : List α → Except MemoryPackError (List UInt8)
  | [] => .ok []
  | value :: values => do
      let bytes ← item.serialize value
      let rest ← serializeItems item values
      pure (bytes ++ rest)

def sizeItems (item : Format α) (values : List α) : Nat := (values.map item.size).sum

def demandItems (item : Format α) : List α → Demand
  | [] => .none
  | value :: values => (item.demand value).both (demandItems item values)

lemma length_serializeItems (lossless : item.Lossless) {bytes : List UInt8}
    (serialized : item.serializeItems values = .ok bytes) :
    bytes.length = item.sizeItems values := by
  induction values generalizing bytes with
  | nil =>
    cases serialized
    rfl
  | cons value values ih =>
    obtain ⟨header, rest, first_ok, rest_ok, rfl⟩ := append_eq_ok.mp serialized
    rw [length_append, lossless.length first_ok, ih rest_ok]
    simp [sizeItems]

lemma yields_items (lossless : item.Lossless) (limits) (remaining : Nat)
    {bytes : List UInt8} (serialized : item.serializeItems values = .ok bytes) :
    Reads limits (all (List.replicate values.length (item.deserialize limits remaining)))
      (pieceOf limits remaining bytes values (item.demandItems values)) := by
  induction values generalizing bytes with
  | nil =>
    cases serialized
    exact reads_free remaining Yields.all_nil
  | cons value values ih =>
    obtain ⟨header, rest, first_ok, rest_ok, rfl⟩ := append_eq_ok.mp serialized
    have both := (lossless.reads limits remaining first_ok).all_cons (ih rest_ok)
    exact both.congr rfl rfl rfl Demand.within_both

/-- `write_collection_header` and the items. -/
def serializeCollection (item : Format α) (values : List α) :
    Except MemoryPackError (List UInt8) := do
  let length ← checkedI32Length values.length
  let bytes ← item.serializeItems values
  pure (writeI32 length ++ bytes)

lemma serializeCollection_eq_ok {bytes} :
    item.serializeCollection values = .ok bytes ↔
      values.length < 2 ^ 31 ∧ ∃ body, item.serializeItems values = .ok body ∧
        bytes = writeI32 values.length ++ body := by
  constructor
  · intro serialized
    obtain ⟨length, length_ok, continued⟩ := bind_eq_ok.mp serialized
    obtain ⟨body, body_ok, returned⟩ := bind_eq_ok.mp continued
    obtain ⟨rfl, length_lt⟩ := checkedI32Length_eq_ok length_ok
    exact ⟨length_lt, body, body_ok, (Except.ok.inj returned).symm⟩
  · rintro ⟨length_lt, body, body_ok, rfl⟩
    have length_ok : checkedI32Length values.length = .ok values.length := if_pos length_lt
    simp [serializeCollection, length_ok, body_ok, bind, Except.bind, pure, Except.pure]

/-- `Vec<T>` and `VecDeque<T>` for items of the given size in memory. -/
def vec (size : Nat) (item : Format α) : Format (List α) where
  serialize := item.serializeCollection
  deserialize limits remaining := do
    let length ← readI32
    match ← validateCollectionLen limits length with
    | none => pure []
    | some capacity => do
        reserveCollection limits size capacity
        all (List.replicate capacity (item.deserialize limits remaining))
  size values := 4 + item.sizeItems values
  demand values :=
    Demand.both { Demand.none with allocation := values.length * size, longestVec := values.length }
      (item.demandItems values)

lemma serializeItems_nil {body} (serialized : item.serializeItems values = .ok body)
    (empty : values = []) : body = [] ∧ item.demandItems values = .none := by
  subst empty
  exact ⟨(Except.ok.inj serialized).symm, rfl⟩

lemma length_serializeCollection (lossless : item.Lossless) {values}
    {bytes} (serialized : item.serializeCollection values = .ok bytes) :
    bytes.length = 4 + item.sizeItems values := by
  obtain ⟨-, body, body_ok, rfl⟩ := serializeCollection_eq_ok.mp serialized
  rw [length_append, length_writeI32, length_serializeItems lossless body_ok]

lemma vec_lossless (size : Nat) (lossless : item.Lossless) :
    (vec size item).Lossless where
  length := length_serializeCollection lossless
  reads := by
    intro values bytes limits remaining serialized
    obtain ⟨length_lt, body, body_ok, rfl⟩ := serializeCollection_eq_ok.mp serialized
    have read := yields_collection limits size id length_lt
      (yields_items lossless limits remaining body_ok) (serializeItems_nil body_ok)
    simp only [id, bind_pure] at read
    exact read

/-- `LinkedList<T>`, which reserves nothing up front. -/
def linkedList (item : Format α) : Format (List α) where
  serialize := item.serializeCollection
  deserialize limits remaining := do
    let length ← readI32
    match ← validateCollectionLen limits length with
    | none => pure []
    | some capacity => all (List.replicate capacity (item.deserialize limits remaining))
  size values := 4 + item.sizeItems values
  demand values :=
    Demand.both { Demand.none with longestVec := values.length } (item.demandItems values)

lemma linkedList_lossless (lossless : item.Lossless) :
    (linkedList item).Lossless where
  length := length_serializeCollection lossless
  reads := by
    intro values bytes limits remaining serialized
    obtain ⟨length_lt, body, body_ok, rfl⟩ := serializeCollection_eq_ok.mp serialized
    have header : Reads limits readI32 (free (writeI32 values.length) (values.length : Int)) :=
      yields_readI32 (by omega) (by omega)
    have read := yields_items lossless limits remaining body_ok
    refine yields_then body header ?_ rfl
    cases values with
    | nil =>
      cases body_ok
      exact reads_free remaining (Yields.pure [])
    | cons =>
      refine Yields.seq _ (yields_validateCollectionLen limits (by simp)) read rfl rfl ?_ ?_
      · simp [linkedList]
      · simp only [pieceOf, linkedList, Demand.within_both]
        simp

/-- `Option<T>`: a flag and the value, or the default of its type. -/
def option (default : α) (item : Format α) : Format (Option α) where
  serialize
    | some value => do
        let bytes ← item.serialize value
        pure (writeI32 1 ++ bytes)
    | none => do
        let bytes ← item.serialize default
        pure (writeI32 0 ++ bytes)
  deserialize limits remaining := do
    let hasValue ← readI32
    if hasValue = 0 then do
      let _default ← item.deserialize limits remaining
      pure none
    else if hasValue = 1 then do
      let value ← item.deserialize limits remaining
      pure (some value)
    else fail (.deserializationError "invalid generic Option presence flag")
  size value := 4 + item.size (value.getD default)
  demand value := item.demand (value.getD default)

lemma option_eq_ok {default value bytes} :
    (option default item).serialize value = .ok bytes ↔
      ∃ body, item.serialize (value.getD default) = .ok body ∧
        bytes = writeI32 (if value.isSome then 1 else 0) ++ body := by
  cases value with
  | none => exact framed_eq_ok (writeI32 0 ++ ·)
  | some => exact framed_eq_ok (writeI32 1 ++ ·)

lemma option_lossless (default : α) (lossless : item.Lossless) :
    (option default item).Lossless where
  length := by
    intro value bytes serialized
    obtain ⟨body, body_ok, rfl⟩ := option_eq_ok.mp serialized
    rw [length_append, length_writeI32, lossless.length body_ok]
    rfl
  reads := by
    intro value bytes limits remaining serialized
    obtain ⟨body, body_ok, rfl⟩ := option_eq_ok.mp serialized
    have read := lossless.reads limits remaining body_ok
    cases value with
    | none =>
      -- the default value after the flag is read and dropped
      have flag : Reads limits readI32 (free (writeI32 0) 0) :=
        yields_readI32 (by decide) (by decide)
      refine yields_then body flag ?_ rfl
      exact read.map fun _ => none
    | some =>
      have flag : Reads limits readI32 (free (writeI32 1) 1) :=
        yields_readI32 (by decide) (by decide)
      refine yields_then body flag ?_ rfl
      exact read.map some

/-- A derived struct with `count` serialized fields, one level deeper than its fields. -/
def object (count : Nat) (fields : Format α) : Format α where
  serialize value := do
    let bytes ← fields.serialize value
    pure (UInt8.ofNat count :: bytes)
  deserialize limits
    | 0 => fail (.limitExceeded "nesting depth" limits.maxNestingDepth.toNat)
    | remaining + 1 => do
        let received ← readUnsigned 1
        require (received = count) (.deserializationError
          s!"MemoryPack object field count mismatch: expected {count}, received {received}")
        fields.deserialize limits remaining
  size value := 1 + fields.size value
  demand value := { fields.demand value with depth := (fields.demand value).depth + 1 }

lemma object_eq_ok {bytes} :
    (object count fields).serialize value = .ok bytes ↔
      ∃ body, fields.serialize value = .ok body ∧ bytes = UInt8.ofNat count :: body :=
  framed_eq_ok (UInt8.ofNat count :: ·)

lemma object_restores (count_le : count ≤ 255) (restores : fields.Restores value) :
    (object count fields).Restores value where
  length := by
    intro bytes serialized
    obtain ⟨body, body_ok, rfl⟩ := object_eq_ok.mp serialized
    rw [length_cons, restores.length body_ok, Nat.add_comm]
    rfl
  reads := by
    intro bytes limits remaining serialized
    obtain ⟨body, body_ok, rfl⟩ := object_eq_ok.mp serialized
    cases remaining with
    | zero =>
      refine Yields.fail ?_
      rintro ⟨-, -, shallow⟩
      simp [object] at shallow
    | succ remaining =>
      exact (yields_object count_le (restores.reads limits remaining body_ok)).congr rfl rfl rfl
        Demand.within_deeper

lemma object_lossless (count_le : count ≤ 255) (lossless : fields.Lossless) :
    (object count fields).Lossless :=
  .of_restores fun value => object_restores count_le (lossless.restores value)

lemma object_produces (count : Nat) (produces : fields.Produces property) :
    (object count fields).Produces property := by
  intro limits remaining input value rest read
  cases remaining with
  | zero => cases read
  | succ =>
    obtain ⟨⟨received, after⟩, -, continued⟩ := bind_eq_ok.mp read
    obtain ⟨⟨_, last⟩, -, fields_read⟩ := bind_eq_ok.mp continued
    exact produces _ _ _ _ _ fields_read

def Accepts (format : Format α) (value : α) : Prop := ∃ bytes, format.serialize value = .ok bytes

section

@[simp] lemma accepts_bool (value : Bool) : bool.Accepts value := ⟨_, rfl⟩

@[simp] lemma accepts_convert {wire tryFrom} :
    (format.convert wire tryFrom).Accepts value ↔ format.Accepts (wire value) := Iff.rfl

@[simp] lemma accepts_u8 (value : UInt8) : u8.Accepts value := ⟨_, rfl⟩

@[simp] lemma accepts_u32 (value : UInt32) : u32.Accepts value := ⟨_, rfl⟩

@[simp] lemma accepts_i64 (value : Int64) : i64.Accepts value := ⟨_, rfl⟩

lemma utf8Bytes_eq (text : String) :
    utf8Bytes text = text.toList.flatMap String.utf8EncodeChar := by
  have text_eq : (String.ofList text.toList).toByteArray = text.toByteArray := by
    rw [String.ofList_toList]
  rw [String.toByteArray_ofList] at text_eq
  simp [utf8Bytes, ← text_eq, List.utf8Encode]

lemma utf16Length_le (text : String) : utf16Length text ≤ (utf8Bytes text).length := by
  rw [utf8Bytes_eq, utf16Length]
  induction text.toList with
  | nil => exact Nat.le_refl 0
  | cons char chars ih =>
    have units_le : (if char.toNat ≤ 0xFFFF then 1 else 2) ≤
        (String.utf8EncodeChar char).length := by
      simp only [String.utf8EncodeChar, Char.toNat]
      split_ifs
      all_goals simp
      all_goals omega
    rw [map_cons, sum_cons, flatMap_cons, length_append]
    exact Nat.add_le_add units_le ih

variable {item : Format α}

@[simp] lemma accepts_string {text} :
    string.Accepts text ↔ (utf8Bytes text).length < 2 ^ 31 := by
  constructor
  · rintro ⟨bytes, written⟩
    obtain ⟨empty, -⟩ | ⟨-, short, -⟩ := writeString_eq_ok written
    · rw [empty]
      decide
    · exact short
  · intro short
    have units_short : utf16Length text < 2 ^ 31 := lt_of_le_of_lt (utf16Length_le text) short
    simp only [Accepts, string, writeString]
    split
    · exact ⟨_, rfl⟩
    · rw [checkedI32Length, if_pos short, checkedI32Length, if_pos units_short]
      exact ⟨_, rfl⟩

@[simp] lemma accepts_pair {first : Format α} {value} :
    (first.pair second).Accepts value ↔ first.Accepts value.1 ∧ second.Accepts value.2 := by
  constructor
  · rintro ⟨bytes, serialized⟩
    obtain ⟨header, rest, first_ok, second_ok, -⟩ := append_eq_ok.mp serialized
    exact ⟨⟨header, first_ok⟩, ⟨rest, second_ok⟩⟩
  · rintro ⟨⟨header, first_ok⟩, ⟨rest, second_ok⟩⟩
    exact ⟨_, append_eq_ok.mpr ⟨header, rest, first_ok, second_ok, rfl⟩⟩

lemma accepts_items :
    (∃ bytes, item.serializeItems values = .ok bytes) ↔ ∀ value ∈ values, item.Accepts value := by
  induction values with
  | nil => exact iff_of_true ⟨_, rfl⟩ fun value listed => absurd listed not_mem_nil
  | cons value values ih =>
    rw [forall_mem_cons, ← ih]
    constructor
    · rintro ⟨bytes, serialized⟩
      obtain ⟨header, rest, first_ok, rest_ok, -⟩ := append_eq_ok.mp serialized
      exact ⟨⟨header, first_ok⟩, ⟨rest, rest_ok⟩⟩
    · rintro ⟨⟨header, first_ok⟩, ⟨rest, rest_ok⟩⟩
      exact ⟨_, append_eq_ok.mpr ⟨header, rest, first_ok, rest_ok, rfl⟩⟩

@[simp] lemma accepts_vec {size} :
    (vec size item).Accepts values ↔
      values.length < 2 ^ 31 ∧ ∀ value ∈ values, item.Accepts value := by
  rw [← accepts_items]
  constructor
  · rintro ⟨bytes, serialized⟩
    obtain ⟨short, body, body_ok, -⟩ := serializeCollection_eq_ok.mp serialized
    exact ⟨short, body, body_ok⟩
  · rintro ⟨short, body, body_ok⟩
    exact ⟨_, serializeCollection_eq_ok.mpr ⟨short, body, body_ok, rfl⟩⟩

@[simp] lemma accepts_option {default value} :
    (option default item).Accepts value ↔ item.Accepts (value.getD default) := by
  constructor
  · rintro ⟨bytes, serialized⟩
    obtain ⟨body, body_ok, -⟩ := option_eq_ok.mp serialized
    exact ⟨body, body_ok⟩
  · rintro ⟨body, body_ok⟩
    exact ⟨_, option_eq_ok.mpr ⟨body, body_ok, rfl⟩⟩

@[simp] lemma accepts_object {count fields} :
    (object count fields).Accepts value ↔ fields.Accepts value := by
  constructor
  · rintro ⟨bytes, serialized⟩
    obtain ⟨body, body_ok, -⟩ := object_eq_ok.mp serialized
    exact ⟨body, body_ok⟩
  · rintro ⟨body, body_ok⟩
    exact ⟨_, object_eq_ok.mpr ⟨body, body_ok, rfl⟩⟩

end

def bytes : Format (List UInt8) := vec 1 u8

lemma bytes_lossless : bytes.Lossless := vec_lossless 1 u8_lossless

attribute [simp] bool_lossless string_lossless convert_lossless u8_lossless u32_lossless
  u64_lossless
  i64_lossless pair_lossless vec_lossless option_lossless object_lossless bytes_lossless

@[simp] lemma size_bytes (data : List UInt8) : bytes.size data = 4 + data.length := by
  have each : ∀ data : List UInt8, u8.sizeItems data = data.length := by
    intro data
    induction data with
    | nil => rfl
    | cons byte data ih =>
      rw [sizeItems, map_cons, sum_cons, length_cons, Nat.add_comm]
      exact congrArg (· + 1) ih
  exact congrArg (4 + ·) (each data)

@[simp] lemma demand_bytes (data : List UInt8) :
    bytes.demand data =
      { Demand.none with allocation := data.length, longestVec := data.length } := by
  have each : ∀ data : List UInt8, u8.demandItems data = .none := by
    intro data
    induction data with
    | nil => rfl
    | cons byte data ih =>
      rw [demandItems, ih]
      rfl
  simp [bytes, vec, each]

@[simp] lemma accepts_bytes {data} : bytes.Accepts data ↔ data.length < 2 ^ 31 := by
  simp [bytes]

end Format

end Catga.Codec
