import Catga.Error
import Catga.Foundation.LittleEndian
import Catga.Foundation.Metered

/-!
# The MemoryPack codec

The writer and the bounded reader of MemoryPack frames, and `MemoryPackCodec` on top of them.  A
derived struct may mention itself, so structs are named and a set of derived types gives each name
its fields.  The writer checks the length of its frame only; the reader also bounds strings,
vectors, the nesting of structs and what is allocated.
-/

namespace Catga.Codec

open Metered LittleEndian

def usizeMax : Nat := 2 ^ 64 - 1

inductive MemoryPackError where
  | limitExceeded (resource : String) (limit : Nat)
  | invalidLimit (message : String)
  | trailingBytes
  | io
  | invalidUtf8
  | invalidLength (length : Int)
  | serializationError (message : String)
  | deserializationError (message : String)
  | invalidCodePoint
  | unexpectedEndOfBuffer
deriving DecidableEq

def MemoryPackError.message : MemoryPackError → String
  | .limitExceeded resource limit =>
    s!"MemoryPack receive limit exceeded for {resource}: maximum is {limit}"
  | .invalidLimit message => s!"invalid MemoryPack decode limit: {message}"
  | .trailingBytes => "trailing bytes remain after decoding a MemoryPack frame"
  | .io => "failed to fill whole buffer"
  | .invalidUtf8 => "Invalid UTF-8 or UTF-16 string data"
  | .invalidLength length => s!"Invalid length: {length}"
  | .serializationError message => s!"Serialization error: {message}"
  | .deserializationError message => s!"Deserialization error: {message}"
  | .invalidCodePoint => "Invalid Unicode code point"
  | .unexpectedEndOfBuffer => "Unexpected end of buffer"

/-- Resource budgets for one received frame. -/
structure MemoryPackDecodeLimits where
  maxFrameBytes : UInt64
  maxAllocationBytes : UInt64
  maxStringBytes : UInt64
  maxCollectionItems : UInt64
  maxNestingDepth : UInt64
  nonzero : 0 ∉ [maxFrameBytes, maxAllocationBytes, maxStringBytes, maxCollectionItems,
    maxNestingDepth]
  string_le : maxStringBytes ≤ maxAllocationBytes
deriving DecidableEq

def MemoryPackDecodeLimits.new (maxFrameBytes maxAllocationBytes maxStringBytes maxCollectionItems
    maxNestingDepth : UInt64) : Except MemoryPackError MemoryPackDecodeLimits :=
  if zero : 0 ∈ [maxFrameBytes, maxAllocationBytes, maxStringBytes, maxCollectionItems,
      maxNestingDepth] then
    .error (.invalidLimit "MemoryPack decode limits must be non-zero")
  else if string_le : maxStringBytes ≤ maxAllocationBytes then
    .ok { maxFrameBytes, maxAllocationBytes, maxStringBytes, maxCollectionItems, maxNestingDepth,
          nonzero := zero, string_le }
  else .error (.invalidLimit "MemoryPack string limit exceeds the allocation limit")

def MemoryPackDecodeLimits.default : MemoryPackDecodeLimits where
  maxFrameBytes := 1024 * 1024
  maxAllocationBytes := 1024 * 1024
  maxStringBytes := 256 * 1024
  maxCollectionItems := 65536
  maxNestingDepth := 32
  nonzero := by decide
  string_le := by decide

def writeI32 (value : Int) : List UInt8 := encode 4 (ofSigned value)

def checkedI32Length (length : Nat) : Except MemoryPackError Int :=
  if length < 2 ^ 31 then .ok length
  else .error (.serializationError "MemoryPack wire length exceeds i32::MAX")

def utf8Bytes (text : String) : List UInt8 := text.toUTF8.data.toList

def utf16Length (text : String) : Nat :=
  (text.toList.map fun char => if char.toNat ≤ 0xFFFF then 1 else 2).sum

/-- `write_string`: the bitwise complement of the byte length marks UTF-8. -/
def writeString (text : String) : Except MemoryPackError (List UInt8) :=
  if utf8Bytes text = [] then .ok (writeI32 0)
  else do
    let byteLength ← checkedI32Length (utf8Bytes text).length
    let utf16Length ← checkedI32Length (utf16Length text)
    pure (writeI32 (-byteLength - 1) ++ writeI32 utf16Length ++ utf8Bytes text)

/-- `write_char`: one or two UTF-16 code units. -/
def writeChar (char : Char) : List UInt8 :=
  if char.toNat ≤ 0xFFFF then encode 2 char.toNat
  else
    let adjusted := char.toNat - 0x10000
    encode 2 ((adjusted >>> 10) + 0xD800) ++
      encode 2 ((adjusted % 2 ^ 16 &&& 0x3FF) + 0xDC00)

/-- A reader step over the bytes of a frame; the budget counts `allocated_bytes`. -/
abbrev Reader (α : Type) := Parser UInt8 MemoryPackError α

def readBytes (length : Nat) : Reader (List UInt8) := take .unexpectedEndOfBuffer length

/-- The little-endian reads of the cursor, as bit patterns. -/
def readUnsigned (width : Nat) : Reader Nat := do
  let bytes ← take .io width
  pure (decode bytes)

def readI32 : Reader Int := do
  let value ← readUnsigned 4
  pure (toSigned value)

def charFromU32 (code : Nat) : Option Char :=
  if code.isValidChar then some (Char.ofNat code) else none

def readBool : Reader Bool := do
  match ← readUnsigned 1 with
  | 0 => pure false
  | 1 => pure true
  | _ => fail (.deserializationError "invalid boolean wire value")

/-- `read_char`: one code unit, or a surrogate pair. -/
def readChar : Reader Char := do
  let codeUnit ← readUnsigned 2
  if ¬(0xD800 ≤ codeUnit ∧ codeUnit ≤ 0xDFFF) then
    match charFromU32 codeUnit with
    | some char => pure char
    | none => fail .invalidCodePoint
  else if ¬(0xD800 ≤ codeUnit ∧ codeUnit ≤ 0xDBFF) then
    fail (.deserializationError "UTF-16 low surrogate must follow a high surrogate")
  else do
    let low ← readUnsigned 2
    if ¬(0xDC00 ≤ low ∧ low ≤ 0xDFFF) then
      fail (.deserializationError "UTF-16 high surrogate is not followed by a low surrogate")
    else
      match charFromU32 (0x10000 + ((codeUnit - 0xD800) <<< 10 ||| (low - 0xDC00))) with
      | some char => pure char
      | none => fail .invalidCodePoint

/-- Little-endian code units of an even number of bytes. -/
def codeUnits : List UInt8 → List Nat
  | low :: high :: bytes => (low.toNat + 256 * high.toNat) :: codeUnits bytes
  | _ => []

/-- The loop of `read_utf16_string` over the code units. -/
def decodeUtf16 : List Nat → Option (List Char)
  | [] => some []
  | unit :: units =>
    if ¬(0xD800 ≤ unit ∧ unit ≤ 0xDFFF) then do
      let char ← charFromU32 unit
      let chars ← decodeUtf16 units
      pure (char :: chars)
    else if unit ≤ 0xDBFF then
      match units with
      | [] => none
      | low :: units =>
        if 0xDC00 ≤ low ∧ low ≤ 0xDFFF then do
          let char ← charFromU32 (0x10000 + ((unit - 0xD800) <<< 10) + (low - 0xDC00))
          let chars ← decodeUtf16 units
          pure (char :: chars)
        else none
    else none

section

variable (limits : MemoryPackDecodeLimits)

def validateCollectionLen (size : Int) : Reader (Option Nat) :=
  if size = -1 ∨ size = 0 then pure none
  else if size < 0 then fail (.invalidLength size)
  else do
    require (size.toNat ≤ limits.maxCollectionItems.toNat)
      (.limitExceeded "collection items" limits.maxCollectionItems.toNat)
    pure (some size.toNat)

def reserveAllocation (bytes : Nat) : Reader Unit :=
  charge limits.maxAllocationBytes.toNat
    (.limitExceeded "cumulative allocation bytes" limits.maxAllocationBytes.toNat) bytes

/-- `reserve_collection` for elements of the given size in memory. -/
def reserveCollection (size capacity : Nat) : Reader Unit := do
  require (capacity * size ≤ usizeMax) (.limitExceeded "cumulative allocation bytes" usizeMax)
  reserveAllocation limits (capacity * size)

def validateStringBytes (bytes : Nat) : Reader Unit := do
  require (bytes ≤ limits.maxStringBytes.toNat)
    (.limitExceeded "string bytes" limits.maxStringBytes.toNat)
  reserveAllocation limits bytes

def readUtf8String (byteCount : Nat) : Reader String := do
  validateStringBytes limits byteCount
  let _charLength ← readI32
  let bytes ← readBytes byteCount
  match String.fromUTF8? ⟨bytes.toArray⟩ with
  | some text => pure text
  | none => fail .invalidUtf8

def readUtf16String (charCount : Nat) : Reader String := do
  require (charCount * 2 ≤ usizeMax)
    (.limitExceeded "string bytes" limits.maxStringBytes.toNat)
  validateStringBytes limits (charCount * 2)
  require (charCount * 3 ≤ usizeMax)
    (.limitExceeded "cumulative allocation bytes" limits.maxAllocationBytes.toNat)
  reserveAllocation limits (charCount * 3)
  let bytes ← readBytes (charCount * 2)
  match decodeUtf16 (codeUnits bytes) with
  | some chars => pure (String.ofList chars)
  | none => fail .invalidUtf8

def readString : Reader String := do
  let lengthOrMarker ← readI32
  if lengthOrMarker = -1 then pure ""
  else if lengthOrMarker < 0 then readUtf8String limits (-lengthOrMarker - 1).toNat
  else if lengthOrMarker = 0 then pure ""
  else readUtf16String limits lengthOrMarker.toNat

end

/-- A serializable type; `σ` names the derived structs. -/
inductive Schema (σ : Type) where
  | unit
  | bool
  /-- An integer or a float of the given number of bytes, as its bit pattern. -/
  | fixed (width : Nat)
  | char
  /-- A field-less enumeration of `count` variants written as one byte. -/
  | tag (name : String) (count : Nat)
  | string
  | option (item : Schema σ)
  | vec (item : Schema σ)
  | object (name : σ)

/-- A decoded value. -/
inductive Value where
  | unit
  | bool (value : Bool)
  | fixed (bits : Nat)
  | char (value : Char)
  | tag (variant : Nat)
  | string (text : String)
  | none
  | some (value : Value)
  | vec (items : List Value)
  | object (fields : List Value)

/-- The derived structs of a program and what the codec asks about its types. -/
structure Types (σ : Type) where
  fields : σ → List (Schema σ)
  fields_le : ∀ name, (fields name).length ≤ 255
  sizeOf : Schema σ → Nat
  default : Schema σ → Value

variable {σ : Type}

/-- The outcome of a serialization; `none` where the call does not return, or where the value is
not one of the type. -/
abbrev Serialized := ExceptT MemoryPackError Option (List UInt8)

/-- Serialize a list of values one after the other, each with its own type. -/
def serializeAll (serialize : Schema σ → Value → Serialized) :
    List (Schema σ) → List Value → Serialized
  | [], [] => pure []
  | schema :: schemas, value :: values => do
      let bytes ← serialize schema value
      let rest ← serializeAll serialize schemas values
      pure (bytes ++ rest)
  | _, _ => .mk .none

/-- `serialize` of a type, given that of the derived structs.  `None` writes the default value of
the item after its flag. -/
def serializeWith (types : Types σ) (object : σ → List Value → Serialized) :
    Schema σ → Value → Serialized
  | .unit, .unit => pure []
  | .bool, .bool value => pure [if value then 1 else 0]
  | .fixed width, .fixed bits =>
    if bits < 256 ^ width then pure (encode width bits) else .mk .none
  | .char, .char value => pure (writeChar value)
  | .tag _ count, .tag variant =>
    if variant < count ∧ variant < 256 then pure [UInt8.ofNat variant] else .mk .none
  | .string, .string text => liftExcept (writeString text)
  | .option item, .some value => do
      let bytes ← serializeWith types object item value
      pure (writeI32 1 ++ bytes)
  | .option item, .none => do
      let bytes ← serializeWith types object item (types.default item)
      pure (writeI32 0 ++ bytes)
  | .vec item, .vec items => do
      let length ← liftExcept (checkedI32Length items.length)
      let bytes ← serializeAll (fun _ => serializeWith types object item)
        (List.replicate items.length item) items
      pure (writeI32 length ++ bytes)
  | .object name, .object fields => object name fields
  | _, _ => .mk .none
where
  liftExcept {α : Type} (result : Except MemoryPackError α) : ExceptT MemoryPackError Option α :=
    .mk (.some result)

/-- The derived `serialize`, at most `fuel` structs deep. -/
def serializeObject (types : Types σ) : Nat → σ → List Value → Serialized
  | 0, _, _ => .mk .none
  | fuel + 1, name, fields => do
      let bytes ← serializeAll (serializeWith types (serializeObject types fuel))
        (types.fields name) fields
      pure (UInt8.ofNat (types.fields name).length :: bytes)

def serialize (types : Types σ) (fuel : Nat) (schema : Schema σ) (value : Value) : Serialized :=
  serializeWith types (serializeObject types fuel) schema value

section

variable (types : Types σ) (limits : MemoryPackDecodeLimits)

/-- `deserialize` of a type, given that of the derived structs. -/
def deserializeWith (object : σ → Reader (List Value)) : Schema σ → Reader Value
  | .unit => pure .unit
  | .bool => do
      let value ← readBool
      pure (.bool value)
  | .fixed width => do
      let bits ← readUnsigned width
      pure (.fixed bits)
  | .char => do
      let value ← readChar
      pure (.char value)
  | .tag name count => do
      let variant ← readUnsigned 1
      require (variant < count) (.deserializationError s!"invalid {name}: {variant}")
      pure (.tag variant)
  | .string => do
      let text ← readString limits
      pure (.string text)
  | .option item => do
      let hasValue ← readI32
      if hasValue = 0 then do
        let _default ← deserializeWith object item
        pure .none
      else if hasValue = 1 then do
        let value ← deserializeWith object item
        pure (.some value)
      else fail (.deserializationError "invalid generic Option presence flag")
  | .vec item => do
      let size ← readI32
      match ← validateCollectionLen limits size with
      | .none => pure (.vec [])
      | .some capacity => do
          reserveCollection limits (types.sizeOf item) capacity
          let items ← all (List.replicate capacity (deserializeWith object item))
          pure (.vec items)
  | .object name => do
      let fields ← object name
      pure (.object fields)

/-- The derived `deserialize` with `remaining` levels of nesting left. -/
def deserializeObject : Nat → σ → Reader (List Value)
  | 0, _ => fail (.limitExceeded "nesting depth" limits.maxNestingDepth.toNat)
  | remaining + 1, name => do
      let expected := (types.fields name).length
      let received ← readUnsigned 1
      require (received = expected) (.deserializationError
        s!"MemoryPack object field count mismatch: expected {expected}, received {received}")
      all ((types.fields name).map (deserializeWith types limits (deserializeObject remaining)))

def deserializeBounded (schema : Schema σ) (bytes : List UInt8) :
    Except MemoryPackError Value :=
  if limits.maxFrameBytes.toNat < bytes.length then
    .error (.limitExceeded "frame bytes" limits.maxFrameBytes.toNat)
  else do
    let (value, input) ← deserializeWith types limits
      (deserializeObject types limits limits.maxNestingDepth.toNat) schema
      { rest := bytes, used := 0 }
    if input.rest = [] then pure value else .error .trailingBytes

end

variable (types : Types σ) (limits : MemoryPackDecodeLimits)

end Catga.Codec
