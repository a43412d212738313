import Catga.Codec.MemoryPack

/-!
# MemoryPack envelopes

The transport envelope, its validated headers, and the wire record through which `MemoryPackCodec`
encodes and decodes it.  Headers can only be built through their validation, and an envelope never
keeps an empty header set, so both carry these facts.
-/

namespace Catga.Codec

def maxEnvelopeHeaders : Nat := 64

/-- Maximum combined length of header keys and values in bytes. -/
def maxEnvelopeHeaderBytes : Nat := 8 * 1024

/-- The characters with the Unicode property `White_Space`. -/
def isWhitespace (char : Char) : Bool :=
  let code := char.toNat
  (0x9 ≤ code && code ≤ 0xD) || code = 0x20 || code = 0x85 || code = 0xA0 || code = 0x1680 ||
    (0x2000 ≤ code && code ≤ 0x200A) || code = 0x2028 || code = 0x2029 || code = 0x202F ||
    code = 0x205F || code = 0x3000

/-- The loop of `EnvelopeHeaders::try_new`, after the keys `seen` with `totalBytes` bytes. -/
def checkHeaders (seen : List String) (totalBytes : Nat) :
    List (String × String) → CatgaResult Unit
  | [] => .ok ()
  | (key, value) :: headers =>
    let total := totalBytes + ((utf8Bytes key).length + (utf8Bytes value).length)
    if seen.length = maxEnvelopeHeaders then
      .error { code := .validation
               message := "envelope header count exceeds the configured limit" }
    else if key.toList.all isWhitespace then
      .error { code := .validation
               message := "envelope header key must not be empty or whitespace-only" }
    else if key ∈ seen then
      .error { code := .validation, message := "envelope header keys must be unique" }
    else if maxEnvelopeHeaderBytes < total then
      .error { code := .validation
               message := "envelope header bytes exceed the configured limit" }
    else checkHeaders (seen ++ [key]) total headers

structure EnvelopeHeaders where
  entries : List (String × String)
  valid : checkHeaders [] 0 entries = .ok ()

def EnvelopeHeaders.tryNew (entries : List (String × String)) : CatgaResult EnvelopeHeaders :=
  match valid : checkHeaders [] 0 entries with
  | .ok () => .ok { entries, valid }
  | .error error => .error error

inductive QualityOfService where
  | atMostOnce
  | atLeastOnce
  | exactlyOnce

inductive DeliveryMode where
  | waitForResult
  | asyncRetry

inductive MessagePriority where
  | low
  | normal
  | high
  | critical

structure MessageMetadata where
  messageId : UInt64
  correlationId : Option UInt64
  qualityOfService : QualityOfService
  deliveryMode : DeliveryMode
  priority : MessagePriority
  notBeforeUnixMs : Option UInt64

structure Envelope where
  id : UInt64
  messageType : String
  payload : List UInt8
  metadata : MessageMetadata
  sentAtUnixMs : Option UInt64
  schemaVersion : UInt32
  replyTo : Option String
  headers : Option EnvelopeHeaders
  headers_nonempty : ∀ attached, headers = some attached → attached.entries ≠ []

open Envelope

def Envelope.entries (envelope : Envelope) : List (String × String) :=
  match envelope.headers with
  | none => []
  | some headers => headers.entries

/-- The derived structs of the envelope's wire form. -/
inductive WireType where
  | header
  | envelope

/-- Serialized fields of `HeaderWire` and `EnvelopeWire`. -/
def WireType.fields : WireType → List (Schema WireType)
  | .header => [.string, .string]
  | .envelope =>
    [.fixed 8, .string, .vec (.fixed 1), .fixed 8, .option (.fixed 8),
      .tag "quality of service" 3, .tag "delivery mode" 2, .tag "message priority" 4,
      .option (.fixed 8), .fixed 4, .option .string, .vec (.object .header), .option (.fixed 8)]

/-- The default values that the options of the wire record write for `None`. -/
def WireType.default : Schema WireType → Value
  | .string => .string ""
  | _ => .fixed 0

variable (sizeOf : Schema WireType → Nat)

def QualityOfService.variant : QualityOfService → Nat
  | .atMostOnce => 0
  | .atLeastOnce => 1
  | .exactlyOnce => 2

def DeliveryMode.variant : DeliveryMode → Nat
  | .waitForResult => 0
  | .asyncRetry => 1

def MessagePriority.variant : MessagePriority → Nat
  | .low => 0
  | .normal => 1
  | .high => 2
  | .critical => 3

def QualityOfService.ofVariant : Nat → Option QualityOfService
  | 0 => some .atMostOnce
  | 1 => some .atLeastOnce
  | 2 => some .exactlyOnce
  | _ => none

def DeliveryMode.ofVariant : Nat → Option DeliveryMode
  | 0 => some .waitForResult
  | 1 => some .asyncRetry
  | _ => none

def MessagePriority.ofVariant : Nat → Option MessagePriority
  | 0 => some .low
  | 1 => some .normal
  | 2 => some .high
  | 3 => some .critical
  | _ => none

def optional {α : Type} (wire : α → Value) : Option α → Value
  | none => .none
  | some value => .some (wire value)

def Envelope.wire (envelope : Envelope) : Value :=
  .object
    [.fixed envelope.id.toNat,
      .string envelope.messageType,
      .vec (envelope.payload.map fun byte => .fixed byte.toNat),
      .fixed envelope.metadata.messageId.toNat,
      optional (fun id : UInt64 => .fixed id.toNat) envelope.metadata.correlationId,
      .tag envelope.metadata.qualityOfService.variant,
      .tag envelope.metadata.deliveryMode.variant,
      .tag envelope.metadata.priority.variant,
      optional (fun time : UInt64 => .fixed time.toNat) envelope.metadata.notBeforeUnixMs,
      .fixed envelope.schemaVersion.toNat,
      optional Value.string envelope.replyTo,
      .vec (envelope.entries.map fun header => .object [.string header.1, .string header.2]),
      optional (fun time : UInt64 => .fixed time.toNat) envelope.sentAtUnixMs]

def unwireAll {α : Type} (unwire : Value → Option α) : List Value → Option (List α)
  | [] => some []
  | value :: values => do
      let head ← unwire value
      let tail ← unwireAll unwire values
      pure (head :: tail)

def unwireOptional {α : Type} (unwire : Value → Option α) : Value → Option (Option α)
  | .none => some none
  | .some value => do
      let item ← unwire value
      pure (some item)
  | _ => none

def unwireU8 : Value → Option UInt8
  | .fixed bits => some (UInt8.ofNat bits)
  | _ => none

def unwireU64 : Value → Option UInt64
  | .fixed bits => some (UInt64.ofNat bits)
  | _ => none

def unwireString : Value → Option String
  | .string text => some text
  | _ => none

def unwireHeader : Value → Option (String × String)
  | .object [.string key, .string value] => some (key, value)
  | _ => none

def attach (headers : EnvelopeHeaders) : Option EnvelopeHeaders :=
  if headers.entries = [] then none else some headers

lemma attach_nonempty (headers attached : EnvelopeHeaders) (kept : attach headers = some attached) :
    attached.entries ≠ [] := by
  simp only [attach] at kept
  split at kept <;> cases kept
  rename_i nonempty
  exact nonempty

/-- `Envelope::try_from`; `none` for a value that is not an `EnvelopeWire`. -/
def Envelope.tryFrom : Value → Option (CatgaResult Envelope)
  | .object [.fixed id, .string messageType, .vec payload, .fixed messageId, correlationId,
      .tag quality, .tag mode, .tag priority, notBefore, .fixed schemaVersion, replyTo,
      .vec headers, sentAt] => do
      let payload ← unwireAll unwireU8 payload
      let correlationId ← unwireOptional unwireU64 correlationId
      let qualityOfService ← QualityOfService.ofVariant quality
      let deliveryMode ← DeliveryMode.ofVariant mode
      let priority ← MessagePriority.ofVariant priority
      let notBeforeUnixMs ← unwireOptional unwireU64 notBefore
      let replyTo ← unwireOptional unwireString replyTo
      let headers ← unwireAll unwireHeader headers
      let sentAtUnixMs ← unwireOptional unwireU64 sentAt
      some ((EnvelopeHeaders.tryNew headers).map fun headers =>
        { id := UInt64.ofNat id, messageType, payload
          metadata :=
            { messageId := UInt64.ofNat messageId, correlationId, qualityOfService, deliveryMode,
              priority, notBeforeUnixMs }
          sentAtUnixMs, schemaVersion := UInt32.ofNat schemaVersion, replyTo
          headers := attach headers, headers_nonempty := attach_nonempty headers })
  | _ => none

variable {α : Type} {wire : α → Value} {unwire : Value → Option α}

end Catga.Codec
