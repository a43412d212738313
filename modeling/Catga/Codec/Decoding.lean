import Catga.Codec.ReadBack
import Catga.Foundation.Stateful

/-!
# What a bounded decode uses

Only some decoders charge the reader's budget or enter its nesting limit.  Here a decode keeps
accounts: of the bytes of elements and strings it has placed on the heap, and of the calls of
derived `deserialize` functions in progress.  Values are not kept, so an element of a set counts
even if it was there already.
-/

namespace Catga.Codec.Decoding

open Metered Stateful List

/-- A type that is decoded; `ι` names the derived types.  A map is a charged sequence of pairs, and
`Rc` and `Arc` decode as `Box` does. -/
inductive Shape (ι : Type) where
  /-- A primitive: what is left of the bytes behind it. -/
  | leaf (consume : List UInt8 → Except MemoryPackError (List UInt8))
  | string
  | option (item : Shape ι)
  | boxed (item : Shape ι)
  /-- `Vec`, `VecDeque` and `HashSet` charge their capacity, `LinkedList` and `BTreeSet` do not. -/
  | sequence (charged : Bool) (item : Shape ι)
  | array (length : Nat) (item : Shape ι)
  | pair (first second : Shape ι)
  | derived (name : ι)

/-- What the derive macro generates `deserialize` from. -/
inductive Declaration (ι : Type) where
  /-- A unit struct, a transparent struct or an enumeration without payloads. -/
  | plain (consume : List UInt8 → Except MemoryPackError (List UInt8))
  | object (fields : List (Shape ι))
  | union (name : String) (variants : List (UInt8 × Shape ι))

/-- The derived types of a program, and the sizes of types in memory. -/
structure Program (ι : Type) where
  declaration : ι → Declaration ι
  sizeOf : Shape ι → Nat

/-- The reader and the accounts of one decode. -/
structure Accounts where
  input : Input UInt8
  nestingDepth : Nat
  /-- Bytes of elements and strings placed on the heap so far. -/
  heap : Nat
  active : Nat
  deepest : Nat

def Accounts.fresh (frame : List UInt8) : Accounts :=
  { input := { rest := frame, used := 0 }, nestingDepth := 0, heap := 0, active := 0, deepest := 0 }

def Accounts.called (accounts : Accounts) : Accounts :=
  { accounts with
    active := accounts.active + 1, deepest := max accounts.deepest (accounts.active + 1) }

def Accounts.returned (accounts : Accounts) : Accounts :=
  { accounts with active := accounts.active - 1 }

abbrev Decoder := EStateM MemoryPackError Accounts

def reading {α : Type} (reader : Reader α) : Decoder α := fun accounts =>
  match reader accounts.input with
  | .ok (value, input) => .ok value { accounts with input }
  | .error error => .error error accounts

def consuming (consume : List UInt8 → Except MemoryPackError (List UInt8)) : Decoder Unit :=
  reading fun input => (consume input.rest).map fun rest => ((), { input with rest })

def placing (bytes : Nat) : Decoder Unit :=
  modify fun accounts => { accounts with heap := accounts.heap + bytes }

variable {ι : Type}

section

variable (program : Program ι) (limits : MemoryPackDecodeLimits)

/-- `read_string`; the buffer of a UTF-16 string counts with its capacity. -/
def decodeString : Decoder Unit := do
  let lengthOrMarker ← reading readI32
  if lengthOrMarker = -1 ∨ lengthOrMarker = 0 then pure ()
  else if lengthOrMarker < 0 then do
    let byteCount := (-lengthOrMarker - 1).toNat
    reading (validateStringBytes limits byteCount)
    let _charLength ← reading readI32
    let bytes ← reading (readBytes byteCount)
    if (String.fromUTF8? ⟨bytes.toArray⟩).isSome then placing byteCount else throw .invalidUtf8
  else do
    let charCount := lengthOrMarker.toNat
    reading (require (charCount * 2 ≤ usizeMax)
      (.limitExceeded "string bytes" limits.maxStringBytes.toNat))
    reading (validateStringBytes limits (charCount * 2))
    reading (require (charCount * 3 ≤ usizeMax)
      (.limitExceeded "cumulative allocation bytes" limits.maxAllocationBytes.toNat))
    reading (reserveAllocation limits (charCount * 3))
    let bytes ← reading (readBytes (charCount * 2))
    placing (charCount * 3)
    if (decodeUtf16 (codeUnits bytes)).isSome then pure () else throw .invalidUtf8

/-- `deserialize` of a type, given that of the derived types. -/
def decodeWith (call : ι → Decoder Unit) : Shape ι → Decoder Unit
  | .leaf consume => consuming consume
  | .string => decodeString limits
  | .option item => do
      let hasValue ← reading readI32
      -- `None` is followed by the default value of the item.
      if hasValue = 0 ∨ hasValue = 1 then decodeWith call item
      else throw (.deserializationError "invalid generic Option presence flag")
  | .boxed item => do
      decodeWith call item
      placing (program.sizeOf item)
  | .sequence charged item => do
      let size ← reading readI32
      match ← reading (validateCollectionLen limits size) with
      | none => pure ()
      | some capacity => do
          if charged then reading (reserveCollection limits (program.sizeOf item) capacity)
          times (do decodeWith call item; placing (program.sizeOf item)) capacity
  | .array length item => do
      let size ← reading readI32
      let received ← reading (validateCollectionLen limits size)
      if received = some length then do
        reading (reserveCollection limits (program.sizeOf item) length)
        times (do decodeWith call item; placing (program.sizeOf item)) length
      else
        throw (.deserializationError "fixed array wire length does not match the target length")
  | .pair first second => do
      decodeWith call first
      decodeWith call second
  | .derived name => call name

def enterObject : Decoder Unit := fun accounts =>
  if accounts.nestingDepth + 1 ≤ limits.maxNestingDepth.toNat then
    .ok () { accounts with nestingDepth := accounts.nestingDepth + 1 }
  else .error (.limitExceeded "nesting depth" limits.maxNestingDepth.toNat) accounts

/-- The body of a derived `deserialize`. -/
def decodeDeclaration (decode : Shape ι → Decoder Unit) : Declaration ι → Decoder Unit
  | .plain consume => consuming consume
  | .object fields => do
      enterObject limits
      -- `leave_object` follows whether or not the fields are decoded.
      around id (fun accounts => { accounts with nestingDepth := accounts.nestingDepth - 1 }) do
        let expected := fields.length
        let received ← reading (readUnsigned 1)
        if received ≠ expected then
          throw (.deserializationError
            s!"MemoryPack object field count mismatch: expected {expected}, received {received}")
        fields.forM decode
  | .union name variants => do
      let tag ← reading (readUnsigned 1)
      match variants.find? fun variant => variant.1.toNat = tag with
      | some (_, payload) => decode payload
      | none => throw (.deserializationError s!"Unknown union tag {tag} for {name}")

/-- The derived `deserialize`, at most `fuel` calls deep. -/
def decodeDerived : Nat → ι → Decoder Unit
  | 0, _ => throw .unexpectedEndOfBuffer
  | fuel + 1, name =>
    around .called .returned
      (decodeDeclaration limits (decodeWith program limits (decodeDerived fuel))
        (program.declaration name))

def decodeBounded (fuel : Nat) (shape : Shape ι) (frame : List UInt8) :
    EStateM.Result MemoryPackError Accounts Unit :=
  if limits.maxFrameBytes.toNat < frame.length then
    .error (.limitExceeded "frame bytes" limits.maxFrameBytes.toNat) (.fresh frame)
  else match decodeWith program limits (decodeDerived program limits fuel) shape (.fresh frame) with
    | .ok _ accounts =>
      if accounts.input.rest = [] then .ok () accounts else .error .trailingBytes accounts
    | .error error accounts => .error error accounts

end

def accountsOf {α : Type} : EStateM.Result MemoryPackError Accounts α → Accounts
  | .ok _ accounts | .error _ accounts => accounts

section

variable {α β : Type} {limits : MemoryPackDecodeLimits}

/-- A step of the reader charges exactly `cost` and stays within the budget. -/
def Costs (limits : MemoryPackDecodeLimits) (reader : Reader α) (cost : Nat) : Prop :=
  ∀ input value next, input.used ≤ limits.maxAllocationBytes.toNat →
    reader input = .ok (value, next) →
    next.used = input.used + cost ∧ next.used ≤ limits.maxAllocationBytes.toNat

lemma Costs.pure (value : α) : Costs limits (Pure.pure value : Reader α) 0 := by
  intro input value next within read
  cases read
  exact ⟨rfl, within⟩

lemma Costs.fail (error) (cost : Nat) :
    Costs limits (fail error : Reader α) cost := fun _ _ _ _ read => by cases read

lemma Costs.bind {reader} {next : α → Reader β} {cost}
    (reads : Costs limits reader 0) (then_reads : ∀ value, Costs limits (next value) cost) :
    Costs limits (reader >>= next) cost := by
  intro input value last within read
  obtain ⟨⟨middle, rest⟩, begun, ended⟩ := bind_eq_ok.mp read
  obtain ⟨used, within⟩ := reads input middle rest within begun
  obtain ⟨last_used, within⟩ := then_reads middle rest value last within ended
  exact ⟨by rw [last_used, used, Nat.add_zero], within⟩

lemma Costs.require (condition : Prop) [Decidable condition] (error) :
    Costs limits (Metered.require condition error : Reader Unit) 0 := by
  unfold Metered.require
  split
  · exact .pure ()
  · exact .fail error 0

lemma Costs.take (error) (count : Nat) :
    Costs limits (Metered.take error count) 0 := by
  intro input value next within read
  simp only [Metered.take] at read
  split at read <;> cases read
  exact ⟨rfl, within⟩

lemma Costs.readUnsigned (width : Nat) : Costs limits (Codec.readUnsigned width) 0 :=
  (take _ width).bind fun _ => .pure _

lemma Costs.readI32 : Costs limits Codec.readI32 0 := (readUnsigned 4).bind fun _ => .pure _

lemma Costs.reserveAllocation (bytes : Nat) :
    Costs limits (Codec.reserveAllocation limits bytes) bytes := by
  intro input value next _ read
  simp only [Codec.reserveAllocation, charge] at read
  split at read <;> cases read
  exact ⟨rfl, ‹_›⟩

lemma Costs.reserveCollection (size capacity : Nat) :
    Costs limits (Codec.reserveCollection limits size capacity) (size * capacity) :=
  Nat.mul_comm capacity size ▸ (require _ _).bind fun _ => .reserveAllocation _

lemma Costs.validateStringBytes (bytes : Nat) :
    Costs limits (Codec.validateStringBytes limits bytes) bytes :=
  (require _ _).bind fun _ => .reserveAllocation _

lemma Costs.validateCollectionLen (size : Int) :
    Costs limits (Codec.validateCollectionLen limits size) 0 := by
  unfold Codec.validateCollectionLen
  split
  · exact .pure _
  split
  · exact .fail _ _
  · exact (require _ _).bind fun _ => .pure _

lemma Costs.consume (consume : List UInt8 → Except MemoryPackError (List UInt8)) :
    Costs limits (fun input => (consume input.rest).map fun rest =>
      ((), { input with rest })) 0 := by
  intro input value next within read
  cases left : consume input.rest with
  | error => simp [left, Except.map] at read
  | ok =>
    simp only [left, Except.map] at read
    cases read
    exact ⟨rfl, within⟩

end

/-- What a decode may say about its accounts: `left k` with `k` bytes charged and not placed yet.
Bytes for which `free` holds may be placed without a charge. -/
structure Accounting (limits : MemoryPackDecodeLimits) (free : Nat → Prop)
    (left : Nat → Accounts → Prop) : Prop where
  drops : ∀ charged bytes accounts, left (charged + bytes) accounts → left charged accounts
  reads : ∀ {α : Type} {reader : Reader α} {cost : Nat}, Costs limits reader cost →
    ∀ charged, Triple (left charged) (reading reader) (left (charged + cost)) (left 0)
  places : ∀ bytes charged,
    Triple (left (charged + bytes)) (placing bytes) (left charged) (left 0)
  gives : ∀ {bytes}, free bytes → ∀ charged,
    Triple (left charged) (placing bytes) (left charged) (left 0)

/-- The decoder leaves charged and not placed what was, unless it fails. -/
def Keeps (left : Nat → Accounts → Prop) (decoder : Decoder Unit) : Prop :=
  ∀ charged, Triple (left charged) decoder (left charged) (left 0)

/-- Every element of the type is charged, or free. -/
def Shape.Covered (program : Program ι) (free : Nat → Prop) : Shape ι → Prop
  | .leaf _ | .string | .derived _ => True
  | .option item | .array _ item => item.Covered program free
  | .boxed item => free (program.sizeOf item) ∧ item.Covered program free
  | .sequence charged item =>
    (charged = true ∨ free (program.sizeOf item)) ∧ item.Covered program free
  | .pair first second => first.Covered program free ∧ second.Covered program free

def Shape.names : Shape ι → List ι
  | .leaf _ | .string => []
  | .option item | .boxed item | .sequence _ item | .array _ item => item.names
  | .pair first second => first.names ++ second.names
  | .derived name => [name]

/-- The types that the body of a derived `deserialize` decodes. -/
def Declaration.shapes : Declaration ι → List (Shape ι)
  | .plain _ => []
  | .object fields => fields
  | .union _ variants => variants.map Prod.snd

/-- The declarations whose `deserialize` enters the nesting limit. -/
def Declaration.counted : Declaration ι → Bool
  | .object _ => true
  | .plain _ | .union _ _ => false

section

variable {program : Program ι} {limits : MemoryPackDecodeLimits} {free : Nat → Prop}
  {left : Nat → Accounts → Prop} {before after failed : Accounts → Prop}
  {shape : Shape ι}

section

variable (accounting : Accounting limits free left)
include accounting

lemma Accounting.fails (charged : Nat) : ∀ accounts, left charged accounts → left 0 accounts :=
  fun accounts holds =>
  accounting.drops 0 charged accounts ((Nat.zero_add charged).symm ▸ holds)

lemma Accounting.string : Keeps left (decodeString limits) := by
  intro charged
  refine (accounting.reads .readI32 charged).bind fun marker => ?_
  split
  · exact .pure _
  split
  · refine (accounting.reads (.validateStringBytes _) charged).bind fun _ => ?_
    refine (accounting.reads .readI32 _).bind fun _ => ?_
    refine (accounting.reads (.take _ _) _).bind fun bytes => ?_
    split
    · exact accounting.places _ charged
    · exact .throw _ (accounting.fails _)
  · refine (accounting.reads (.require _ _) charged).bind fun _ => ?_
    refine (accounting.reads (.validateStringBytes _) charged).bind fun _ => ?_
    refine (accounting.reads (.require _ _) _).bind fun _ => ?_
    refine (accounting.reads (.reserveAllocation _) _).bind fun _ => ?_
    refine (accounting.reads (.take _ _) _).bind fun bytes => ?_
    refine (accounting.places _ (charged + marker.toNat * 2)).bind fun _ => ?_
    split
    · exact accounting.drops charged _
    · exact .throw _ (accounting.fails _)

lemma Accounting.elements {item} (keeps : Keeps left item)
    (size charged count : Nat) :
    Triple (left (charged + size * count))
      (times (do item; placing size) count) (left charged) (left 0) := by
  refine .times (fun count => left (charged + size * count)) (fun count => ?_) count
  refine (keeps _).bind fun _ => ?_
  rw [Nat.mul_succ, ← Nat.add_assoc]
  exact accounting.places size _

lemma Accounting.decodes {call} (covered : shape.Covered program free)
    (calls : ∀ name ∈ shape.names, Keeps left (call name)) :
    Keeps left (decodeWith program limits call shape) := by
  intro charged
  induction shape generalizing charged with
  | leaf consume => exact accounting.reads (.consume consume) charged
  | string => exact accounting.string charged
  | option item ih =>
    refine (accounting.reads .readI32 charged).bind fun flag => ?_
    split
    · exact ih covered calls charged
    · exact .throw _ (accounting.fails charged)
  | boxed item ih => exact (ih covered.2 calls charged).bind fun _ => accounting.gives covered.1 _
  | sequence reserved item ih =>
    have keeps := ih covered.2 calls
    refine (accounting.reads .readI32 charged).bind fun size => ?_
    refine (accounting.reads (.validateCollectionLen size) charged).bind fun received => ?_
    cases received with
    | none => exact .pure _
    | some capacity =>
      cases reserved with
      | true =>
        refine (accounting.reads (.reserveCollection _ capacity) charged).bind fun _ => ?_
        exact accounting.elements keeps _ charged capacity
      | false =>
        have given := covered.1.resolve_left Bool.false_ne_true
        refine .times (fun _ => left charged) (fun _ => ?_) capacity
        exact (keeps charged).bind fun _ => accounting.gives given charged
  | array length item ih =>
    refine (accounting.reads .readI32 charged).bind fun size => ?_
    refine (accounting.reads (.validateCollectionLen size) charged).bind fun received => ?_
    split
    · refine (accounting.reads (.reserveCollection _ length) charged).bind fun _ => ?_
      exact accounting.elements (ih covered calls) _ charged length
    · exact .throw _ (accounting.fails charged)
  | pair first second ih_first ih_second =>
    have in_first := fun name member => calls name (mem_append_left _ member)
    have in_second := fun name member => calls name (mem_append_right _ member)
    exact (ih_first covered.1 in_first charged).bind fun _ => ih_second covered.2 in_second charged
  | derived name => exact calls name mem_cons_self charged

/-- The body of a derived `deserialize`, where `within` is what is said inside of an object. -/
lemma Accounting.body {within} (inner : Accounting limits free within)
    {declaration} {decode : Shape ι → Decoder Unit}
    (enters : ∀ charged, Triple (left charged) (enterObject limits) (within charged) (left 0))
    (leaves : ∀ charged accounts, within charged accounts →
      left charged { accounts with nestingDepth := accounts.nestingDepth - 1 })
    (fields : declaration.counted = true → ∀ shape ∈ declaration.shapes,
      Keeps within (decode shape))
    (payload : declaration.counted = false → ∀ shape ∈ declaration.shapes,
      Keeps left (decode shape)) : Keeps left (decodeDeclaration limits decode declaration) := by
  intro charged
  cases declaration with
  | plain consume => exact accounting.reads (.consume consume) charged
  | object =>
    refine (enters charged).bind fun _ => ?_
    refine Triple.around ?_ (fun _ holds => holds) (leaves charged) (leaves 0)
    refine (inner.reads (.readUnsigned 1) charged).bind fun received => ?_
    split
    · exact .throw _ (inner.fails charged)
    · exact .forM fun shape member => fields rfl shape member charged
  | union name variants =>
    refine (accounting.reads (.readUnsigned 1) charged).bind fun tag => ?_
    split
    · rename_i found
      exact payload rfl _ (mem_map_of_mem (mem_of_find?_eq_some found)) charged
    · exact .throw _ (accounting.fails charged)

end

lemma reading_triple {α : Type} {reader : Reader α}
    (reads : ∀ accounts, before accounts → ∀ value input,
      reader accounts.input = .ok (value, input) → after { accounts with input })
    (fails : ∀ accounts, before accounts → failed accounts) :
    Triple before (reading reader) after failed := by
  intro accounts holds
  unfold reading
  cases read : reader accounts.input with
  | error => exact fails accounts holds
  | ok result => exact reads accounts holds result.1 result.2 read

lemma enterObject_triple
    (enters : ∀ accounts, before accounts →
      accounts.nestingDepth + 1 ≤ limits.maxNestingDepth.toNat →
      after { accounts with nestingDepth := accounts.nestingDepth + 1 })
    (fails : ∀ accounts, before accounts → failed accounts) :
    Triple before (enterObject limits) after failed := by
  intro accounts holds
  unfold enterObject
  split_ifs with shallow
  · exact enters accounts holds shallow
  · exact fails accounts holds

lemma accountsOf_decodeBounded {kept fuel} (frame : List UInt8)
    (starts : kept (.fresh frame))
    (keeps : Triple kept (decodeWith program limits (decodeDerived program limits fuel) shape) kept
      kept) : kept (accountsOf (decodeBounded program limits fuel shape frame)) := by
  have ended := keeps _ starts
  unfold decodeBounded
  split
  · exact starts
  split at ended
  · rename_i accounts run
    rw [run]
    dsimp only
    split <;> exact ended
  · rename_i accounts run
    rw [run]
    exact ended

/-- Everything placed was charged, and `charged` more bytes were. -/
def Charged (limits : MemoryPackDecodeLimits) (charged : Nat) (accounts : Accounts) : Prop :=
  accounts.heap + charged ≤ accounts.input.used ∧
    accounts.input.used ≤ limits.maxAllocationBytes.toNat

lemma charged_accounting (limits) :
    Accounting limits (· = 0) (Charged limits) where
  drops charged bytes accounts holds := ⟨by have := holds.1; omega, holds.2⟩
  reads costs charged := by
    refine reading_triple (fun accounts holds value input read => ?_) fun accounts holds => ?_
    · obtain ⟨used, within⟩ := costs _ _ _ holds.2 read
      exact ⟨by have := holds.1; simp only; omega, within⟩
    · exact ⟨by have := holds.1; omega, holds.2⟩
  places bytes charged accounts holds := ⟨by have := holds.1; simp only; omega, holds.2⟩
  gives := by
    rintro _ rfl charged accounts holds
    exact holds

lemma decodeDerived_charged
    (covered : ∀ name, ∀ shape ∈ (program.declaration name).shapes, shape.Covered program (· = 0))
    (fuel : Nat) (name : ι) : Keeps (Charged limits) (decodeDerived program limits fuel name) := by
  have accounting := charged_accounting limits
  intro charged
  induction fuel generalizing name charged with
  | zero => exact .throw _ (accounting.fails charged)
  | succ fuel ih =>
    have decodes : ∀ shape ∈ (program.declaration name).shapes, Keeps (Charged limits)
        (decodeWith program limits (decodeDerived program limits fuel) shape) :=
      fun shape member => accounting.decodes (covered name shape member) fun other _ => ih other
    have enters : Keeps (Charged limits) (enterObject limits) := fun charged =>
      enterObject_triple (fun _ holds _ => holds) (accounting.fails charged)
    have body := accounting.body accounting enters
      (fun _ _ holds => holds) (fun _ => decodes) (fun _ => decodes) charged
    exact body.around (fun _ holds => holds) (fun _ holds => holds) (fun _ holds => holds)

/-- If every `Box`, `LinkedList` and `BTreeSet` of the schema has items without a size, no decode
places more on the heap than the allocation limit, whether or not it succeeds. -/
theorem heap_le_maxAllocationBytes (program : Program ι) (shape : Shape ι)
    (covered : shape.Covered program (· = 0))
    (declared : ∀ name, ∀ shape ∈ (program.declaration name).shapes,
      shape.Covered program (· = 0))
    (limits : MemoryPackDecodeLimits) (fuel : Nat) (frame : List UInt8) :
    (accountsOf (decodeBounded program limits fuel shape frame)).heap ≤
      limits.maxAllocationBytes.toNat := by
  have accounting := charged_accounting limits
  have keeps := accounting.decodes covered
    (fun name _ => decodeDerived_charged declared fuel name) 0
  have ended := accountsOf_decodeBounded frame ⟨Nat.le_refl 0, Nat.zero_le _⟩ keeps
  exact le_trans ended.1 ended.2

def byte : Shape ι :=
  .leaf fun
    | [] => .error .io
    | _ :: rest => .ok rest

/-- Two bytes of allocations, and one level of objects. -/
def narrow : MemoryPackDecodeLimits where
  maxFrameBytes := 0xFFFFFFFFFFFFFFFF
  maxAllocationBytes := 2
  maxStringBytes := 2
  maxCollectionItems := 3
  maxNestingDepth := 1
  nonzero := by decide
  string_le := by decide

def bytesOnly : Program Empty where
  declaration := Empty.elim
  sizeOf _ := 1

theorem heap_le_maxAllocationBytes_vec :
    (accountsOf (decodeBounded bytesOnly narrow 0 (.sequence true byte)
      [3, 0, 0, 0, 7, 7, 7])).heap ≤
      2 :=
  heap_le_maxAllocationBytes bytesOnly (.sequence true byte) ⟨.inl rfl, trivial⟩
    (fun name => name.elim) narrow 0 _

/-- A `LinkedList` of three bytes is decoded within an allocation limit of two. -/
theorem linkedList_exceeds_maxAllocationBytes :
    ∃ accounts, decodeBounded bytesOnly narrow 0 (.sequence false byte) [3, 0, 0, 0, 7, 7, 7] =
      .ok () accounts ∧ narrow.maxAllocationBytes.toNat < accounts.heap := ⟨_, rfl, by decide⟩

section

variable (limits : MemoryPackDecodeLimits) (most depth active : Nat)

end

end

/-- A recursive union, `enum Chain { Next(Box<Chain>), End(u8) }`. -/
def chain : Program Unit where
  declaration _ := .union "Chain" [(0, .boxed (.derived ())), (1, byte)]
  sizeOf _ := 8

end Catga.Codec.Decoding
