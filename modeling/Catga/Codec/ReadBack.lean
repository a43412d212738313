import Catga.Codec.MemoryPack

/-!
# Reading back what was written

Reading back what was written draws a definite amount on each budget of the reader: the demand of
the value.  Each rule below says for one reader what it asks of a piece of input, so that the
readers of whole values are composed from them.
-/

namespace Catga.Codec

open Metered LittleEndian Yields

abbrev Reads {α : Type} (limits : MemoryPackDecodeLimits) (reader : Reader α)
    (piece : Piece UInt8 α) : Prop := Yields limits.maxAllocationBytes.toNat reader piece

/-- What reading a value back asks of the reader. -/
structure Demand where
  allocation : Nat
  longestString : Nat
  longestVec : Nat
  depth : Nat

variable {remaining : Nat} {α γ : Type} {parser : Reader α}

namespace Demand

/-- A value that takes nothing from any budget. -/
@[simp] def none : Demand := { allocation := 0, longestString := 0, longestVec := 0, depth := 0 }

@[simp] def both (first second : Demand) : Demand where
  allocation := first.allocation + second.allocation
  longestString := max first.longestString second.longestString
  longestVec := max first.longestVec second.longestVec
  depth := max first.depth second.depth

variable (limits : MemoryPackDecodeLimits)

/-- The demand passes every check but the allocation budget, with `remaining` levels left. -/
@[simp] def Within (remaining : Nat) (demand : Demand) : Prop :=
  demand.longestString ≤ limits.maxStringBytes.toNat ∧
    demand.longestVec ≤ limits.maxCollectionItems.toNat ∧ demand.depth ≤ remaining
deriving Decidable

def Fits (demand : Demand) : Prop :=
  demand.Within limits limits.maxNestingDepth.toNat ∧
    demand.allocation ≤ limits.maxAllocationBytes.toNat
deriving Decidable

lemma within_none (remaining : Nat) : none.Within limits remaining := by
  simp [Within, none]

variable {limits : MemoryPackDecodeLimits}

lemma within_both {first second : Demand} :
    (first.both second).Within limits remaining ↔
      first.Within limits remaining ∧ second.Within limits remaining := by
  simp only [Within, both, Nat.max_le]
  tauto

lemma within_deeper {demand : Demand} :
    ({ demand with depth := demand.depth + 1 } : Demand).Within limits (remaining + 1) ↔
      demand.Within limits remaining := by
  simp [Within]

end Demand

section

variable {limit : Nat}

def free {α : Type} (symbols : List UInt8) (value : α) : Piece UInt8 α :=
  { symbols, value, cost := 0, admissible := True }

lemma yields_readUnsigned {width bits} (fits : bits < 256 ^ width) :
    Yields limit (readUnsigned width) (free (encode width bits) bits) := by
  have taken : Yields limit (take MemoryPackError.io width)
      (free (encode width bits) (encode width bits)) := by
    have symbols : Yields limit (take MemoryPackError.io (encode width bits).length)
        (free (encode width bits) (encode width bits)) := take _ _
    rwa [length_encode] at symbols
  have read := taken.map decode
  exact read.congr rfl (decode_encode fits).symm rfl Iff.rfl

lemma yields_readTag (tag : UInt8) :
    Yields limit (readUnsigned 1) (free [tag] tag.toNat) := by
  have read : Yields limit (readUnsigned 1)
      (free (encode 1 tag.toNat) tag.toNat) := yields_readUnsigned tag.toNat_lt
  have bytes_eq : encode 1 tag.toNat = [tag] := by
    simp [encode]
  rwa [bytes_eq] at read

lemma yields_readI32 {value} (lower : -2 ^ 31 ≤ value) (upper : value < 2 ^ 31) :
    Yields limit readI32 (free (writeI32 value) value) := by
  have bits : Yields limit (readUnsigned 4) (free (writeI32 value) (ofSigned value)) :=
    yields_readUnsigned (ofSigned_lt value)
  have read := bits.map toSigned
  exact read.congr rfl (toSigned_ofSigned lower upper).symm rfl Iff.rfl

lemma yields_readBytes (bytes : List UInt8) :
    Yields limit (readBytes bytes.length) (free bytes bytes) := take _ bytes

lemma yields_then {next symbols value}
    {target : Piece UInt8 γ} (rest : List UInt8) (first : Yields limit parser (free symbols value))
    (second : Yields limit (next value) { target with symbols := rest })
    (split : target.symbols = symbols ++ rest) : Yields limit (parser >>= next) target :=
  (first.bind second).congr split rfl (by simp [free]) (by simp [free])

lemma yields_readBool (value : Bool) :
    Yields limit readBool (free [if value then 1 else 0] value) := by
  cases value with
  | false =>
    have read : Yields limit (readUnsigned 1) (free [0] 0) := yields_readUnsigned (by decide)
    refine yields_then [] read ?_ rfl
    exact pure false
  | true =>
    have read : Yields limit (readUnsigned 1) (free [1] 1) := yields_readUnsigned (by decide)
    refine yields_then [] read ?_ rfl
    exact pure true

variable (char : Char)

lemma charFromU32_toNat : charFromU32 char.toNat = some char := by
  have valid : char.toNat.isValidChar := char.valid
  simp [charFromU32, valid]

lemma not_surrogate : ¬(0xD800 ≤ char.toNat ∧ char.toNat ≤ 0xDFFF) := by
  have valid : char.toNat.isValidChar := char.valid
  omega

lemma toNat_lt : char.toNat < 0x110000 := by
  have valid : char.toNat.isValidChar := char.valid
  omega

lemma yields_readChar : Yields limit readChar (free (writeChar char) char) := by
  have bounded := toNat_lt char
  by_cases plane : char.toNat ≤ 0xFFFF
  · -- one code unit
    have unit : Yields limit (readUnsigned 2) (free (encode 2 char.toNat) char.toNat) :=
      yields_readUnsigned (by omega)
    have written : writeChar char = encode 2 char.toNat := if_pos plane
    rw [written]
    refine yields_then [] unit ?_ (by simp [free])
    rw [if_pos (not_surrogate char), charFromU32_toNat]
    exact pure char
  · -- a surrogate pair
    have low_eq : (char.toNat - 0x10000) % 2 ^ 16 &&& 0x3FF = (char.toNat - 0x10000) % 0x400 := by
      rw [show 0x3FF = 2 ^ 10 - 1 from rfl, Nat.and_two_pow_sub_one_eq_mod]
      omega
    have joined : 0x10000 + (((char.toNat - 0x10000) >>> 10) <<< 10 |||
        (char.toNat - 0x10000) % 0x400) = char.toNat := by
      rw [← Nat.shiftLeft_add_eq_or_of_lt (by omega), Nat.shiftRight_eq_div_pow, Nat.shiftLeft_eq]
      omega
    have high : Yields limit (readUnsigned 2)
        (free (encode 2 (((char.toNat - 0x10000) >>> 10) + 0xD800))
          (((char.toNat - 0x10000) >>> 10) + 0xD800)) := yields_readUnsigned (by omega)
    have low : Yields limit (readUnsigned 2)
        (free (encode 2 ((char.toNat - 0x10000) % 0x400 + 0xDC00))
          ((char.toNat - 0x10000) % 0x400 + 0xDC00)) := yields_readUnsigned (by omega)
    have written : writeChar char =
        encode 2 (((char.toNat - 0x10000) >>> 10) + 0xD800) ++
          encode 2 ((char.toNat - 0x10000) % 0x400 + 0xDC00) := by
      rw [← low_eq]
      exact if_neg plane
    rw [written]
    refine yields_then _ high ?_ rfl
    rw [if_neg (by omega), if_neg (by omega)]
    refine yields_then [] low ?_ (by simp)
    rw [if_neg (by omega), Nat.add_sub_cancel, Nat.add_sub_cancel, joined, charFromU32_toNat]
    exact pure char

end

lemma fromUTF8?_utf8Bytes (text : String) :
    String.fromUTF8? ⟨(utf8Bytes text).toArray⟩ = some text := by
  have bytes_eq : (⟨(utf8Bytes text).toArray⟩ : ByteArray) = text.toUTF8 := by
    simp [utf8Bytes]
  rw [bytes_eq]
  exact dif_pos text.isValidUTF8

section

variable (limits : MemoryPackDecodeLimits)

lemma yields_validateStringBytes (bytes : Nat) :
    Reads limits (validateStringBytes limits bytes)
      { symbols := [], value := (), cost := bytes,
        admissible := bytes ≤ limits.maxStringBytes.toNat } := by
  have checked : Reads limits (require (bytes ≤ limits.maxStringBytes.toNat)
      (MemoryPackError.limitExceeded "string bytes" limits.maxStringBytes.toNat) : Reader Unit) _ :=
    Yields.require _ _
  have reserved : Reads limits (reserveAllocation limits bytes) _ := charge _ bytes
  exact seq _ checked reserved rfl rfl (by simp) (by simp)

lemma checkedI32Length_eq_ok {length checked}
    (accepted : checkedI32Length length = .ok checked) :
    checked = length ∧ length < 2 ^ 31 := by
  simp only [checkedI32Length] at accepted
  split at accepted <;> cases accepted
  rename_i fits
  exact ⟨rfl, fits⟩

/-- The end of `readUtf8String`. -/
def decodeUtf8 (bytes : List UInt8) : Reader String :=
  match String.fromUTF8? ⟨bytes.toArray⟩ with
  | some text => pure text
  | none => fail .invalidUtf8

lemma yields_readUtf8String {text} {units : Nat} (units_lt : units < 2 ^ 31) :
    Reads limits (readUtf8String limits (utf8Bytes text).length)
      { symbols := writeI32 units ++ utf8Bytes text, value := text,
        cost := (utf8Bytes text).length,
        admissible := (utf8Bytes text).length ≤ limits.maxStringBytes.toNat } := by
  have charLength : Reads limits readI32
      (free (writeI32 units) (units : Int)) := yields_readI32 (by omega) (by omega)
  have content : Reads limits (readBytes (utf8Bytes text).length)
      (free (utf8Bytes text) (utf8Bytes text)) := yields_readBytes _
  have decoded : Reads limits (decodeUtf8 (utf8Bytes text)) (free [] text) := by
    simp only [decodeUtf8, fromUTF8?_utf8Bytes]
    exact pure text
  have body : Reads limits (readI32 >>= fun _ => readBytes (utf8Bytes text).length >>= decodeUtf8)
      (free (writeI32 units ++ utf8Bytes text) text) := by
    refine yields_then _ charLength ?_ rfl
    refine yields_then [] content ?_ (by simp)
    exact decoded
  exact seq _ (yields_validateStringBytes limits _) body rfl rfl rfl (by simp [free])

lemma writeString_eq_ok {text bytes} (written : writeString text = .ok bytes) :
    (utf8Bytes text = [] ∧ bytes = writeI32 0) ∨
      (utf8Bytes text ≠ [] ∧ (utf8Bytes text).length < 2 ^ 31 ∧ utf16Length text < 2 ^ 31 ∧
        bytes = writeI32 (-((utf8Bytes text).length : Int) - 1) ++ writeI32 (utf16Length text) ++
          utf8Bytes text) := by
  simp only [writeString] at written
  split_ifs at written with empty
  · cases written
    exact .inl ⟨empty, rfl⟩
  · obtain ⟨byteLength, byte_ok, units_written⟩ := bind_eq_ok.mp written
    obtain ⟨units, units_ok, returned⟩ := bind_eq_ok.mp units_written
    cases returned
    obtain ⟨rfl, byte_lt⟩ := checkedI32Length_eq_ok byte_ok
    obtain ⟨rfl, units_lt⟩ := checkedI32Length_eq_ok units_ok
    exact .inr ⟨empty, byte_lt, units_lt, rfl⟩

lemma yields_readString {text} {bytes : List UInt8}
    (written : writeString text = .ok bytes) :
    Reads limits (readString limits)
      { symbols := bytes, value := text, cost := (utf8Bytes text).length,
        admissible := (utf8Bytes text).length ≤ limits.maxStringBytes.toNat } := by
  obtain ⟨empty, rfl⟩ | ⟨nonempty, byte_lt, units_lt, rfl⟩ := writeString_eq_ok written
  · -- the empty string is a zero length
    have text_eq : text = "" := by
      have decoded := fromUTF8?_utf8Bytes text
      rw [empty] at decoded
      have nothing := fromUTF8?_utf8Bytes ""
      rw [show utf8Bytes "" = [] from rfl, decoded] at nothing
      exact Option.some.inj nothing
    have marker : Reads limits readI32 (free (writeI32 0) 0) :=
      yields_readI32 (by decide) (by decide)
    rw [empty]
    refine yields_then [] marker ?_ (by simp)
    rw [if_neg (by decide), if_neg (by decide), if_pos rfl, text_eq]
    exact (pure "").congr rfl rfl rfl (by simp)
  · have positive : 0 < (utf8Bytes text).length := List.length_pos_of_ne_nil nonempty
    have marker : Reads limits readI32 (free (writeI32 (-((utf8Bytes text).length : Int) - 1))
          (-((utf8Bytes text).length : Int) - 1)) := yields_readI32 (by omega) (by omega)
    have count_eq : (-(-((utf8Bytes text).length : Int) - 1) - 1).toNat =
        (utf8Bytes text).length := by omega
    refine yields_then _ marker ?_ rfl
    rw [if_neg (by omega), if_pos (by omega), count_eq]
    exact yields_readUtf8String limits units_lt

end

/-- The piece a serialized value stands for, with `remaining` levels of nesting left. -/
@[simp] def pieceOf {α : Type} (limits : MemoryPackDecodeLimits) (remaining : Nat)
    (bytes : List UInt8)
    (value : α) (demand : Demand) : Piece UInt8 α :=
  { symbols := bytes, value, cost := demand.allocation,
    admissible := demand.Within limits remaining }

section

variable {limits : MemoryPackDecodeLimits}

lemma reads_free {parser bytes} {value : α} (remaining : Nat)
    (yields : Reads limits parser (free bytes value)) :
    Reads limits parser (pieceOf limits remaining bytes value .none) :=
  yields.congr rfl rfl rfl (iff_of_true (Demand.within_none _ _) trivial)

lemma reads_require {condition : Prop} [Decidable condition] (holds : condition)
    (error : MemoryPackError) : Reads limits (require condition error) (free [] ()) :=
  (Yields.require _ error).congr rfl rfl rfl (iff_of_true trivial holds)

lemma yields_object {fields} {piece : Piece UInt8 α} {count}
    (count_le : count ≤ 255) (read : Reads limits fields piece) :
    Reads limits (do
        let received ← readUnsigned 1
        require (received = count) (.deserializationError
          s!"MemoryPack object field count mismatch: expected {count}, received {received}")
        fields)
      { piece with symbols := UInt8.ofNat count :: piece.symbols } := by
  have header : Reads limits (readUnsigned 1)
      (free (encode 1 count) count) := yields_readUnsigned (by omega)
  refine yields_then piece.symbols header ?_ rfl
  exact yields_then piece.symbols (reads_require rfl _) read rfl

end

section

variable (limits : MemoryPackDecodeLimits)

lemma yields_validateCollectionLen {length : Nat} (positive : 0 < length) :
    Reads limits (validateCollectionLen limits length)
      { symbols := [], value := some length, cost := 0,
        admissible := length ≤ limits.maxCollectionItems.toNat } := by
  have checked : Reads limits
      (require (length ≤ limits.maxCollectionItems.toNat) (MemoryPackError.limitExceeded
        "collection items" limits.maxCollectionItems.toNat) : Reader Unit) _ := Yields.require _ _
  simp only [validateCollectionLen]
  rw [if_neg (by omega), if_neg (by omega), Int.toNat_natCast]
  exact checked.map fun _ => some length

lemma yields_reserveCollection (size capacity : Nat) :
    Reads limits (reserveCollection limits size capacity)
      { symbols := [], value := (), cost := capacity * size, admissible := True } := by
  have representable : Reads limits
      (require (capacity * size ≤ usizeMax) (MemoryPackError.limitExceeded
        "cumulative allocation bytes" usizeMax) : Reader Unit) _ := Yields.require _ _
  have reserved : Reads limits (reserveAllocation limits (capacity * size)) _ := charge _ _
  have both : Reads limits (reserveCollection limits size capacity)
      { symbols := [], value := (), cost := capacity * size,
        admissible := capacity * size ≤ usizeMax } :=
    seq _ representable reserved rfl rfl (by simp) (by simp)
  have limit_lt := limits.maxAllocationBytes.toNat_lt
  refine both.affordable fun within => ?_
  simp only [usizeMax, true_iff] at within ⊢
  omega

lemma yields_collection {items : List α} {body inner} (size : Nat)
    (finish : List α → γ) (length_lt : items.length < 2 ^ 31)
    (read : Reads limits (all (List.replicate items.length parser))
      (pieceOf limits remaining body items inner))
    (nothing : items = [] → body = [] ∧ inner = .none) :
    Reads limits (do
        let length ← readI32
        match ← validateCollectionLen limits length with
        | .none => pure (finish [])
        | .some capacity => do
            reserveCollection limits size capacity
            let items ← all (List.replicate capacity parser)
            pure (finish items))
      (pieceOf limits remaining (writeI32 items.length ++ body) (finish items)
        (Demand.both
          { Demand.none with allocation := items.length * size, longestVec := items.length }
          inner)) := by
  have header : Reads limits readI32
      (free (writeI32 items.length) (items.length : Int)) := yields_readI32 (by omega) (by omega)
  refine yields_then body header ?_ rfl
  cases items with
  | nil =>
    obtain ⟨rfl, rfl⟩ := nothing rfl
    refine (pure (finish [])).congr rfl rfl ?_ ?_
    · simp
    · simp
  | cons first rest =>
    have reserved : Reads limits (reserveCollection limits size (first :: rest).length >>= fun _ =>
          all (List.replicate (first :: rest).length parser) >>= fun items =>
          pure (finish items))
        { symbols := body, value := finish (first :: rest),
          cost := (first :: rest).length * size + inner.allocation,
          admissible := inner.Within limits remaining } := by
      refine seq _ (yields_reserveCollection limits _ _) (read.map finish) rfl rfl rfl ?_
      simp
    refine seq _ (yields_validateCollectionLen limits (by simp)) reserved rfl rfl ?_ ?_
    · simp
    · simp only [pieceOf, Demand.within_both]
      simp

end

end Catga.Codec
