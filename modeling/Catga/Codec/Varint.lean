import Catga.Codec.ReadBack

/-!
# Compact integers

A small number is one byte.  Otherwise the byte is a type code, which gives the width of the
little-endian number that follows and says whether it is signed.
-/

namespace Catga.Codec.Varint

open Metered LittleEndian

/-- The signed number of `width` bytes with these bits. -/
def signed (width bits : Nat) : Int := (bits : Int).bmod (256 ^ width)

def unsigned (width : Nat) (value : Int) : Nat := (value % (256 ^ width : Nat)).toNat

/-- The width of the number after a type code, and whether it is signed. -/
def body (typeCode : Int) : Option (Nat × Bool) :=
  [(-121, 1, false), (-122, 1, true), (-123, 2, false), (-124, 2, true), (-125, 4, false),
    (-126, 4, true), (-127, 8, false), (-128, 8, true)].lookup typeCode

def write (typeCode : Int) (width : Nat) (value : Int) : List UInt8 :=
  encode 1 (unsigned 1 typeCode) ++ encode width (unsigned width value)

def writeVarint (value : Int) : List UInt8 :=
  if 0 ≤ value then
    if value ≤ 127 then encode 1 (unsigned 1 value)
    else if value ≤ 2 ^ 15 - 1 then write (-124) 2 value
    else if value ≤ 2 ^ 31 - 1 then write (-126) 4 value
    else write (-128) 8 value
  else if -120 ≤ value then encode 1 (unsigned 1 value)
  else if -2 ^ 7 ≤ value then write (-122) 1 value
  else if -2 ^ 15 ≤ value then write (-124) 2 value
  else if -2 ^ 31 ≤ value then write (-126) 4 value
  else write (-128) 8 value

/-- `read_varint`; an unsigned number is cast to `i64`. -/
def readVarint : Reader Int := do
  let code ← readUnsigned 1
  match body (signed 1 code) with
  | some (width, isSigned) => do
      let bits ← readUnsigned width
      pure (signed (if isSigned then width else 8) bits)
  | none => pure (signed 1 code)

/-- The number of `width` bytes in two's complement. -/
def complement (width bits : Nat) : Int :=
  if 2 * bits < 256 ^ width then bits else bits - (256 ^ width : Nat)

/-- The integer that a wire form denotes, given as its first byte and the bytes after it.  The codes
from `0x80` to `0x87` announce 8, 4, 2 and 1 bytes, in two's complement if the code is even; every
other byte is a number by itself. -/
def denotation (code : UInt8) (bytes : List UInt8) : Option Int :=
  let width := 2 ^ ((0x87 - code.toNat) / 2)
  if 0x80 ≤ code.toNat ∧ code.toNat ≤ 0x87 then
    if bytes.length = width then
      some (if code.toNat % 2 = 0 then complement width (decode bytes) else decode bytes)
    else none
  else if bytes = [] then some (complement 1 code.toNat)
  else none

variable {limit width : Nat} {value : Int}

lemma positive (width : Nat) : (0 : Int) < (256 ^ width : Nat) :=
  Int.natCast_pos.mpr (Nat.pow_pos (by decide))

lemma unsigned_lt (width : Nat) (value : Int) : unsigned width value < 256 ^ width := by
  simp only [unsigned]
  omega

lemma signed_unsigned (lower : -(256 ^ width : Nat) ≤ value * 2)
    (upper : value * 2 < (256 ^ width : Nat)) : signed width (unsigned width value) = value := by
  rw [signed, unsigned, Int.toNat_of_nonneg (Int.emod_nonneg _ (Int.ne_of_gt (positive width))),
    Int.emod_bmod, Int.bmod_eq_of_le_mul_two lower upper]

lemma signed_of_lt {bits : Nat} (fits : (bits : Int) < 2 ^ 63) : signed 8 bits = bits :=
  Int.bmod_eq_of_le_mul_two (by omega) (by omega)

lemma yields_single (ge : -120 ≤ value) (le : value ≤ 127) :
    Yields limit readVarint (free (encode 1 (unsigned 1 value)) value) := by
  have same : signed 1 (unsigned 1 value) = value := signed_unsigned (by omega) (by omega)
  have plain : body value = none := by
    simp only [body, List.lookup_eq_none_iff, List.forall_mem_cons]
    grind
  refine yields_then [] (yields_readUnsigned (unsigned_lt 1 value)) ?_ (by simp [free])
  simp only [same, plain]
  exact .pure value

lemma yields_write {typeCode : Int} (code : signed 1 (unsigned 1 typeCode) = typeCode)
    (coded : body typeCode = some (width, true)) (lower : -(256 ^ width : Nat) ≤ value * 2)
    (upper : value * 2 < (256 ^ width : Nat)) :
    Yields limit readVarint (free (write typeCode width value) value) := by
  refine yields_then (encode width (unsigned width value))
    (yields_readUnsigned (unsigned_lt 1 typeCode)) ?_ rfl
  simp only [code, coded, if_true]
  refine yields_then [] (yields_readUnsigned (unsigned_lt width value)) ?_ (by simp)
  rw [signed_unsigned lower upper]
  exact .pure value

lemma yields_readVarint (lower : -2 ^ 63 ≤ value) (upper : value < 2 ^ 63) :
    Yields limit readVarint (free (writeVarint value) value) := by
  simp only [writeVarint]
  split_ifs
  · exact yields_single (by omega) (by omega)
  rotate_left 3
  · exact yields_single (by omega) (by omega)
  all_goals exact yields_write rfl rfl (by omega) (by omega)

lemma readUnsigned_eq_ok {bits used : Nat} {bytes : List UInt8} {input : Input UInt8}
    (read : readUnsigned width ⟨bytes, used⟩ = .ok (bits, input)) :
    ∃ taken, taken.length = width ∧ bytes = taken ++ input.rest ∧ bits = decode taken ∧
      input.used = used := by
  simp only [readUnsigned, take, bind, StateT.bind, Except.bind] at read
  split_ifs at read with enough
  cases read
  exact ⟨bytes.take width, by simp [enough], by simp, rfl, rfl⟩

/-- The reader's table. -/
lemma body_eq (code : UInt8) : body (signed 1 code.toNat) =
    if 0x80 ≤ code.toNat ∧ code.toNat ≤ 0x87 then
      some (2 ^ ((0x87 - code.toNat) / 2), decide (code.toNat % 2 = 0))
    else none := by
  have table : ∀ code : Fin 256, body (signed 1 code) =
      if 0x80 ≤ code.val ∧ code.val ≤ 0x87 then
        some (2 ^ ((0x87 - code.val) / 2), decide (code.val % 2 = 0))
      else none := by decide +kernel
  exact table code.toFin

lemma decode_lt (bytes : List UInt8) : decode bytes < 256 ^ bytes.length := by
  induction bytes with
  | nil => simp [decode]
  | cons byte bytes ih =>
    have := byte.toNat_lt
    rw [decode, List.length_cons, Nat.pow_succ]
    omega

lemma signed_eq {bits : Nat} (positive : 0 < width) (lt : bits < 256 ^ width) :
    signed width bits = complement width bits := by
  rw [signed, complement, Int.bmod, Int.emod_eq_of_lt (by omega) (by omega)]
  cases width with
  | zero => cases positive
  | succ width =>
    simp only [Nat.pow_succ]
    split_ifs <;> omega

lemma signed_lt (bits : Nat) (le : width ≤ 8) : signed width bits < 2 ^ 63 := by
  have positive : 0 < 256 ^ width := Nat.pow_pos (by decide)
  have bounded := Int.bmod_lt (x := bits) positive
  have := Nat.pow_le_pow_right (n := 256) (by decide) le
  rw [signed]
  omega

/-- What was written is read back.  And what is read is the integer that the bytes denote just when
that is less than `2 ^ 63`. -/
theorem varint_denotes (used : Nat) :
    (∀ (value : Int64) (rest : List UInt8),
      readVarint ⟨writeVarint value.toInt ++ rest, used⟩ = .ok (value.toInt, ⟨rest, used⟩)) ∧
    ∀ (bytes : List UInt8) (value : Int) (input : Input UInt8),
      readVarint ⟨bytes, used⟩ = .ok (value, input) →
      ∃ code form number, bytes = code :: form ++ input.rest ∧ input.used = used ∧
        denotation code form = some number ∧ (value = number ↔ number < 2 ^ 63) := by
  refine ⟨fun value rest => ?_, fun bytes value input read => ?_⟩
  · have read := yields_readVarint value.le_toInt value.toInt_lt rest used le_rfl
    exact read.1 ⟨trivial, le_rfl⟩
  · obtain ⟨⟨bits, middle⟩, first, next⟩ := bind_eq_ok.mp read
    obtain ⟨taken, length, rfl, rfl, rfl⟩ := readUnsigned_eq_ok first
    obtain ⟨code, rfl⟩ := List.length_eq_one_iff.mp length
    have single : decode [code] = code.toNat := by simp [decode]
    simp only [single, body_eq] at next
    unfold denotation
    split_ifs at next with coded
    · obtain ⟨⟨bits, after⟩, second, same⟩ := bind_eq_ok.mp next
      obtain ⟨rfl, rfl⟩ := Prod.mk.inj (Except.ok.inj same)
      obtain ⟨taken, length, split, rfl, kept⟩ := readUnsigned_eq_ok second
      refine ⟨code, taken, _, by simp [split], kept, by rw [if_pos coded, if_pos length], ?_⟩
      simp only [decide_eq_true_eq]
      split_ifs
      · rw [← signed_eq (Nat.pow_pos (by decide)) (length ▸ decode_lt taken)]
        have le : 2 ^ ((0x87 - code.toNat) / 2) ≤ 2 ^ 3 :=
          Nat.pow_le_pow_right (by decide) (by omega)
        exact iff_of_true rfl (signed_lt _ le)
      · exact ⟨fun same => same ▸ signed_lt _ le_rfl, signed_of_lt⟩
    · obtain ⟨rfl, rfl⟩ := Prod.mk.inj (Except.ok.inj next)
      refine ⟨code, [], _, rfl, rfl, by rw [if_neg coded, if_pos rfl], ?_⟩
      rw [← signed_eq (by decide) (by simpa using code.toNat_lt)]
      exact iff_of_true rfl (signed_lt _ (by decide))

theorem negative_reads_back :
    ∃ code form number, [0x84, 0, 0x80] = code :: form ++ [] ∧ 0 = 0 ∧
      denotation code form = some number ∧ (-2 ^ 15 = number ↔ number < 2 ^ 63) :=
  (varint_denotes 0).2 _ _ ⟨[], 0⟩ (by decide +kernel)

theorem wide_body_misread :
    readVarint ⟨129 :: List.replicate 8 255, 0⟩ = .ok (-1, ⟨[], 0⟩) ∧
      denotation 129 (List.replicate 8 255) = some (2 ^ 64 - 1) := by decide +kernel

end Catga.Codec.Varint
