import Catga.Error
import Catga.Foundation.LittleEndian
import Catga.Raft.Storage

/-!
# The companion file

`hard_state.bin` holds the core of the storage: the protobuf encodings of hard state and conf state
behind their lengths, and three indexes.  What is read back is the image of the core, and a file
that was cut off anywhere is refused.
-/

namespace Catga.Raft.Storage

open List LittleEndian

/-- A message of the protobuf crate, whose `compute_size` is a `u32`. -/
structure Protobuf (α : Type) where
  writeToBytes : α → Except String (List UInt8)
  mergeFromBytes : List UInt8 → Except String α
  round_trip : ∀ {value bytes}, writeToBytes value = .ok bytes → mergeFromBytes bytes = .ok value
  computeSize_lt : ∀ {value bytes}, writeToBytes value = .ok bytes → bytes.length < 2 ^ 32

/-- `b"CRHS"`. -/
def stateMagic : List UInt8 := [67, 82, 72, 83]

def stateVersion : UInt8 := 1

/-- What the companion file is made of. -/
structure CoreParts where
  hs : List UInt8
  cs : List UInt8
  snapshotIndex : Nat
  snapshotTerm : Nat
  durableLastIndex : Nat

/-- The layout of the file; a length is cut to its lowest four bytes. -/
def CoreParts.toBytes (parts : CoreParts) : List UInt8 :=
  stateMagic ++ ([stateVersion] ++ (encode 4 parts.hs.length ++ (parts.hs ++
    (encode 4 parts.cs.length ++ (parts.cs ++ (encode 8 parts.snapshotIndex ++
      (encode 8 parts.snapshotTerm ++ (encode 8 parts.durableLastIndex ++ []))))))))

/-- The text of the error for a file that cannot be read. -/
def corrupt (what : String) : String := "corrupt hard_state.bin: " ++ what

variable (bytes : List UInt8) (pos : Nat)

/-- `bytes.get(pos..pos + size)`. -/
def getRange (size : Nat) (what : String) : Except String (List UInt8) :=
  if pos + size ≤ bytes.length then .ok ((bytes.drop pos).take size) else .error (corrupt what)

def readNumber (width : Nat) (what : String) : Except String Nat := do
  let raw ← getRange bytes pos width what
  pure (decode raw)

def readU32 : Except String Nat := readNumber bytes pos 4 "truncated length"

def readU64 (what : String) : Except String Nat := readNumber bytes pos 8 what

def readParts : Except String CoreParts :=
  if bytes.length < 5 ∨ bytes.take 4 ≠ stateMagic then .error (corrupt "bad magic")
  else if bytes[4]? ≠ some stateVersion then .error (corrupt "unsupported version")
  else do
    let pos := 5
    let hsLen ← readU32 bytes pos
    let pos := pos + 4
    let hs ← getRange bytes pos hsLen "truncated hard state"
    let pos := pos + hsLen
    let csLen ← readU32 bytes pos
    let pos := pos + 4
    let cs ← getRange bytes pos csLen "truncated conf state"
    let pos := pos + csLen
    let snapshotIndex ← readU64 bytes pos "truncated snapshot index"
    let pos := pos + 8
    let snapshotTerm ← readU64 bytes pos "truncated snapshot term"
    let pos := pos + 8
    let durableLastIndex ← readU64 bytes pos "truncated durable last index"
    pure { hs, cs, snapshotIndex, snapshotTerm, durableLastIndex }

section

variable (hardStates : Protobuf HardState) (confStates : Protobuf ConfState)

def encodeCore (core : PersistedCore) : Except String (List UInt8) := do
  let hs ← (hardStates.writeToBytes core.hardState).mapError ("encode hard state: " ++ ·)
  let cs ← (confStates.writeToBytes core.confState).mapError ("encode conf state: " ++ ·)
  let durableLastIndex := min core.durableLastIndex core.lastValidIndex
  pure (CoreParts.toBytes { hs, cs, snapshotIndex := core.snapshotIndex,
                            snapshotTerm := core.snapshotTerm, durableLastIndex })

/-- On disk there is one tail; a restart takes it for both. -/
def decodeCore : Except String PersistedCore := do
  let parts ← readParts bytes
  let hardState ← (hardStates.mergeFromBytes parts.hs).mapError ("decode hard state: " ++ ·)
  let confState ← (confStates.mergeFromBytes parts.cs).mapError ("decode conf state: " ++ ·)
  pure { hardState, confState, snapshotIndex := parts.snapshotIndex,
         snapshotTerm := parts.snapshotTerm, lastValidIndex := parts.durableLastIndex,
         durableLastIndex := parts.durableLastIndex }

end

/-- The indexes of a core are `u64`s. -/
structure PersistedCore.Wide (core : PersistedCore) : Prop where
  snapshotIndex : core.snapshotIndex < 2 ^ 64
  snapshotTerm : core.snapshotTerm < 2 ^ 64
  durableLastIndex : core.durableLastIndex < 2 ^ 64

/-- Every part is as long as its field of the file can tell. -/
structure CoreParts.Fits (parts : CoreParts) : Prop where
  hs : parts.hs.length < 256 ^ 4
  cs : parts.cs.length < 256 ^ 4
  snapshotIndex : parts.snapshotIndex < 256 ^ 8
  snapshotTerm : parts.snapshotTerm < 256 ^ 8
  durableLastIndex : parts.durableLastIndex < 256 ^ 8

/-- What the file holds from a position on. -/
def At (bytes : List UInt8) (pos : Nat) (rest : List UInt8) : Prop :=
  ∃ before, bytes = before ++ rest ∧ before.length = pos

variable {bytes} {pos} {whole part rest : List UInt8} {size width value : Nat} {what : String}
  {parts found : CoreParts} {α : Type} {result : α}

lemma mapError_eq_ok {written : Except String α} {wrap : String → String} :
    written.mapError wrap = .ok result ↔ written = .ok result := by
  cases written <;> simp [Except.mapError]

lemma At.behind (here : At whole pos (part ++ rest)) : At whole (pos + part.length) rest := by
  obtain ⟨before, rfl, rfl⟩ := here
  exact ⟨before ++ part, by simp, length_append⟩

lemma At.behindNumber (here : At whole pos (encode width value ++ rest)) :
    At whole (pos + width) rest := by
  have next := here.behind
  rwa [length_encode] at next

/-- A part of the file holds what the whole file does, up to where it ends. -/
lemma getRange_bind_eq_ok (begins : bytes <+: whole) (here : At whole pos (part ++ rest))
    (size_eq : part.length = size) {next} :
    getRange bytes pos size what >>= next = .ok result ↔
      pos + size ≤ bytes.length ∧ next part = .ok result := by
  obtain ⟨⟨cut, split⟩, before, rfl, rfl⟩ := And.intro begins here
  subst size_eq
  unfold getRange
  split_ifs with within
  · have same : (bytes.drop before.length).take part.length = part := by
      rw [← take_append_of_le_length (by rw [length_drop]; omega),
        ← drop_append_of_le_length (by omega), split, drop_left, take_left]
    rw [same, and_iff_right within]
    rfl
  · exact ⟨fun read => (by cases read), fun held => absurd held.1 within⟩

lemma readNumber_bind_eq_ok (begins : bytes <+: whole)
    (here : At whole pos (encode width value ++ rest)) (fits : value < 256 ^ width)
    {next} :
    readNumber bytes pos width what >>= next = .ok result ↔
      pos + width ≤ bytes.length ∧ next value = .ok result := by
  rw [readNumber, bind_assoc, getRange_bind_eq_ok begins here (length_encode ..), pure_bind,
    decode_encode fits]

lemma length_toBytes (parts : CoreParts) :
    parts.toBytes.length = 37 + parts.hs.length + parts.cs.length := by
  simp only [CoreParts.toBytes, stateMagic, length_append, length_cons, length_nil, length_encode]
  omega

/-- Of all that a file begins with, only the file itself is read. -/
lemma readParts_eq_ok (fits : parts.Fits) (begins : bytes <+: parts.toBytes) :
    readParts bytes = .ok found ↔ bytes = parts.toBytes ∧ found = parts := by
  have size := length_toBytes parts
  have ⟨cut, split⟩ := begins
  unfold readParts
  split_ifs with bad unsupported
  · refine ⟨fun read => (by cases read), fun same => ?_⟩
    rw [same.1] at bad
    exact bad.elim (by omega) (absurd rfl)
  · refine ⟨fun read => (by cases read), fun same => ?_⟩
    rw [same.1] at unsupported
    exact absurd rfl unsupported
  · have start : At parts.toBytes 5 _ := ⟨stateMagic ++ [stateVersion], rfl, rfl⟩
    have at_hs := start.behindNumber
    have at_cs := at_hs.behind.behindNumber
    have at_index := at_cs.behind
    simp only [readU32, readU64]
    rw [readNumber_bind_eq_ok begins start fits.hs, getRange_bind_eq_ok begins at_hs rfl,
      readNumber_bind_eq_ok begins at_hs.behind fits.cs, getRange_bind_eq_ok begins at_cs rfl,
      readNumber_bind_eq_ok begins at_index fits.snapshotIndex,
      readNumber_bind_eq_ok begins at_index.behindNumber fits.snapshotTerm,
      readNumber_bind_eq_ok begins at_index.behindNumber.behindNumber fits.durableLastIndex]
    constructor
    · rintro ⟨-, -, -, -, -, -, within, returned⟩
      cases returned
      exact ⟨begins.eq_of_length_le (by omega), rfl⟩
    · rintro ⟨rfl, rfl⟩
      refine ⟨?_, ?_, ?_, ?_, ?_, ?_, ?_, rfl⟩ <;> omega

/-- A core that could be encoded is read back as its image, and no proper prefix of the file is
read. -/
theorem decodeCore_encodeCore {hardStates : Protobuf HardState} {confStates : Protobuf ConfState}
    {core : PersistedCore} (wide : core.Wide)
    (encoded : encodeCore hardStates confStates core = .ok bytes) :
    decodeCore bytes hardStates confStates = .ok core.image ∧
    ∀ part, part <+: bytes → part ≠ bytes →
      ∃ error, decodeCore part hardStates confStates = .error error := by
  obtain ⟨hs, hs_written, encoded⟩ := bind_eq_ok.mp encoded
  obtain ⟨cs, cs_written, encoded⟩ := bind_eq_ok.mp encoded
  rw [mapError_eq_ok] at hs_written cs_written
  cases encoded
  have fits : CoreParts.Fits ⟨hs, cs, core.snapshotIndex, core.snapshotTerm,
      core.image.durableLastIndex⟩ :=
    ⟨hardStates.computeSize_lt hs_written, confStates.computeSize_lt cs_written,
      wide.snapshotIndex, wide.snapshotTerm,
      Nat.lt_of_le_of_lt (Nat.min_le_left ..) wide.durableLastIndex⟩
  refine ⟨?_, fun part begins differs => ?_⟩
  · refine bind_eq_ok.mpr ⟨_, (readParts_eq_ok fits prefix_rfl).mpr ⟨rfl, rfl⟩, ?_⟩
    refine bind_eq_ok.mpr ⟨_, mapError_eq_ok.mpr (hardStates.round_trip hs_written), ?_⟩
    exact bind_eq_ok.mpr ⟨_, mapError_eq_ok.mpr (confStates.round_trip cs_written), rfl⟩
  · cases decoded : decodeCore part hardStates confStates with
    | error error => exact ⟨error, rfl⟩
    | ok =>
      obtain ⟨found, read, -⟩ := bind_eq_ok.mp decoded
      exact absurd ((readParts_eq_ok fits begins).mp read).1 differs

/-- A message with one value that can be encoded. -/
def Protobuf.single [DecidableEq α] (value : α) (bytes : List UInt8)
    (short : bytes.length < 2 ^ 32) : Protobuf α where
  writeToBytes other := if other = value then .ok bytes else .error "unsupported"
  mergeFromBytes read := if read = bytes then .ok value else .error "unsupported"
  round_trip written := by
    split_ifs at written with same
    cases written
    rw [if_pos rfl, same]
  computeSize_lt written := by
    split_ifs at written
    cases written
    exact short

/-- The hard state and the conf state of the witness, in the bytes that protobuf gives them. -/
theorem decodeCore_encodeCore_ahead :
    let core : PersistedCore := ⟨⟨1, 2, 3⟩, .default, 4, 1, 9, 7⟩
    let hardStates := Protobuf.single core.hardState [8, 1, 16, 2, 24, 3] (by decide)
    let confStates := Protobuf.single core.confState [] (by decide)
    ∃ bytes, bytes.length = 43 ∧
      decodeCore bytes hardStates confStates = .ok { core with lastValidIndex := 7 } ∧
      ∃ error, decodeCore (bytes.take 42) hardStates confStates = .error error := by
  intro core hardStates confStates
  have shown := @decodeCore_encodeCore _ hardStates confStates core
    ⟨by decide, by decide, by decide⟩ rfl
  exact ⟨_, rfl, shown.1, shown.2 _ ⟨_, List.take_append_drop ..⟩ (by decide)⟩

end Catga.Raft.Storage
