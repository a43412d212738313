import Catga.Codec.Footprint

/-!
# Wire records of times and durations

A point in time is written as its distance from the epoch with the side it lies on, a duration as
seconds and nanoseconds.  Reading a time checks its nanoseconds and its range; reading a duration
does neither, and `Duration::new` does not return if the seconds overflow.
-/

namespace Catga.Flow

open Codec Format

def nanosPerSecond : Nat := 1000000000

/-- A point in time in nanoseconds since the epoch, with 64-bit signed seconds. -/
structure SystemTime where
  nanos : Int
  lower : -(2 ^ 63 * 1000000000) ≤ nanos
  upper : nanos < 2 ^ 63 * 1000000000

/-- The time a number of nanoseconds from the epoch, if it can be represented. -/
def SystemTime.checked (nanos : Int) : Option SystemTime :=
  if inRange : -(2 ^ 63 * 1000000000) ≤ nanos ∧ nanos < 2 ^ 63 * 1000000000 then
    some ⟨nanos, inRange.1, inRange.2⟩
  else none

structure Duration where
  seconds : UInt64
  nanos : UInt32
  nanos_lt : nanos.toNat < nanosPerSecond

lemma toNat_rest (nanos : Nat) :
    (UInt32.ofNat (nanos % nanosPerSecond)).toNat = nanos % nanosPerSecond := by
  have small : nanos % nanosPerSecond < nanosPerSecond := Nat.mod_lt _ (by decide)
  refine UInt32.toNat_ofNat_of_lt' (lt_trans small ?_)
  decide

/-- `Duration::new`; `none` where it panics. -/
def Duration.new (seconds : UInt64) (nanos : UInt32) : Option Duration :=
  if below : nanos.toNat < nanosPerSecond then some ⟨seconds, nanos, below⟩
  else if seconds.toNat + nanos.toNat / nanosPerSecond < 2 ^ 64 then
    some ⟨.ofNat (seconds.toNat + nanos.toNat / nanosPerSecond),
      .ofNat (nanos.toNat % nanosPerSecond),
      by rw [toNat_rest]; exact Nat.mod_lt _ (by decide)⟩
  else none

/-- A `SystemTime` on the wire. -/
structure TimeWire where
  beforeEpoch : Bool
  seconds : UInt64
  nanoseconds : UInt32

structure DurationWire where
  seconds : UInt64
  nanoseconds : UInt32

def TimeWire.default : TimeWire := ⟨false, 0, 0⟩

def DurationWire.default : DurationWire := ⟨0, 0⟩

def encodeTime (time : SystemTime) : TimeWire where
  beforeEpoch := decide (time.nanos < 0)
  seconds := .ofNat (time.nanos.natAbs / nanosPerSecond)
  nanoseconds := .ofNat (time.nanos.natAbs % nanosPerSecond)

def decodeTime (wire : TimeWire) : Except MemoryPackError SystemTime :=
  if nanosPerSecond ≤ wire.nanoseconds.toNat then
    .error (.deserializationError "flow timestamp nanoseconds are out of range")
  else
    let distance : Int := wire.seconds.toNat * nanosPerSecond + wire.nanoseconds.toNat
    match SystemTime.checked (if wire.beforeEpoch then -distance else distance) with
    | some time => .ok time
    | none => .error (.deserializationError "flow timestamp is out of range")

def encodeDuration (duration : Duration) : DurationWire := ⟨duration.seconds, duration.nanos⟩

/-- `decode_duration`; `none` where it panics. -/
def decodeDuration (wire : DurationWire) : Option Duration :=
  Duration.new wire.seconds wire.nanoseconds

lemma decodeTime_encodeTime (time) : decodeTime (encodeTime time) = .ok time := by
  have lower := time.lower
  have upper := time.upper
  have rest_lt : time.nanos.natAbs % nanosPerSecond < nanosPerSecond := Nat.mod_lt _ (by decide)
  have seconds_eq : (encodeTime time).seconds.toNat = time.nanos.natAbs / nanosPerSecond := by
    refine UInt64.toNat_ofNat_of_lt' ?_
    simp only [nanosPerSecond, UInt64.size]
    omega
  have rest_eq : (encodeTime time).nanoseconds.toNat = time.nanos.natAbs % nanosPerSecond :=
    toNat_rest _
  have distance_eq : ((time.nanos.natAbs / nanosPerSecond : Nat) : Int) * nanosPerSecond +
      (time.nanos.natAbs % nanosPerSecond : Nat) = time.nanos.natAbs := by
    simp only [nanosPerSecond]
    omega
  have signed : (if (encodeTime time).beforeEpoch then -(time.nanos.natAbs : Int)
      else time.nanos.natAbs) = time.nanos := by
    simp only [encodeTime, decide_eq_true_eq]
    split <;> omega
  simp only [decodeTime, seconds_eq, rest_eq, distance_eq, signed, if_neg (not_le.mpr rest_lt)]
  rw [SystemTime.checked, dif_pos ⟨lower, upper⟩]

lemma decodeDuration_encodeDuration (duration) :
    decodeDuration (encodeDuration duration) = some duration := dif_pos duration.nanos_lt

lemma decodeDuration_eq_none {wire : DurationWire} :
    decodeDuration wire = none ↔
      2 ^ 64 ≤ wire.seconds.toNat + wire.nanoseconds.toNat / nanosPerSecond := by
  have seconds_lt := wire.seconds.toNat_lt
  simp only [decodeDuration, Duration.new]
  split
  · rename_i below
    rw [Nat.div_eq_of_lt below]
    simp only [reduceCtorEq, false_iff]
    omega
  · split_ifs with representable
    · simp only [false_iff]
      omega
    · simp only [true_iff]
      omega

def TimeWire.format : Format TimeWire :=
  .object 3 ((Format.bool.pair (Format.u64.pair Format.u32)).convert
    (fun wire => (wire.beforeEpoch, wire.seconds, wire.nanoseconds))
    fun (beforeEpoch, seconds, nanoseconds) => .ok { beforeEpoch, seconds, nanoseconds })

def DurationWire.format : Format DurationWire :=
  .object 2 ((Format.u64.pair Format.u32).convert (fun wire => (wire.seconds, wire.nanoseconds))
    fun (seconds, nanoseconds) => .ok { seconds, nanoseconds })

@[simp] lemma TimeWire.format_lossless : TimeWire.format.Lossless :=
  object_lossless (by decide) (convert_lossless (by (repeat' apply pair_lossless) <;> simp)
    fun _ => rfl)

@[simp] lemma DurationWire.format_lossless : DurationWire.format.Lossless :=
  object_lossless (by decide) (convert_lossless (by (repeat' apply pair_lossless) <;> simp)
    fun _ => rfl)

lemma TimeWire.format_occupies : TimeWire.format.Occupies (fun _ => { fixed := 14 }) 1 :=
  occupies_plain (fun _ => rfl) fun _ => rfl

lemma DurationWire.format_occupies : DurationWire.format.Occupies (fun _ => { fixed := 13 }) 1 :=
  occupies_plain (fun _ => rfl) fun _ => rfl

@[simp] lemma TimeWire.accepts_format (wire) : TimeWire.format.Accepts wire := ⟨_, rfl⟩

@[simp] lemma DurationWire.accepts_format (wire) :
    DurationWire.format.Accepts wire := ⟨_, rfl⟩

end Catga.Flow
