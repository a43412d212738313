import Catga.Codec.Varint

/-!
# Decoding dates

A tick is 100 nanoseconds.  Instants are nanoseconds of the Unix epoch, dates are days of year 1.
-/

namespace Catga.Codec.Dates

open Metered Varint

variable {α β : Type}

/-- The Unix epoch in ticks of year 1. -/
def DOTNET_EPOCH_TICKS : Int := 621355968000000000

/-- What `deserialize` reads and what it computes from that; none is an overflow, which panics or
wraps. -/
structure Decoder (α β : Type) where
  reads : Reader α
  compute : α → Option (Except MemoryPackError β)

def Decoder.deserialize (decoder : Decoder α β) (input : Input UInt8) :
    Option (Except MemoryPackError β) :=
  match decoder.reads input with
  | .error error => some (.error error)
  | .ok (value, _) => decoder.compute value

/-- `read_i64`. -/
def readI64 : Reader Int64 := Int64.ofNat <$> readUnsigned 8

/-- The range of an `i64`. -/
abbrev Fits (value : Int) : Prop := -2 ^ 63 ≤ value ∧ value < 2 ^ 63

/-- The result of unchecked `i64` arithmetic. -/
def i64 (value : Int) : Option Int := if Fits value then some value else none

/-- `saturating_mul` of an `i64`. -/
def saturatingMul (x y : Int) : Int := max (-2 ^ 63) (min (x * y) (2 ^ 63 - 1))

/-- `TimeDelta`, in nanoseconds. -/
def timeDelta : Decoder Int64 Int where
  reads := readI64
  compute ticks := (i64 (ticks.toInt * 100)).map .ok

/-- `DateTime<Utc>`; the kind of the time is masked out. -/
def dateTimeUtc : Decoder Int64 Int where
  reads := readI64
  compute ticks := (i64 (ticks.toInt % 2 ^ 62 - DOTNET_EPOCH_TICKS)).map fun since =>
    .ok (saturatingMul since 100)

/-- `DateTime<FixedOffset>`: the instant, and the offset in seconds. -/
def dateTimeFixedOffset : Decoder (Int16 × Int64) (Int × Int) where
  reads := do
    let offset ← readUnsigned 2
    let _ ← take .io 6
    let ticks ← readI64
    pure (.ofNat offset, ticks)
  compute := fun (offset, ticks) => (i64 (ticks.toInt - DOTNET_EPOCH_TICKS)).map fun since =>
    let seconds := offset.toInt * 60
    if -86400 < seconds ∧ seconds < 86400 then .ok (saturatingMul since 100, seconds)
    else .error (.deserializationError "Invalid offset")

/-- What `from_num_seconds_from_midnight_opt` accepts. -/
def validTime (secs nanos : Nat) : Prop :=
  (secs < 86400 ∧ nanos < 2000000000) ∧ (nanos < 1000000000 ∨ secs % 60 = 59)
deriving Decidable

/-- `NaiveTime`: the second of the day and its nanosecond, both cast to `u32`. -/
def naiveTime : Decoder Int64 (Nat × Nat) where
  reads := readI64
  compute ticks := (i64 (ticks.toInt * 100)).elim
    (some (.error (.deserializationError "Invalid time ticks"))) fun total =>
      let secs := unsigned 4 (total.tdiv 1000000000)
      let nanos := unsigned 4 (total.tmod 1000000000)
      some (if validTime secs nanos then .ok (secs, nanos)
        else .error (.deserializationError "Invalid time ticks"))

/-- `NaiveDate`; `last` is the last day of the calendar. -/
def naiveDate (last : Nat) : Decoder Int32 Nat where
  reads := Int32.ofNat <$> readUnsigned 4
  compute days := some (if unsigned 8 days.toInt ≤ last then .ok (unsigned 8 days.toInt)
    else .error (.deserializationError "Invalid date"))

/-- An answer without an overflow; a value is the exact result in the range of the target type. -/
def Right (exact : Option β) : Option (Except MemoryPackError β) → Prop
  | none => False
  | some (.ok decoded) => exact = some decoded
  | some (.error _) => True

/-- What is read gets a right answer just when it is as given. -/
def Decoder.Exact (decoder : Decoder α β) (exact : α → Option β) (given : α → Prop) : Prop :=
  ∀ input, match decoder.reads input with
    | .error error => decoder.deserialize input = some (.error error)
    | .ok (value, _) => Right (exact value) (decoder.deserialize input) ↔ given value

lemma Decoder.exact_of_compute {exact : α → Option β} {given : α → Prop} (decoder : Decoder α β)
    (computes : ∀ value, Right (exact value) (decoder.compute value) ↔ given value) :
    decoder.Exact exact given := by
  intro input
  cases read : decoder.reads input with
  | error error => simp [deserialize, read]
  | ok pair => simpa [deserialize, read] using computes pair.1

lemma right_map {exact : Option β} {value : Int} {answer : Int → Except MemoryPackError β} :
    Right exact ((i64 value).map answer) ↔ Fits value ∧ Right exact (some (answer value)) := by
  unfold i64
  split_ifs with fits
  · exact (and_iff_right fits).symm
  · exact (iff_false_left (fun right => right)).mpr fun right => fits right.1

lemma right_ite {exact : Option β} {condition : Prop} [Decidable condition] {value error} :
    Right exact (some (if condition then .ok value else .error error)) ↔
      (condition → exact = some value) := by
  split_ifs with holds
  · simp [Right, holds]
  · simp [Right, holds]

lemma saturatingMul_eq {x y : Int} : saturatingMul x y = x * y ↔ Fits (x * y) := by
  simp only [saturatingMul, Fits]
  omega

/-- The second and the nanosecond of the day at a tick. -/
def timeOfDay (ticks : Int) : Option (Nat × Nat) :=
  if 0 ≤ ticks ∧ ticks < 864000000000 then
    some ((ticks / 10000000).toNat, (ticks % 10000000 * 100).toNat)
  else none

section

variable {ticks : Int} {secs nanos : Nat}
  (secs_eq : secs = unsigned 4 ((ticks * 100).tdiv 1000000000))
  (nanos_eq : nanos = unsigned 4 ((ticks * 100).tmod 1000000000))
include secs_eq nanos_eq

lemma time_of_nonneg (nonneg : 0 ≤ ticks) :
    secs = (ticks / 10000000 % 4294967296).toNat ∧ nanos = (ticks % 10000000 * 100).toNat := by
  rw [Int.tdiv_eq_ediv_of_nonneg (by omega), unsigned,
    show ticks * 100 / 1000000000 = ticks / 10000000 by omega] at secs_eq
  rw [Int.tmod_eq_emod_of_nonneg (by omega), unsigned,
    show ticks * 100 % 1000000000 = ticks % 10000000 * 100 by omega] at nanos_eq
  omega

/-- The seconds are cast, so that multiples of `2 ^ 32` seconds are lost; a negative remainder is
cast to more than two seconds. -/
lemma validTime_iff : validTime secs nanos ↔
    (0 ≤ ticks ∨ ticks % 10000000 = 0) ∧ ticks / 10000000 % 4294967296 < 86400 := by
  unfold validTime
  by_cases nonneg : 0 ≤ ticks
  · obtain ⟨rfl, rfl⟩ := time_of_nonneg secs_eq nanos_eq nonneg
    omega
  by_cases whole : ticks % 10000000 = 0
  · have total : ticks * 100 = 1000000000 * (ticks / 10000000) := by omega
    rw [total, Int.mul_tdiv_cancel_left _ (by decide), unsigned] at secs_eq
    rw [total, Int.mul_tmod_right, unsigned, Int.zero_emod] at nanos_eq
    omega
  · have cast : 2000000000 ≤ nanos := by
      rw [← Int.neg_neg (ticks * 100), Int.neg_tmod, Int.tmod_eq_emod_of_nonneg (by omega),
        unsigned] at nanos_eq
      have rest : 0 < -(ticks * 100) % 1000000000 ∧ -(ticks * 100) % 1000000000 < 1000000000 := by
        omega
      revert nanos_eq
      generalize -(ticks * 100) % 1000000000 = remainder at rest
      omega
    omega

lemma time_exact : (validTime secs nanos → timeOfDay ticks = some (secs, nanos)) ↔
    ((0 ≤ ticks ∨ ticks % 10000000 = 0) ∧ ticks / 10000000 % 4294967296 < 86400 →
      0 ≤ ticks ∧ ticks < 864000000000) := by
  refine imp_congr (validTime_iff secs_eq nanos_eq) ?_
  unfold timeOfDay
  split_ifs with inside
  · obtain ⟨rfl, rfl⟩ := time_of_nonneg secs_eq nanos_eq inside.1
    have whole : ticks / 10000000 % 4294967296 = ticks / 10000000 :=
      Int.emod_eq_of_lt (by omega) (by omega)
    rw [whole]
    exact iff_of_true rfl inside
  · exact iff_of_false (by simp) inside

end

/-- Every tick count is a duration and an instant of the calendar. -/
theorem decoders_exact (last : Nat) (lt : last < 2 ^ 31) :
    timeDelta.Exact (fun ticks => some (ticks.toInt * 100))
      (fun ticks => Fits (ticks.toInt * 100)) ∧
    dateTimeUtc.Exact
      (fun ticks => some ((ticks.toInt % 2 ^ 62 - DOTNET_EPOCH_TICKS) * 100))
      (fun ticks => Fits ((ticks.toInt % 2 ^ 62 - DOTNET_EPOCH_TICKS) * 100)) ∧
    dateTimeFixedOffset.Exact
      (fun (offset, ticks) => if -1440 < offset.toInt ∧ offset.toInt < 1440 then
        some ((ticks.toInt - DOTNET_EPOCH_TICKS) * 100, offset.toInt * 60) else none)
      (fun (offset, ticks) => Fits (ticks.toInt - DOTNET_EPOCH_TICKS) ∧
        (-1440 < offset.toInt ∧ offset.toInt < 1440 →
          Fits ((ticks.toInt - DOTNET_EPOCH_TICKS) * 100))) ∧
    naiveTime.Exact (fun ticks => timeOfDay ticks.toInt)
      (fun ticks => Fits (ticks.toInt * 100) → (0 ≤ ticks.toInt ∨ ticks.toInt % 10000000 = 0) ∧
        ticks.toInt / 10000000 % 4294967296 < 86400 →
        0 ≤ ticks.toInt ∧ ticks.toInt < 864000000000) ∧
    (naiveDate last).Exact
      (fun days => if 0 ≤ days.toInt ∧ days.toInt ≤ last then some days.toInt.toNat else none)
      (fun _ => True) := by
  refine ⟨timeDelta.exact_of_compute fun ticks => ?_, dateTimeUtc.exact_of_compute fun ticks => ?_,
    dateTimeFixedOffset.exact_of_compute fun (offset, ticks) => ?_,
    naiveTime.exact_of_compute fun ticks => ?_, (naiveDate last).exact_of_compute fun days => ?_⟩
  · exact right_map.trans (and_iff_left rfl)
  · have fits : Fits (ticks.toInt % 2 ^ 62 - DOTNET_EPOCH_TICKS) := by
      simp only [Fits, DOTNET_EPOCH_TICKS]
      omega
    rw [← saturatingMul_eq]
    exact right_map.trans ((and_iff_right fits).trans ((Option.some.injEq ..).to_iff.trans eq_comm))
  · refine right_map.trans (and_congr_right fun _ => right_ite.trans ?_)
    dsimp only
    rw [← saturatingMul_eq]
    refine (imp_congr_right fun accepted => ?_).trans (imp_congr_left (by omega))
    rw [if_pos (by omega)]
    simp [eq_comm]
  · by_cases fits : Fits (ticks.toInt * 100)
    · rw [imp_iff_right fits, ← time_exact rfl rfl]
      simp only [naiveTime, i64, if_pos fits, Option.elim_some]
      exact right_ite
    · exact iff_of_true (by simp [naiveTime, i64, if_neg fits, Right]) fun fits' =>
        absurd fits' fits
  · refine right_ite.trans ((iff_true _).mpr fun accepted => ?_)
    have lower := days.le_toInt
    have upper := days.toInt_lt
    rw [unsigned] at accepted
    rw [if_pos (by omega), unsigned]
    congr 1
    omega

theorem midnight_refused : Right (timeOfDay 864000000000)
    (naiveTime.deserialize ⟨[0, 192, 105, 42, 201, 0, 0, 0], 0⟩) :=
  ((decoders_exact 95745398 (by decide)).2.2.2.1
    ⟨[0, 192, 105, 42, 201, 0, 0, 0], 0⟩).mpr (by decide)

/-- A product and a difference overflow, the year 1 is decoded as the first instant that fits in an
`i64`, and 2 ^ 32 seconds as midnight. -/
theorem ticks_overflow :
    timeDelta.deserialize ⟨[255, 255, 255, 255, 255, 255, 255, 127], 0⟩ = none ∧
    dateTimeFixedOffset.deserialize
      ⟨[0, 0, 0, 0, 0, 0, 0, 0, 0, 0, 0, 0, 0, 0, 0, 128], 0⟩ = none ∧
    dateTimeUtc.deserialize ⟨[0, 0, 0, 0, 0, 0, 0, 0], 0⟩ = some (.ok (-2 ^ 63)) ∧
    naiveTime.deserialize ⟨[0, 0, 0, 0, 128, 150, 152, 0], 0⟩ = some (.ok (0, 0)) :=
  ⟨rfl, rfl, rfl, rfl⟩

end Catga.Codec.Dates
