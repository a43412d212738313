import Catga.Flow.TimeWire

/-!
# Times in two SQL columns

A time is stored as its milliseconds and the nanoseconds above them, rounded down before the epoch.
-/

namespace Catga.Flow

def timestampError : CatgaError :=
  ⟨.validation, "flow timestamp exceeds signed milliseconds"⟩

/-- `i64::try_from` and the checked operations on `i64`. -/
def checkedMillis (value : Int) : CatgaResult Int :=
  if -2 ^ 63 ≤ value ∧ value < 2 ^ 63 then .ok value else .error timestampError

def unixMillisAndSubsecNanos (time : SystemTime) : CatgaResult (Int × Int) := do
  let distance := time.nanos.natAbs
  let milliseconds ← checkedMillis (distance / 1000000)
  let remainder : Int := distance % nanosPerSecond % 1000000
  if 0 ≤ time.nanos then return (milliseconds, remainder)
  else if remainder = 0 then return (← checkedMillis (-milliseconds), 0)
  else
    let next ← checkedMillis (milliseconds + 1)
    return (← checkedMillis (-next), 1000000 - remainder)

def SystemTime.checkedSql (nanos : Int) : CatgaResult SystemTime :=
  (SystemTime.checked nanos).elim (.error timestampError) .ok

def systemTimeFromUnixMillis (value : Int) : CatgaResult SystemTime :=
  SystemTime.checkedSql (value * 1000000)

def systemTimeFromUnixMillisAndSubsecNanos (milliseconds subsecNanos : Int) :
    CatgaResult SystemTime :=
  if 0 ≤ subsecNanos ∧ subsecNanos < 1000000 then do
    let time ← systemTimeFromUnixMillis milliseconds
    SystemTime.checkedSql (time.nanos + subsecNanos)
  else .error timestampError

lemma checkedMillis_ok {value found} (checked : checkedMillis value = .ok found) :
    found = value := by
  rw [checkedMillis] at checked
  split_ifs at checked
  exact (Except.ok.inj checked).symm

lemma SystemTime.checkedSql_nanos (time : SystemTime) : checkedSql time.nanos = .ok time := by
  rw [checkedSql, checked, dif_pos ⟨time.lower, time.upper⟩, Option.elim_some]

/-- The columns are the quotient, rounded down, and the remainder. -/
lemma nanos_eq_columns {time columns} (stored : unixMillisAndSubsecNanos time = .ok columns) :
    time.nanos = columns.1 * 1000000 + columns.2 ∧ 0 ≤ columns.2 ∧ columns.2 < 1000000 := by
  obtain ⟨milliseconds, scaled, stored⟩ := bind_eq_ok.mp stored
  obtain rfl := checkedMillis_ok scaled
  dsimp only [nanosPerSecond] at stored
  split_ifs at stored
  · obtain rfl := Except.ok.inj stored
    omega
  · obtain ⟨_, negated, stored⟩ := bind_eq_ok.mp stored
    obtain rfl := checkedMillis_ok negated
    obtain rfl := Except.ok.inj stored
    omega
  · obtain ⟨_, added, stored⟩ := bind_eq_ok.mp stored
    obtain rfl := checkedMillis_ok added
    obtain ⟨_, negated, stored⟩ := bind_eq_ok.mp stored
    obtain rfl := checkedMillis_ok negated
    obtain rfl := Except.ok.inj stored
    omega

theorem columns_exact_and_ordered (time time' : SystemTime) (columns columns' : Int × Int)
    (stored : unixMillisAndSubsecNanos time = .ok columns)
    (stored' : unixMillisAndSubsecNanos time' = .ok columns') :
    systemTimeFromUnixMillisAndSubsecNanos columns.1 columns.2 = .ok time ∧
    0 ≤ columns.2 ∧ columns.2 < 1000000 ∧
    (time.nanos < time'.nanos ↔
      columns.1 < columns'.1 ∨ columns.1 = columns'.1 ∧ columns.2 < columns'.2) := by
  obtain ⟨nanos, bounds⟩ := nanos_eq_columns stored
  obtain ⟨nanos', bounds'⟩ := nanos_eq_columns stored'
  have lower := time.lower
  have upper := time.upper
  refine ⟨?_, bounds.1, bounds.2, by omega⟩
  let floor : SystemTime := ⟨columns.1 * 1000000, by omega, by omega⟩
  have floored : systemTimeFromUnixMillis columns.1 = .ok floor := floor.checkedSql_nanos
  rw [systemTimeFromUnixMillisAndSubsecNanos, if_pos bounds, floored]
  exact (congrArg SystemTime.checkedSql nanos.symm).trans time.checkedSql_nanos

/-- One nanosecond before the epoch and the epoch. -/
theorem columns_exact_at_epoch :
    systemTimeFromUnixMillisAndSubsecNanos (-1) 999999 = .ok ⟨-1, by decide, by decide⟩ :=
  (columns_exact_and_ordered ⟨-1, by decide, by decide⟩ ⟨0, by decide, by decide⟩ (-1, 999999)
    (0, 0) (by decide +kernel) (by decide +kernel)).1

end Catga.Flow
