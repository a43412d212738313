import Mathlib.Data.Nat.Basic

/-!
# Layout of the split log

The shape of the log forgets the entries and keeps where they lie: the snapshot marker, the visible
tail, the run stored in raft-engine and the run pending in the overlay.  The shape is covered when
the two runs leave no hole between the marker and the tail.
-/

namespace Catga.Raft.Storage

/-- Where the parts of the log lie. -/
structure Layout where
  snapshot : Nat
  last : Nat
  first : Nat
  stored : Nat
  offset : Nat
  pending : Nat

namespace Layout

variable (layout : Layout)

/-- Every index above the marker up to the tail, from the first stored one on, lies in one of the
two runs. -/
structure Covered : Prop where
  snapshot_le : layout.snapshot ≤ layout.last
  pending_ends : 0 < layout.pending →
    layout.snapshot < layout.offset ∧ layout.offset + layout.pending = layout.last + 1
  stored_starts : 0 < layout.stored →
    layout.snapshot < layout.first ∧ layout.first ≤ layout.last + 1
  joined : 0 < layout.pending → 0 < layout.stored →
    layout.offset ≤ layout.first + layout.stored
  pending_alone : 0 < layout.pending → layout.stored = 0 → layout.offset = layout.snapshot + 1
  stored_alone : layout.pending = 0 → 0 < layout.stored →
    layout.last < layout.first + layout.stored
  bare : layout.pending = 0 → layout.stored = 0 → layout.last = layout.snapshot

/-- A copied run that begins at `start` can be written without a hole. -/
structure Writable (start : Nat) : Prop where
  above : layout.snapshot < start
  pending_before : 0 < layout.pending → layout.offset ≤ start
  last_before : layout.pending = 0 → layout.last < start
  first_write : layout.stored = 0 → start = layout.snapshot + 1
  reaches : 0 < layout.stored → start ≤ layout.first + layout.stored

variable (start count : Nat)

/-- A written run is stored unless a snapshot has reached it. -/
def Kept : Prop :=
  layout.snapshot < start →
    0 < layout.stored ∧ start + count ≤ layout.first + layout.stored

def low : Nat :=
  if layout.stored = 0 then layout.snapshot + 1 else layout.first

variable (index : Nat)

/-- A visible index that the overlay does not hold. -/
def InEngine : Prop :=
  layout.snapshot < index ∧ index ≤ layout.last ∧ (layout.pending = 0 ∨ index < layout.offset)

def append : Layout :=
  if layout.pending = 0 ∨ start ≤ layout.offset then
    { layout with offset := start, pending := count, last := start + count - 1 }
  else
    { layout with pending := start - layout.offset + count, last := start + count - 1 }

def compact : Layout :=
  { layout with
    first := layout.first + (index - layout.first)
    stored := layout.stored - (index - layout.first) }

def install : Layout :=
  { layout.compact (index + 1) with
    snapshot := index, last := index, offset := 0, pending := 0 }

def drain (count : Nat) : Layout :=
  { layout with
    offset := if layout.pending ≤ count then 0 else layout.offset + count
    pending := layout.pending - count }

/-- Move the marker up to `index` and drop what it covers. -/
def record : Layout :=
  { (if 0 < layout.pending ∧ layout.offset ≤ index then
      layout.drain (min (index + 1 - layout.offset) layout.pending)
    else layout).compact (index + 1) with
    snapshot := max layout.snapshot index }

/-- Store `count` entries from `start` on in place of what was stored there. -/
def write : Layout :=
  if layout.stored = 0 ∨ start < layout.first then
    { layout with first := start, stored := count }
  else { layout with stored := start - layout.first + count }

variable {layout : Layout} {start count index : Nat}

section

variable (covered : layout.Covered)
include covered

/-- A visible index lies above the marker, and in the overlay or below it in raft-engine. -/
lemma Covered.locate (low_le : layout.low ≤ index) (le_last : index ≤ layout.last) :
    layout.snapshot < index ∧
      (0 < layout.pending ∧ layout.offset ≤ index ∧ index < layout.offset + layout.pending ∨
        (layout.pending = 0 ∨ index < layout.offset) ∧ 0 < layout.stored ∧
          layout.first ≤ index ∧ index < layout.first + layout.stored) := by
  obtain ⟨_, _, _, _, _, _, _⟩ := covered
  unfold low at low_le
  split at low_le <;> omega

lemma Covered.low_bounds : layout.snapshot < layout.low ∧ layout.low ≤ layout.last + 1 := by
  obtain ⟨_, _, _, _, _, _, _⟩ := covered
  unfold low
  split <;> omega

lemma Covered.append (count_pos : 0 < count) (low_le : layout.low ≤ start)
    (le_last : start ≤ layout.last + 1) : (layout.append start count).Covered := by
  obtain ⟨_, _, _, _, _, _, _⟩ := covered
  unfold low at low_le
  unfold Layout.append
  split <;> split at low_le <;> constructor <;> dsimp only <;> omega

lemma Covered.compact (low_lt : layout.low < index) (le_last : index ≤ layout.last + 1)
    (within : layout.stored = 0 ∨ index < layout.first + layout.stored) :
    (layout.compact index).Covered := by
  obtain ⟨_, _, _, _, _, _, _⟩ := covered
  unfold low at low_lt
  unfold Layout.compact
  split at low_lt <;> constructor <;> dsimp only <;> omega

lemma Covered.install (low_le : layout.low ≤ index) : (layout.install index).Covered := by
  obtain ⟨_, _, _, _, _, _, _⟩ := covered
  unfold low at low_le
  unfold Layout.install Layout.compact
  split at low_le <;> constructor <;> dsimp only <;> omega

lemma Covered.record (snapshot_le : layout.snapshot ≤ index) (le_last : index ≤ layout.last) :
    (layout.record index).Covered := by
  obtain ⟨_, _, _, _, _, _, _⟩ := covered
  unfold Layout.record Layout.compact Layout.drain
  split_ifs <;> constructor <;> dsimp only <;> omega

lemma Covered.write (writable : layout.Writable start) (count_pos : 0 < count) :
    (layout.write start count).Covered := by
  obtain ⟨_, _, _, _, _, _, _⟩ := covered
  obtain ⟨_, _, _, _, _⟩ := writable
  unfold Layout.write
  split <;> constructor <;> dsimp only <;> omega

lemma Covered.drain (kept : layout.Kept start count) (aligned : layout.offset = start)
    (enough : count ≤ layout.pending) : (layout.drain count).Covered := by
  obtain ⟨_, _, _, _, _, _, _⟩ := covered
  unfold Kept at kept
  unfold Layout.drain
  split_ifs <;> constructor <;> dsimp only <;> omega

lemma Writable.of_prefix (pending : 0 < layout.pending) : layout.Writable layout.offset := by
  obtain ⟨_, _, _, _, _, _, _⟩ := covered
  constructor <;> omega

end

section

variable (writable : layout.Writable start)
include writable

lemma Writable.append {appended added} (le_last : appended ≤ layout.last + 1)
    (added_pos : 0 < added) : (layout.append appended added).Writable start := by
  obtain ⟨_, _, _, _, _⟩ := writable
  unfold Layout.append
  split <;> constructor <;> dsimp only <;> omega

lemma Writable.compact (within : layout.stored = 0 ∨ index < layout.first + layout.stored) :
    (layout.compact index).Writable start := by
  obtain ⟨_, _, _, _, _⟩ := writable
  unfold Layout.compact
  constructor <;> dsimp only <;> omega

lemma Writable.install (above : layout.snapshot < index) (before : index < start) :
    (layout.install index).Writable start := by
  obtain ⟨_, _, _, _, _⟩ := writable
  unfold Layout.install Layout.compact
  constructor <;> dsimp only <;> omega

lemma Writable.record (covered : layout.Covered) (snapshot_le : layout.snapshot ≤ index)
    (before : index < start) : (layout.record index).Writable start := by
  obtain ⟨_, _, _, _, _, _, _⟩ := covered
  obtain ⟨_, _, _, _, _⟩ := writable
  unfold Layout.record Layout.compact Layout.drain
  split_ifs <;> constructor <;> dsimp only <;> omega

lemma Kept.of_write (count_pos : 0 < count) : (layout.write start count).Kept start count := by
  obtain ⟨_, _, _, _, _⟩ := writable
  unfold Kept Layout.write
  split <;> dsimp only <;> omega

end

section

variable (kept : layout.Kept start count)
include kept

lemma Kept.append (appended added : Nat) : (layout.append appended added).Kept start count := by
  unfold Kept at *
  unfold Layout.append
  split <;> dsimp only <;> omega

lemma Kept.compact (within : layout.stored = 0 ∨ index < layout.first + layout.stored) :
    (layout.compact index).Kept start count := by
  unfold Kept at *
  unfold Layout.compact
  dsimp only
  omega

lemma Kept.install (count_pos : 0 < count) (above : layout.snapshot < index) :
    (layout.install index).Kept start count := by
  unfold Kept at *
  unfold Layout.install Layout.compact
  dsimp only
  omega

lemma Kept.record (count_pos : 0 < count) (snapshot_le : layout.snapshot ≤ index) :
    (layout.record index).Kept start count := by
  unfold Kept at *
  unfold Layout.record Layout.compact Layout.drain
  split <;> dsimp only <;> omega

end

lemma InEngine.of_append (covered : layout.Covered) (le_last : start ≤ layout.last + 1)
    (inside : (layout.append start count).InEngine index) : layout.InEngine index := by
  obtain ⟨_, _, _, _, _, _, _⟩ := covered
  unfold InEngine Layout.append at *
  split at inside <;> dsimp only at inside <;> omega

lemma InEngine.not_install : ¬(layout.install start).InEngine index := by
  unfold InEngine Layout.install
  dsimp only
  omega

lemma InEngine.of_record (covered : layout.Covered)
    (inside : (layout.record start).InEngine index) : layout.InEngine index := by
  obtain ⟨_, _, _, _, _, _, _⟩ := covered
  unfold InEngine Layout.record Layout.compact Layout.drain at *
  split at inside <;> dsimp only at inside
  · split at inside <;> omega
  · omega

lemma InEngine.of_drain (covered : layout.Covered)
    (inside : (layout.drain count).InEngine index) :
    layout.InEngine index ∨ layout.offset ≤ index ∧ index < layout.offset + count := by
  obtain ⟨_, _, _, _, _, _, _⟩ := covered
  unfold InEngine Layout.drain at *
  dsimp only at inside
  split at inside <;> omega

end Layout

end Catga.Raft.Storage
