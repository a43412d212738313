import Catga.Foundation.Budget
import Catga.Raft.StorageDurability

/-!
# Whole calls, one after the other

When nothing runs beside it, `drain_visible` is one step, and a read with a size limit is a read of
the whole range cut to its budget.  Each call is described by where the entries come from that a
reader can see after it.
-/

namespace Catga.Raft.Storage

open Foundation Transition List

variable {entries : List Entry} {upTo : Nat} {written log : EngineLog}

def noLimit : Nat := 2 ^ 64 - 1

variable (computeSize : Entry → Nat) (maxSize : Option Nat)

def limitSize (entries : List Entry) : List Entry :=
  if entries.length ≤ 1 then entries
  else
    match maxSize with
    | none => entries
    | some maxSize =>
      if maxSize = noLimit then entries else takeWithin computeSize maxSize 0 entries

/-- `Storage::entries`; raft-engine cuts its part of the range as `limit_size` does. -/
def Store.entriesWithin (store : Store) (low high : Nat) : Except StorageError (List Entry) :=
  if low < store.firstIndex then .error .compacted
  else if store.lastIndex + 1 < high then .error (.outOfBound high store.lastIndex)
  else if low < store.engineHigh low high then
    match store.engine.fetchEntriesTo low (store.engineHigh low high) with
    | .error error => .error (.engine error)
    | .ok stored =>
      let fetched := limitSize computeSize maxSize stored
      if fetched.length < store.engineHigh low high - low then .ok fetched
      else .ok (limitSize computeSize maxSize (fetched ++ store.overlaySlice low high))
  else .ok (limitSize computeSize maxSize (store.overlaySlice low high))

/-- `drain_visible` when nothing else runs; none where raft-engine refuses the batch. -/
def Store.drainVisible (upTo : Nat) (store : Store) : Option Store :=
  let drained := store.overlay.entries.takeWhile (fun entry => entry.index ≤ upTo)
  if drained = [] then some store
  else
    (store.engine.addEntries drained).map fun engine =>
      (Store.removeDrained drained { store with engine }).raiseDurable
        ((drained.getLast?.map (·.index)).getD 0)

/-- Calls that run one after the other. -/
inductive Call where
  | appendVisible (entries : List Entry)
  | drainVisible (upTo : Nat)
  | applySnapshotVisible (index term : Nat) (confState : ConfState)
  | persistSnapshotState (snapshotIndex : Nat)
  | setHardState (hardState : HardState)
  | compact (compactIndex : Nat)

/-- The storage after a call; a call that returned an error changed nothing. -/
def perform : Call → Store → Option Store
  | .appendVisible entries, store => some (store.settle (store.appendVisible entries))
  | .drainVisible upTo, store => some ((store.drainVisible upTo).getD store)
  | .applySnapshotVisible index term confState, store =>
    some (store.settle (store.applySnapshotVisible index term confState))
  | .persistSnapshotState snapshotIndex, store => some (store.persistSnapshotState snapshotIndex)
  | .setHardState hardState, store => some (store.setHardState hardState)
  | .compact compactIndex, store => some (store.settle (store.compact compactIndex))

section

variable {computeSize : Entry → Nat} {maxSize : Option Nat}

lemma limitSize_isPrefix : limitSize computeSize maxSize entries <+: entries := by
  unfold limitSize
  split_ifs
  · exact prefix_rfl
  · split
    · exact prefix_rfl
    · split_ifs
      · exact prefix_rfl
      · exact takeWithin_isPrefix

/-- Below two entries the limit is not consulted, and taking within it would change nothing. -/
lemma limitSize_some {limit} (limited : limit ≠ noLimit) :
    limitSize computeSize (some limit) entries = takeWithin computeSize limit 0 entries := by
  unfold limitSize
  dsimp only
  split_ifs with short
  · exact (takeWithin_of_length_le_one short).symm
  · rfl

lemma limitSize_of_unlimited (unlimited : ∀ limit ∈ maxSize, limit = noLimit) :
    limitSize computeSize maxSize entries = entries := by
  unfold limitSize
  split_ifs
  · rfl
  · split
    · rfl
    · rename_i limit
      rw [if_pos (unlimited limit rfl)]

lemma limitSize_append (computeSize : Entry → Nat) (maxSize : Option Nat)
    (left right : List Entry) :
    (if (limitSize computeSize maxSize left).length < left.length then
        limitSize computeSize maxSize left
      else limitSize computeSize maxSize (limitSize computeSize maxSize left ++ right)) =
      limitSize computeSize maxSize (left ++ right) := by
  split_ifs with cut
  · cases maxSize with
    | none => simp [limitSize_of_unlimited] at cut
    | some limit =>
      by_cases limited : limit = noLimit
      · have whole : limitSize computeSize (some limit) left = left :=
          limitSize_of_unlimited (by simp [limited])
        rw [whole] at cut
        exact absurd cut (lt_irrefl _)
      · rw [limitSize_some limited] at cut ⊢
        rw [limitSize_some limited, takeWithin_append_of_cut cut]
  · have whole : limitSize computeSize maxSize left = left :=
      limitSize_isPrefix.eq_of_length_le (not_lt.mp cut)
    rw [whole]

end

/-- A size limit cuts the whole range, also where it spans raft-engine and the overlay. -/
lemma Store.entriesWithin_eq {computeSize maxSize} {store : Store}
    {low high} :
    store.entriesWithin computeSize maxSize low high =
      (store.entries low high).map (limitSize computeSize maxSize) := by
  unfold entriesWithin entries
  split_ifs with compacted outside spans
  · rfl
  · rfl
  · cases taken : store.engine.fetchEntriesTo low (store.engineHigh low high) with
    | error => rfl
    | ok stored =>
      have length_eq := length_of_fetchEntriesTo taken
      have seam := limitSize_append computeSize maxSize stored (store.overlaySlice low high)
      rw [length_eq] at seam
      simp only [length_eq, lt_irrefl, if_false, Except.map]
      rw [← seam]
      split_ifs <;> rfl
  · rfl

namespace Store

variable {store after : Store} {head : Entry} {tail : List Entry} {confState : ConfState}
  {index term : Nat}

lemma appendVisible_ok
    (above : store.core.snapshotIndex < head.index)
    (joined : store.overlay.entries ≠ [] →
      head.index ≤ store.overlay.offset + store.overlay.entries.length) :
    ∃ after, store.appendVisible (head :: tail) = .ok after := by
  obtain ⟨overlay, extended⟩ :
      ∃ overlay, extendOverlay store.overlay head.index (head :: tail) = some overlay := by
    unfold extendOverlay
    split_ifs with empty gap
    · exact ⟨_, rfl⟩
    · exact absurd (joined empty) (not_le.mpr gap)
    · exact ⟨_, rfl⟩
    · exact ⟨_, rfl⟩
  simp only [appendVisible, if_neg (not_le.mpr above), extended]
  exact ⟨_, rfl⟩

section

variable (taken : store.appendVisible entries = .ok after)
include taken

lemma appendVisible_worker : after.worker = store.worker := by
  obtain ⟨overlay, last, rfl⟩ := appendVisible_shape taken
  rfl

lemma appendVisible_hardState : after.core.hardState = store.core.hardState := by
  obtain ⟨overlay, last, rfl⟩ := appendVisible_shape taken
  rfl

lemma appendVisible_durable : after.core.durableLastIndex = store.core.durableLastIndex := by
  obtain ⟨overlay, last, rfl⟩ := appendVisible_shape taken
  rfl

end

lemma applySnapshotVisible_eq (above : store.core.snapshotIndex < index)
    (taken : store.applySnapshotVisible index term confState = .ok after) :
    after = { store with
      core := { store.core with
        snapshotIndex := index
        snapshotTerm := term
        hardState := { store.core.hardState with
          term := max store.core.hardState.term term
          commit := index }
        confState
        lastValidIndex := index }
      overlay := .empty
      engine := store.engine.compactTo (index + 1) } := by
  unfold applySnapshotVisible at taken
  rw [if_neg (by omega)] at taken
  dsimp only at taken
  split at taken <;> cases taken
  rfl

lemma applySnapshotVisible_worker
    (taken : store.applySnapshotVisible index term confState = .ok after) :
    after.worker = store.worker := by
  unfold applySnapshotVisible at taken
  dsimp only at taken
  split_ifs at taken
  all_goals
    cases taken
    rfl

lemma lastIndex_of_append (segment : Segment Entry.index head.index (head :: tail))
    (taken : store.appendVisible (head :: tail) = .ok after) :
    after.lastIndex = head.index + tail.length := by
  obtain ⟨above, overlay, -, rfl⟩ := appendVisible_eq taken
  unfold lastIndex
  dsimp only
  rw [getLast_index segment, if_pos (by omega)]
  omega

lemma copyPrefix_eq
    (nonempty : store.overlay.entries.takeWhile (fun entry => entry.index ≤ upTo) ≠ []) :
    store.copyPrefix upTo = { store with
      worker := .copied (store.overlay.entries.takeWhile (fun entry => entry.index ≤ upTo)) } :=
  if_neg nonempty

section

variable (pending : Segment Entry.index store.overlay.offset store.overlay.entries)
include pending

lemma copied_prefix
    (copied : store.overlay.entries.takeWhile (fun entry => entry.index ≤ upTo) = head :: tail) :
    head.index = store.overlay.offset ∧ tail.length + 1 ≤ store.overlay.entries.length ∧
      store.overlay.entries.take (tail.length + 1) = head :: tail := by
  rw [pending.takeWhile_le upTo] at copied
  have length_eq := congrArg List.length copied
  rw [length_take, length_cons] at length_eq
  have starts := pending.take (upTo + 1 - store.overlay.offset)
  rw [copied] at starts
  refine ⟨starts.key_head, by omega, ?_⟩
  rw [← copied, take_eq_take_min, take_eq_take_iff]
  omega

lemma drainVisible_of_written {written} (idle : store.worker = .idle)
    (copied : store.overlay.entries.takeWhile (fun entry => entry.index ≤ upTo) = head :: tail)
    (written_eq : store.engine.addEntries (head :: tail) = some written) :
    store.drainVisible upTo = some { store with
      engine := written
      overlay := store.overlay.drain (tail.length + 1)
      core := { store.core with
        durableLastIndex := max store.core.durableLastIndex
          (((head :: tail).getLast?.map (·.index)).getD 0) } } := by
  obtain ⟨starts, inside, prefix_eq⟩ := copied_prefix pending copied
  have unchanged : (head :: tail).length ≤ store.overlay.entries.length ∧
      some store.overlay.offset = (head :: tail).head?.map (·.index) ∧
      store.overlay.entries.take (head :: tail).length = head :: tail :=
    ⟨inside, congrArg some starts.symm, prefix_eq⟩
  unfold drainVisible
  dsimp only
  rw [copied, if_neg (cons_ne_nil head tail), written_eq, Option.map_some]
  unfold removeDrained raiseDurable
  dsimp only
  rw [if_pos unchanged, idle]
  rfl

lemma drainVisible_eq (idle : store.worker = .idle)
    (taken : store.drainVisible upTo = some after) : after = store ∨
      ∃ count written, 0 < count ∧ count ≤ store.overlay.entries.length ∧
        store.engine.addEntries (store.overlay.entries.take count) = some written ∧
        after = { store with
          engine := written
          overlay := store.overlay.drain count
          core := { store.core with
            durableLastIndex := max store.core.durableLastIndex
              (((store.overlay.entries.take count).getLast?.map (·.index)).getD 0) } } := by
  cases copied : store.overlay.entries.takeWhile (fun entry => entry.index ≤ upTo) with
  | nil =>
    unfold drainVisible at taken
    rw [copied, if_pos rfl] at taken
    exact .inl (Option.some.inj taken).symm
  | cons head tail =>
    obtain ⟨-, inside, prefix_eq⟩ := copied_prefix pending copied
    cases written_eq : store.engine.addEntries (head :: tail) with
    | none =>
      unfold drainVisible at taken
      rw [copied, if_neg (cons_ne_nil head tail), written_eq] at taken
      cases taken
    | some written =>
      rw [drainVisible_of_written pending idle copied written_eq] at taken
      refine .inr ⟨tail.length + 1, written, Nat.succ_pos _, inside, ?_, ?_⟩
      · rw [prefix_eq, written_eq]
      · rw [prefix_eq]
        exact (Option.some.inj taken).symm

end

lemma drainVisible_runs (idle : store.worker = .idle)
    (taken : store.drainVisible upTo = some after) :
    ∃ labels, Runs step (fun label store => Called label store ∧ Undisturbed label store)
      store labels after := by
  unfold drainVisible at taken
  dsimp only at taken
  split_ifs at taken with nonempty
  · exact ⟨[], Option.some.inj taken ▸ Runs.nil⟩
  · obtain ⟨written, written_eq, rfl⟩ := Option.map_eq_some_iff.mp taken
    let drained := store.overlay.entries.takeWhile (fun entry => entry.index ≤ upTo)
    have copied : step (.copy upTo) store = some { store with worker := .copied drained } := by
      simp only [step, idle, copyPrefix, if_neg nonempty]
      rfl
    have wrote : step .write { store with worker := .copied drained } =
        some { store with engine := written, worker := .written drained } := by
      simp only [step, writeDrained]
      rw [show store.engine.addEntries drained = some written from written_eq]
    exact ⟨[.copy upTo, .write, .remove, .raise],
      .cons ⟨trivial, trivial⟩ copied (.cons ⟨trivial, trivial⟩ wrote
        (.cons ⟨trivial, trivial⟩ rfl (.cons ⟨trivial, trivial⟩ rfl .nil)))⟩

end Store

section

variable {store : Store} {log written : EngineLog}

lemma Store.visible_append {first index batch overlay}
    {core} (nonempty : batch ≠ [])
    (extended : extendOverlay store.overlay first batch = some overlay) :
    Store.visible { store with overlay, core } index =
      if index < first then store.visible index else batch[index - first]? := by
  unfold extendOverlay at extended
  unfold visible
  by_cases empty : store.overlay.entries = []
  · rw [if_pos empty] at extended
    cases extended
    simp [nonempty, empty]
  · rw [if_neg empty] at extended
    split_ifs at extended with gap root
    · cases extended
      by_cases before : index < first
      · simp [before, nonempty, show index < store.overlay.offset by omega]
      · simp [before, nonempty]
    · cases extended
      have kept_length : (store.overlay.entries.take (first - store.overlay.offset)).length =
          first - store.overlay.offset := by
        rw [length_take]
        omega
      have extended_nonempty :
          store.overlay.entries.take (first - store.overlay.offset) ++ batch ≠ [] := by
        simp [nonempty]
      simp only [extended_nonempty, empty, false_or]
      by_cases stored : index < store.overlay.offset
      · rw [if_pos stored, if_pos stored, if_pos (by omega)]
      · rw [if_neg stored, if_neg stored]
        by_cases before : index < first
        · rw [if_pos before, List.getElem?_append_left (by omega),
            List.getElem?_take_of_lt (by omega)]
        · rw [if_neg before, List.getElem?_append_right (by omega), kept_length]
          congr 1
          omega

lemma EngineLog.first_addEntries {drained start} (nonempty : drained ≠ [])
    (segment : Segment Entry.index start drained)
    (reaches : log.entries ≠ [] → log.first ≤ start ∧ start ≤ log.bound)
    (written_eq : log.addEntries drained = some written) :
    written.first = if log.entries = [] then start else log.first := by
  obtain ⟨result, result_eq, shape⟩ :=
    addEntries_spec nonempty segment (fun stored => (reaches stored).2)
  cases written_eq.symm.trans result_eq
  split_ifs with empty
  · rw [if_pos (.inl empty)] at shape
    rw [shape.1]
  · have from_first := (reaches empty).1
    rw [if_neg (by simp [empty]; omega)] at shape
    rw [shape.1]

end

end Catga.Raft.Storage
