import Catga.Raft.StorageLog

/-!
# What survives a crash

The companion file names one log tail, and raft-engine must be able to serve everything up to it
after a crash.  The durable tail is only ever raised, so a conflicting append can leave it above
what raft-engine holds; a snapshot can also empty raft-engine before the file knows of it, or its
compaction, which is not synced, can be lost after the file knows of it.
-/

namespace Catga.Raft.Storage

open Foundation Transition EngineLog List Option Store

/-- Last index raft-engine holds, zero if there is none. -/
def EngineLog.lastIndex (log : EngineLog) : Nat :=
  if log.entries = [] then 0 else log.bound - 1

/-- The storage with the history that a crash is judged by. -/
structure Traced where
  store : Store
  /-- What a crash may leave of raft-engine.  Its writes survive in order, and all up to the last
  synced one survive; a batch is synced, a compaction is not. -/
  survivors : List EngineLog
  newest : Nat → Option Entry
  imaged : Nat → Option Entry
  rewritten : Nat → Bool

open Traced

def Traced.init (bootstrapConfState : Option ConfState) : Traced :=
  { store := Store.init bootstrapConfState, survivors := [.empty], newest := fun _ => none
    imaged := fun _ => none, rewritten := fun _ => false }

def durableBatch : Label → Store → List Entry
  | .write, store =>
    match store.worker with
    | .copied drained => if (store.engine.addEntries drained).isSome then drained else []
    | _ => []
  | _, _ => []

def writesFile : Label → Bool
  | .setHardState _ | .setConfState _ | .persistSnapshotState _ => true
  | _ => false

variable (traced : Traced)

def Traced.record (label : Label) (store : Store) : Traced :=
  let batch := durableBatch label traced.store
  { store
    survivors := if batch = [] then store.engine :: traced.survivors else [store.engine]
    newest := fun index =>
      (batch.find? (fun entry => entry.index = index)).or (traced.newest index)
    imaged := if writesFile label then store.visible else traced.imaged
    rewritten := fun index => !writesFile label &&
      (traced.rewritten index || (batch.find? (fun entry => entry.index = index)).isSome) }

/-- One call or worker step, recorded. -/
def tracedStep (label : Label) (traced : Traced) : Option Traced :=
  (step label traced.store).map (traced.record label)

/-- The reopened storage serves every index up to its tail, with the newest durable entry there and
none that had been replaced when the companion file was written. -/
def Recovers (reopened : Store) : Prop :=
  reopened.core.durableLastIndex ≤
      max reopened.engine.lastIndex reopened.core.snapshotIndex ∧
    (∀ index, reopened.firstIndex ≤ index → index ≤ reopened.lastIndex →
      ∃ term, reopened.term index = .ok term) ∧
    ∃ log, reopened.entries reopened.firstIndex (reopened.lastIndex + 1) = .ok log ∧
      log.map (·.index) =
        range' reopened.firstIndex (reopened.lastIndex + 1 - reopened.firstIndex) ∧
      ∀ entry ∈ log, traced.newest entry.index = some entry ∧
        (traced.imaged entry.index = some entry ∨ traced.rewritten entry.index = true)

/-- `EngineStorage::open` on the files a crash leaves behind. -/
def Traced.reopen (survived : EngineLog) (bootstrapConfState : Option ConfState) : Store :=
  Store.open survived (some traced.store.file) bootstrapConfState

/-- The calls whose durability is at stake; compaction and data-bearing snapshots are not. -/
def Persisting : Label → Prop
  | .providerSnapshot _ _ | .compact _ => False
  | _ => True

/-- Last index of a batch that is copied but not yet written. -/
def Store.copiedLast (store : Store) : Option Nat :=
  match store.worker with
  | .copied drained => drained.getLast?.map (·.index)
  | _ => none

/-- The pending overlay starts above a tail that is about to be written. -/
def Store.TailSettled (store : Store) (durable : Nat) : Prop :=
  store.overlay.entries = [] ∨ min durable store.core.lastValidIndex < store.overlay.offset
deriving Decidable

/-- The file is written only while the overlay starts above the tail it names, a batch either
starts above the named tail or reaches it, and a snapshot empties raft-engine only if the file
names no tail above its own snapshot. -/
def TailKept : Label → Store → Prop
  | .setHardState _, store | .setConfState _, store =>
    store.TailSettled store.core.durableLastIndex
  | .persistSnapshotState snapshotIndex, store =>
    store.TailSettled (max store.core.durableLastIndex snapshotIndex)
  | .write, store =>
    ∀ first ∈ store.copiedFirst, ∀ last ∈ store.copiedLast,
      store.file.durableLastIndex < first ∨ store.file.durableLastIndex ≤ last
  | .applySnapshotVisible index _ _, store =>
    store.engine.bound ≤ index + 1 →
      store.file.durableLastIndex ≤ store.file.snapshotIndex
  | _, _ => True

instance : ∀ label, Decidable (Persisting label) := by
  rintro ⟨⟩ <;> dsimp only [Persisting] <;> infer_instance

instance : ∀ label store, Decidable (TailKept label store) := by
  rintro ⟨⟩ store <;> dsimp only [TailKept] <;> infer_instance

/-- No compaction that removed entries can be lost any more. -/
def Traced.Synced : Prop :=
  ∀ log ∈ traced.survivors, log.entries = traced.store.engine.entries
deriving Decidable

/-- The steps that a crash is recovered from. -/
def Settled (label : Label) (traced : Traced) : Prop :=
  Called label traced.store ∧ Persisting label ∧ Undisturbed label traced.store ∧
    TailKept label traced.store ∧ (writesFile label = true → traced.Synced)
deriving Decidable

variable {drained : List Entry} {label : Label} {core : PersistedCore}

namespace EngineLog

variable {log : EngineLog} {entry : Entry} {bound index : Nat} {written : EngineLog}

lemma getEntry_of_compactTo (found : (log.compactTo bound).getEntry index = some entry) :
    log.getEntry index = some entry := by
  unfold getEntry compactTo at *
  dsimp only at found
  split at found
  · rename_i low
    rw [if_pos (by omega)]
    rw [getElem?_drop] at found
    rw [← found]
    congr 1
    omega
  · cases found

lemma getEntry_compactTo (above : bound ≤ index) :
    (log.compactTo bound).getEntry index = log.getEntry index := by
  unfold getEntry compactTo
  dsimp only
  by_cases low : log.first ≤ index
  · rw [if_pos low, if_pos (by omega), getElem?_drop]
    congr 1
    omega
  · rw [if_neg low, if_neg (by omega)]

lemma bound_compactTo (stored : (log.compactTo index).entries ≠ []) :
    (log.compactTo index).bound = log.bound := by
  have short : index - log.first < log.entries.length := by
    by_contra long
    exact stored (drop_eq_nil_iff.mpr (by omega))
  simp only [bound, compactTo, length_drop]
  omega

lemma bound_le_of_compactTo_nil (emptied : (log.compactTo index).entries = [])
    (stored : log.entries ≠ []) : log.bound ≤ index := by
  have long : log.entries.length ≤ index - log.first := drop_eq_nil_iff.mp emptied
  have := length_pos_iff.mpr stored
  unfold bound
  omega

section

variable {start : Nat} (nonempty : drained ≠ []) (segment : Segment Entry.index start drained)
  (reaches : log.entries ≠ [] → start ≤ log.bound)
  (written_eq : log.addEntries drained = some written)
include nonempty segment reaches written_eq

/-- A batch that leaves no hole replaces everything from its start on. -/
lemma getEntry_addEntries :
    written.getEntry index =
      if index < start then log.getEntry index else drained[index - start]? := by
  obtain ⟨result, result_eq, shape⟩ := addEntries_spec nonempty segment reaches
  cases written_eq.symm.trans result_eq
  unfold getEntry
  split_ifs at shape with fresh
  · rw [shape.1, shape.2]
    by_cases before : index < start
    · rw [if_pos before, if_neg (by omega)]
      rcases fresh with empty | above
      · simp [empty]
      · rw [if_neg (by omega)]
    · rw [if_neg before, if_pos (by omega)]
  · rw [shape.1, shape.2]
    have reach := reaches (fun empty => fresh (.inl empty))
    have kept_length : (log.entries.take (start - log.first)).length = start - log.first := by
      unfold bound at reach
      rw [length_take]
      omega
    by_cases before : index < start
    · rw [if_pos before]
      split_ifs with inside
      · rw [getElem?_append_left (by omega), getElem?_take_of_lt (by omega)]
      · rfl
    · rw [if_neg before, if_pos (by omega), getElem?_append_right (by omega), kept_length]
      congr 1
      omega

lemma getEntry_of_addEntries (found : written.getEntry index = some entry) :
    drained.find? (fun entry => entry.index = index) = some entry ∨
      (drained.find? (fun entry => entry.index = index) = none ∧
        log.getEntry index = some entry) := by
  rw [getEntry_addEntries nonempty segment reaches written_eq] at found
  split_ifs at found with before
  · exact .inr ⟨segment.find?_key_of_lt before, found⟩
  · exact .inl ((segment.find?_key (not_lt.mp before)).trans found)

lemma bound_of_addEntries : written.bound = start + drained.length ∧ written.entries ≠ [] := by
  obtain ⟨result, result_eq, shape⟩ := addEntries_spec nonempty segment reaches
  cases written_eq.symm.trans result_eq
  unfold bound at reaches ⊢
  split_ifs at shape with fresh
  · rw [shape.1, shape.2]
    exact ⟨rfl, nonempty⟩
  · rw [shape.1, shape.2, length_append, length_take]
    have reach := reaches (fun empty => fresh (.inl empty))
    exact ⟨by omega, by simp [nonempty]⟩

end

lemma eq_of_entries {other : EngineLog} (same : log.entries = other.entries)
    (stored : log.entries ≠ []) : log = other := by
  obtain ⟨first, entries, consecutive⟩ := log
  obtain ⟨first', entries', consecutive'⟩ := other
  obtain rfl : entries = entries' := same
  obtain ⟨head, tail, rfl⟩ := exists_cons_of_ne_nil stored
  obtain rfl : first = first' := consecutive.key_head.symm.trans consecutive'.key_head
  rfl

lemma within_of_getEntry (found : log.getEntry index = some entry) :
    log.first ≤ index ∧ index < log.bound := by
  unfold getEntry at found
  split_ifs at found with from_first
  have inside := (List.getElem?_eq_some_iff.mp found).1
  unfold bound
  omega

lemma first_compactTo_le (index_le : index ≤ bound)
    (first_le : log.entries ≠ [] → log.first ≤ bound)
    (stored : (log.compactTo index).entries ≠ []) : (log.compactTo index).first ≤ bound := by
  have first_le := first_le fun empty =>
    stored (show log.entries.drop (index - log.first) = [] by rw [empty, drop_nil])
  change log.first + (index - log.first) ≤ bound
  omega

end EngineLog

/-- A log that a crash may leave serves the companion file. -/
structure Served (file : PersistedCore) (newest imaged : Nat → Option Entry)
    (rewritten : Nat → Bool) (log : EngineLog) : Prop where
  above : log.entries ≠ [] → file.snapshotIndex < log.first
  bare : log.entries = [] → file.durableLastIndex ≤ file.snapshotIndex
  held : log.entries ≠ [] → file.durableLastIndex < log.bound
  newest : ∀ index entry, log.getEntry index = some entry → newest index = some entry
  current : ∀ index entry, index ≤ file.durableLastIndex → log.getEntry index = some entry →
    imaged index = some entry ∨ rewritten index = true

/-- What ties the companion file, raft-engine and the history together. -/
structure Recoverable : Prop where
  log : Invariant traced.store
  snapshot_le : traced.store.file.snapshotIndex ≤ traced.store.core.snapshotIndex
  one_tail : traced.store.file.lastValidIndex = traced.store.file.durableLastIndex
  survives : traced.store.engine ∈ traced.survivors
  served : ∀ log ∈ traced.survivors,
    Served traced.store.file traced.newest traced.imaged traced.rewritten log

/-- Only the entries of a log matter. -/
lemma Served.of_entries {file newest imaged rewritten} {log other : EngineLog}
    (served : Served file newest imaged rewritten log) (same : other.entries = log.entries) :
    Served file newest imaged rewritten other := by
  by_cases stored : other.entries = []
  · refine ⟨fun some => absurd stored some, fun _ => served.bare (same.symm.trans stored),
      fun some => absurd stored some, ?_, ?_⟩ <;> simp [EngineLog.getEntry, stored]
  · rw [eq_of_entries same stored]
    exact served

lemma PersistedCore.image_eq (one_tail : core.lastValidIndex = core.durableLastIndex) :
    core.image = core := by
  cases core with
  | mk hardState confState snapshotIndex snapshotTerm lastValidIndex durableLastIndex =>
    obtain rfl : lastValidIndex = durableLastIndex := one_tail
    simp [image]

namespace Store

variable (engine : EngineLog) (file : PersistedCore) (bootstrapConfState : Option ConfState)

@[simp] lemma open_engine : (Store.open engine (some file) bootstrapConfState).engine = engine := by
  unfold Store.open
  dsimp only
  split <;> rfl

@[simp] lemma open_overlay :
    (Store.open engine (some file) bootstrapConfState).overlay = .empty := by
  unfold Store.open
  dsimp only
  split <;> rfl

@[simp] lemma open_worker : (Store.open engine (some file) bootstrapConfState).worker = .idle := by
  unfold Store.open
  dsimp only
  split <;> rfl

@[simp] lemma open_snapshotIndex :
    (Store.open engine (some file) bootstrapConfState).core.snapshotIndex = file.snapshotIndex := by
  unfold Store.open
  dsimp only [getD_some]
  split <;> rfl

@[simp] lemma open_file_snapshotIndex :
    (Store.open engine (some file) bootstrapConfState).file.snapshotIndex = file.snapshotIndex := by
  unfold Store.open
  dsimp only [getD_some]
  split <;> rfl

@[simp] lemma open_hardState :
    (Store.open engine (some file) bootstrapConfState).core.hardState = file.hardState := by
  unfold Store.open
  dsimp only [getD_some]
  split <;> rfl

/-- A file with one tail is read back and, where it is written at once, written as it is. -/
lemma open_file (one_tail : file.lastValidIndex = file.durableLastIndex) :
    (Store.open engine (some file) bootstrapConfState).file =
      (Store.open engine (some file) bootstrapConfState).core := by
  unfold Store.open
  dsimp only [getD_some]
  split
  · exact PersistedCore.image_eq one_tail
  · rfl

@[simp] lemma open_lastValidIndex :
    (Store.open engine (some file) bootstrapConfState).core.lastValidIndex =
      file.lastValidIndex := by
  unfold Store.open
  dsimp only [getD_some]
  split <;> rfl

@[simp] lemma open_durableLastIndex :
    (Store.open engine (some file) bootstrapConfState).core.durableLastIndex =
      file.durableLastIndex := by
  unfold Store.open
  dsimp only [getD_some]
  split <;> rfl

end Store

namespace Traced

variable (traced : Traced)

lemma record_quiet (store : Store) (no_batch : durableBatch label traced.store = [])
    (no_file : writesFile label = false) : traced.record label store =
      { traced with store, survivors := store.engine :: traced.survivors } := by
  simp [record, no_batch, no_file]

lemma record_file (store : Store) (no_batch : durableBatch label traced.store = [])
    (file : writesFile label = true) :
    traced.record label store =
      { traced with
        store, survivors := store.engine :: traced.survivors
        imaged := store.visible, rewritten := fun _ => false } := by
  simp [record, no_batch, file]

end Traced

namespace Recoverable

variable {before after : Traced}

section

variable {survived : EngineLog} (recoverable : Recoverable before)
  (member : survived ∈ before.survivors) (bootstrapConfState : Option ConfState)
include recoverable member

/-- Every index the reopened storage shows lies in raft-engine, up to the tail of the file. -/
lemma reopen_range (index : Nat)
    (low : (before.reopen survived bootstrapConfState).firstIndex ≤ index)
    (high : index ≤ (before.reopen survived bootstrapConfState).lastIndex) :
    before.store.file.snapshotIndex < index ∧ survived.first ≤ index ∧
      index ≤ before.store.file.durableLastIndex ∧ index < survived.bound := by
  have served := recoverable.served survived member
  simp only [Store.firstIndex, EngineLog.firstIndex, reopen, open_engine,
    open_snapshotIndex] at low
  simp only [Store.lastIndex, reopen, open_lastValidIndex, open_snapshotIndex,
    recoverable.one_tail] at high
  by_cases empty : survived.entries = []
  · have bare := served.bare empty
    simp only [empty, if_true, getD_none] at low
    split at high <;> omega
  · have held := served.held empty
    have above := served.above empty
    simp only [empty, if_false, getD_some] at low
    split at high <;> omega

lemma recovers : Recovers before (before.reopen survived bootstrapConfState) := by
  have served := recoverable.served survived member
  have range := recoverable.reopen_range member bootstrapConfState
  refine ⟨?_, ?_, ?_⟩
  · simp only [reopen, open_durableLastIndex, open_engine,
      open_snapshotIndex, EngineLog.lastIndex]
    split_ifs with empty
    · have := served.bare empty
      omega
    · have := served.held empty
      omega
  · intro index low high
    obtain ⟨above, from_first, -, to_bound⟩ := range _ low high
    obtain ⟨entry, entry_eq⟩ := engine_getEntry from_first to_bound
    refine ⟨entry.term, ?_⟩
    unfold term
    rw [if_neg (by simp only [reopen, open_snapshotIndex]; omega), if_neg (not_lt.mpr low),
      if_neg (not_lt.mpr high)]
    simp [reopen, OverlayLog.term, OverlayLog.empty, entry_eq]
  · obtain ⟨listed, listed_eq, at_position⟩ := entries_of_empty
      (show (before.reopen survived bootstrapConfState).overlay.entries = [] by
        simp [reopen, OverlayLog.empty]) le_rfl le_rfl fun low_lt => by
        obtain ⟨-, from_first, -, -⟩ := range _ le_rfl (Nat.le_of_lt_succ low_lt)
        obtain ⟨-, -, -, to_bound⟩ := range _ (Nat.le_of_lt_succ low_lt) le_rfl
        rw [reopen, open_engine]
        exact ⟨from_first, to_bound⟩
    rw [reopen, open_engine] at at_position
    refine ⟨listed, listed_eq, map_key_of_getElem? at_position fun low high => ?_,
      fun entry mem => ?_⟩
    · obtain ⟨-, from_first, -, to_bound⟩ := range _ low (Nat.le_of_lt_succ high)
      obtain ⟨entry, found⟩ := engine_getEntry from_first to_bound
      exact ⟨entry, found, index_of_getEntry found⟩
    · obtain ⟨position, found⟩ := mem_iff_getElem?.mp mem
      rw [at_position] at found
      split_ifs at found with inside
      obtain ⟨-, -, le_tail, -⟩ :=
        range _ (Nat.le_add_right _ position) (Nat.le_of_lt_succ inside)
      rw [index_of_getEntry found]
      exact ⟨served.newest _ _ found, served.current _ _ le_tail found⟩

end

lemma init (bootstrapConfState : Option ConfState) :
    Recoverable (Traced.init bootstrapConfState) where
  log := Invariant.init bootstrapConfState
  snapshot_le := Nat.le_refl 0
  one_tail := rfl
  survives := mem_singleton_self _
  served := by
    rintro log member
    obtain rfl := mem_singleton.mp member
    exact ⟨fun stored => absurd rfl stored, fun _ => Nat.le_refl 0, fun stored => absurd rfl stored,
      by simp [EngineLog.getEntry, EngineLog.empty], by simp [EngineLog.getEntry, EngineLog.empty]⟩

variable {store : Store} (recoverable : Recoverable before)
include recoverable

/-- Steps that neither sync raft-engine nor write the file. -/
lemma keep (log : Invariant store) (file_eq : store.file = before.store.file)
    (snapshot_le : before.store.core.snapshotIndex ≤ store.core.snapshotIndex)
    (served : Served store.file before.newest before.imaged before.rewritten store.engine) :
    Recoverable { before with store, survivors := store.engine :: before.survivors } where
  log := log
  snapshot_le := by
    rw [file_eq]
    exact le_trans recoverable.snapshot_le snapshot_le
  one_tail := by rw [file_eq]; exact recoverable.one_tail
  survives := mem_cons_self
  served := forall_mem_cons.mpr ⟨served, by rw [file_eq]; exact recoverable.served⟩

lemma persist (log : Invariant { before.store with core }) (synced : before.Synced)
    (snapshot_eq : core.snapshotIndex = before.store.core.snapshotIndex)
    (tail_eq : core.lastValidIndex = before.store.core.lastValidIndex)
    (settled : before.store.TailSettled core.durableLastIndex) :
    Recoverable
      { before with
        store := persistCore { before.store with core }
        survivors := before.store.engine :: before.survivors
        imaged := (persistCore { before.store with core }).visible
        rewritten := fun _ => false } := by
  have covered := log.covered
  have tail_le : core.lastValidIndex ≤ Store.lastIndex { before.store with core } := by
    unfold Store.lastIndex
    dsimp only
    split <;> omega
  unfold Store.TailSettled at settled
  rw [← tail_eq] at settled
  have served : Served core.image before.newest (persistCore { before.store with core }).visible
      (fun _ => false) before.store.engine := ?_
  · refine ⟨{ log with }, le_rfl, rfl, mem_cons_self, forall_mem_cons.mpr ⟨served, ?_⟩⟩
    exact fun log member => served.of_entries (synced log member)
  constructor
  case above =>
    exact fun stored => (covered.stored_starts (length_pos_iff.mpr stored)).1
  case newest => exact (recoverable.served _ recoverable.survives).newest
  case bare =>
    intro empty
    have stored : before.store.engine.entries.length = 0 := congrArg List.length empty
    change min core.durableLastIndex core.lastValidIndex ≤ core.snapshotIndex
    by_cases none_pending : before.store.overlay.entries = []
    · have last_eq : Store.lastIndex { before.store with core } = core.snapshotIndex :=
        covered.bare (congrArg List.length none_pending) stored
      omega
    · have offset_eq : before.store.overlay.offset = core.snapshotIndex + 1 :=
        covered.pending_alone (length_pos_iff.mpr none_pending) stored
      have below := settled.resolve_left none_pending
      omega
  case held =>
    intro stored
    have stored : 0 < before.store.engine.entries.length := length_pos_iff.mpr stored
    change min core.durableLastIndex core.lastValidIndex < before.store.engine.bound
    by_cases none_pending : before.store.overlay.entries = []
    · have last_lt : Store.lastIndex { before.store with core } < before.store.engine.bound :=
        covered.stored_alone (congrArg List.length none_pending) stored
      omega
    · have offset_le : before.store.overlay.offset ≤ before.store.engine.bound :=
        covered.joined (length_pos_iff.mpr none_pending) stored
      have below := settled.resolve_left none_pending
      omega
  case current =>
    intro index entry le_tail found
    have le_tail : index ≤ min core.durableLastIndex core.lastValidIndex := le_tail
    refine .inl ?_
    have shown : before.store.overlay.entries = [] ∨ index < before.store.overlay.offset :=
      settled.imp_right (fun below => lt_of_le_of_lt le_tail below)
    exact (if_pos shown).trans found

lemma write (copied : before.store.worker = .copied drained)
    (condition : TailKept .write before.store) :
    Recoverable (before.record .write (before.store.writeDrained drained)) := by
  have draining := recoverable.log.draining
  rw [copied] at draining
  obtain ⟨start, nonempty, segment, writable⟩ := draining
  have reaches : before.store.engine.entries ≠ [] → start ≤ before.store.engine.bound :=
    fun stored => writable.reaches (length_pos_iff.mpr stored)
  obtain ⟨written, written_eq, -⟩ := addEntries_spec nonempty segment reaches
  obtain ⟨bound_eq, stored⟩ :=
    bound_of_addEntries nonempty segment reaches written_eq
  have store_eq : before.store.writeDrained drained =
      { before.store with engine := written, worker := .written drained } := by
    unfold writeDrained
    rw [written_eq]
  have batch_eq : durableBatch .write before.store = drained := by
    simp [durableBatch, copied, written_eq]
  have record_eq : before.record .write (before.store.writeDrained drained) =
      { before with
        store := { before.store with engine := written, worker := .written drained }
        survivors := [written]
        newest := fun index =>
          (drained.find? (fun entry => entry.index = index)).or (before.newest index)
        rewritten := fun index => before.rewritten index ||
          (drained.find? (fun entry => entry.index = index)).isSome } := by
    simp [record, batch_eq, writesFile, store_eq, nonempty]
  have sources : ∀ index entry, written.getEntry index = some entry →
      drained.find? (fun entry => entry.index = index) = some entry ∨
        (drained.find? (fun entry => entry.index = index) = none ∧
          before.store.engine.getEntry index = some entry) :=
    fun index entry found =>
      getEntry_of_addEntries nonempty segment reaches written_eq found
  have tail_lt : before.store.file.durableLastIndex < written.bound := by
    have length_pos := length_pos_iff.mpr nonempty
    cases drained with
    | nil => exact absurd rfl nonempty
    | cons head tail =>
      obtain rfl : head.index = start := segment.key_head
      have last_eq := getLast_index segment
      rw [getLast?_eq_some_getLast (cons_ne_nil head tail)] at last_eq
      have last_eq : ((head :: tail).getLast (cons_ne_nil head tail)).index =
          head.index + (tail.length + 1) - 1 := last_eq
      have reached := condition head.index (by simp [copied])
        ((head :: tail).getLast (cons_ne_nil head tail)).index (by
          simp [copiedLast, copied, getLast?_eq_some_getLast])
      rw [bound_eq, length_cons]
      omega
  have served := recoverable.served _ recoverable.survives
  have log := recoverable.log.write copied
  rw [store_eq] at log
  rw [record_eq]
  refine ⟨log, recoverable.snapshot_le, recoverable.one_tail, mem_singleton_self _, ?_⟩
  intro log' member
  obtain rfl := mem_singleton.mp member
  constructor
  case above =>
    have above := (log.covered.stored_starts (length_pos_iff.mpr stored)).1
    exact fun _ => lt_of_le_of_lt recoverable.snapshot_le above
  case bare => exact fun empty => absurd empty stored
  case held => exact fun _ => tail_lt
  case newest =>
    intro index entry found
    rcases sources index entry found with fresh | ⟨absent, earlier⟩
    · simp [fresh]
    · simp only [absent, none_or]
      exact served.newest index entry earlier
  case current =>
    intro index entry le_tail found
    rcases sources index entry found with fresh | ⟨absent, earlier⟩
    · exact .inr (by simp [fresh])
    · refine (served.current index entry le_tail earlier).imp_right ?_
      intro rewritten
      simp [rewritten]

lemma install {index term confState} (log : Invariant store)
    (above : before.store.core.snapshotIndex < index)
    (condition : TailKept (.applySnapshotVisible index term confState) before.store)
    (taken : before.store.applySnapshotVisible index term confState = .ok store) :
    Recoverable { before with store, survivors := store.engine :: before.survivors } := by
  have served := recoverable.served _ recoverable.survives
  unfold applySnapshotVisible at taken
  rw [if_neg (by omega)] at taken
  dsimp only at taken
  split at taken <;> cases taken
  refine recoverable.keep log rfl (le_of_lt above) ⟨fun _ => ?_, fun emptied => ?_,
    fun stored => ?_, fun _ _ found => served.newest _ _ (getEntry_of_compactTo found),
    fun _ _ le_tail found => served.current _ _ le_tail (getEntry_of_compactTo found)⟩
  · have snapshot_le := recoverable.snapshot_le
    simp only [EngineLog.compactTo]
    omega
  · by_cases stored : before.store.engine.entries = []
    · exact served.bare stored
    · exact condition (bound_le_of_compactTo_nil emptied stored)
  · have kept : before.store.engine.entries ≠ [] := by
      intro empty
      simp [EngineLog.compactTo, empty] at stored
    rw [bound_compactTo stored]
    exact served.held kept

lemma untouched (log : Invariant store) (engine_eq : store.engine = before.store.engine)
    (file_eq : store.file = before.store.file)
    (snapshot_eq : store.core.snapshotIndex = before.store.core.snapshotIndex) :
    Recoverable { before with store, survivors := store.engine :: before.survivors } := by
  refine recoverable.keep log file_eq (Nat.le_of_eq snapshot_eq.symm) ?_
  rw [engine_eq, file_eq]
  exact recoverable.served _ recoverable.survives

lemma step (settled : Settled label before) (taken : tracedStep label before = some after) :
    Recoverable after := by
  obtain ⟨called, persisting, undisturbed, kept, synced⟩ := settled
  obtain ⟨store, store_eq, rfl⟩ := map_eq_some_iff.mp taken
  have log : Invariant store := recoverable.log.step called undisturbed store_eq
  cases label with
  | appendVisible entries =>
    rw [before.record_quiet store rfl rfl]
    cases store_eq
    cases result : before.store.appendVisible entries with
    | error => exact recoverable.untouched recoverable.log rfl rfl rfl
    | ok =>
      rw [result] at log
      obtain ⟨engine_eq, file_eq, snapshot_eq⟩ := appendVisible_frame result
      exact recoverable.untouched log engine_eq file_eq snapshot_eq
  | applySnapshotVisible index term confState =>
    rw [before.record_quiet store rfl rfl]
    cases store_eq
    cases result : before.store.applySnapshotVisible index term confState with
    | error => exact recoverable.untouched recoverable.log rfl rfl rfl
    | ok =>
      rw [result] at log
      exact recoverable.install log called kept result
  | providerSnapshot => exact persisting.elim
  | compact => exact persisting.elim
  | setHardState | setConfState | persistSnapshotState =>
    rw [before.record_file store rfl rfl]
    cases store_eq
    exact recoverable.persist { log with } (synced rfl) rfl rfl kept
  | copy =>
    rw [before.record_quiet store rfl rfl]
    simp only [Storage.step] at store_eq
    split at store_eq <;> cases store_eq
    refine recoverable.untouched log ?_ ?_ ?_ <;> unfold copyPrefix <;> dsimp only <;>
      split <;> rfl
  | write =>
    simp only [Storage.step] at store_eq
    split at store_eq <;> cases store_eq
    rename_i drained copied
    exact recoverable.write copied kept
  | remove | raise =>
    rw [before.record_quiet store rfl rfl]
    simp only [Storage.step] at store_eq
    split at store_eq <;> cases store_eq
    exact recoverable.untouched log rfl rfl rfl

end Recoverable

/-- In every run whose steps keep the tail of the companion file, a crash in any state leaves files
from which every visible index is read back with its newest durable entry. -/
theorem recovers_of_settled {bootstrapConfState : Option ConfState} {labels : List Label}
    {finish : Traced} {survived : EngineLog}
    (run : Runs tracedStep Settled (Traced.init bootstrapConfState) labels finish)
    (member : survived ∈ finish.survivors) (reopenConfState : Option ConfState) :
    Recovers finish (finish.reopen survived reopenConfState) := by
  have recoverable : Recoverable finish :=
    run.invariant (Recoverable.init bootstrapConfState) fun holds settled taken =>
      holds.step settled taken
  exact recoverable.recovers member reopenConfState

/-- A conflicting append that is drained in one batch up to the named tail is recovered, and so it
is under a snapshot, whether its compaction survives or not. -/
theorem recovers_after_conflict :
    ∃ finish, Runs tracedStep Settled (Traced.init none)
      [.appendVisible [.bare 1 1, .bare 1 2, .bare 1 3], .copy 3, .write, .remove, .raise,
        .setHardState { term := 1, vote := 1, commit := 1 },
        .appendVisible [.bare 2 2, .bare 2 3], .copy 3, .write, .remove, .raise,
        .applySnapshotVisible 2 2 .default] finish ∧
      [some 3, some 1] ⊆ finish.survivors.map (·.firstIndex) ∧
      ∀ survived ∈ finish.survivors, Recovers finish (finish.reopen survived none) :=
  Runs.exists_and_of_execWhile (by decide) fun run _ _ member => recovers_of_settled run member none

/-- Entries 1 to 3 are durable, 2 and 3 are replaced one by one and only the new 2 is drained: the
file still names 3, which raft-engine has dropped.  Or the file names a snapshot at 5 whose
compaction is lost: raft-engine still holds 1 to 3, and not 4. -/
theorem named_tail_lost_after_conflict :
    (∃ finish, Runs tracedStep (fun label traced => Called label traced.store ∧ Persisting label)
      (Traced.init none)
      [.appendVisible [.bare 1 1, .bare 1 2, .bare 1 3], .copy 3, .write, .remove, .raise,
        .appendVisible [.bare 2 2], .appendVisible [.bare 2 3], .copy 2, .write, .remove, .raise,
        .setHardState { term := 2, vote := 1, commit := 1 }] finish ∧
      ∃ survived ∈ finish.survivors, ¬Recovers finish (finish.reopen survived none)) ∧
    ∃ finish, Runs tracedStep (fun label traced => Called label traced.store ∧ Persisting label)
      (Traced.init none)
      [.appendVisible [.bare 1 1, .bare 1 2, .bare 1 3], .copy 3, .write, .remove, .raise,
        .applySnapshotVisible 5 2 .default, .persistSnapshotState 5] finish ∧
      ∃ survived ∈ finish.survivors, ¬Recovers finish (finish.reopen survived none) := by
  have lost : ∀ {traced : Traced} {index}, (∃ survived ∈ traced.survivors,
      (traced.reopen survived none).firstIndex ≤ index ∧
        index ≤ (traced.reopen survived none).lastIndex ∧
        (traced.reopen survived none).term index = .error .unavailable) →
      ∃ survived ∈ traced.survivors, ¬Recovers traced (traced.reopen survived none) := by
    rintro traced index ⟨survived, member, low, high, unread⟩
    refine ⟨survived, member, fun recovers => ?_⟩
    obtain ⟨term, term_eq⟩ := recovers.2.1 index low high
    simp [unread] at term_eq
  exact ⟨Runs.exists_of_test (fun traced => ∃ survived ∈ traced.survivors,
      (traced.reopen survived none).firstIndex ≤ 3 ∧ 3 ≤ (traced.reopen survived none).lastIndex ∧
        (traced.reopen survived none).term 3 = .error .unavailable) (by decide) fun _ => lost,
    Runs.exists_of_test (fun traced => ∃ survived ∈ traced.survivors,
      (traced.reopen survived none).firstIndex ≤ 4 ∧ 4 ≤ (traced.reopen survived none).lastIndex ∧
        (traced.reopen survived none).term 4 = .error .unavailable) (by decide) fun _ => lost⟩

end Catga.Raft.Storage
