import Catga.Foundation.Segment
import Catga.Foundation.Transition
import Catga.Raft.Entry

/-!
# `EngineStorage`

The raft log is split over three places: the snapshot marker in the persisted core, the entries in
raft-engine, and a pending overlay of entries that are visible but not yet durable.  The owner loop
calls the storage; the persist worker drains the overlay into raft-engine in four steps, between
which the owner can run.
-/

namespace Catga.Raft.Storage

open Foundation

/-- What a node must not forget. -/
structure HardState where
  term : Nat
  vote : Nat
  commit : Nat
deriving DecidableEq

/-- The members of the group. -/
structure ConfState where
  voters : List Nat
  learners : List Nat
  votersOutgoing : List Nat
  learnersNext : List Nat
  autoLeave : Bool
deriving DecidableEq

def ConfState.default : ConfState :=
  { voters := [], learners := [], votersOutgoing := [], learnersNext := [], autoLeave := false }

/-- The in-memory core; its companion file holds an image of it. -/
structure PersistedCore where
  hardState : HardState
  confState : ConfState
  snapshotIndex : Nat
  snapshotTerm : Nat
  /-- Highest visible log index; zero before the first append. -/
  lastValidIndex : Nat
  durableLastIndex : Nat
deriving DecidableEq

def PersistedCore.default : PersistedCore :=
  { hardState := { term := 0, vote := 0, commit := 0 }, confState := .default
    snapshotIndex := 0, snapshotTerm := 0, lastValidIndex := 0, durableLastIndex := 0 }

/-- `encode_core` followed by `decode_core`: the file keeps one tail, the durable one clamped to
the visible one, and a restart takes it for both. -/
def PersistedCore.image (core : PersistedCore) : PersistedCore :=
  let durable := min core.durableLastIndex core.lastValidIndex
  { core with lastValidIndex := durable, durableLastIndex := durable }

/-- The entries raft-engine stores for the group; they are always consecutive. -/
structure EngineLog where
  /-- Index of the first entry; meaningless while there is none. -/
  first : Nat
  entries : List Entry
  consecutive : Segment Entry.index first entries

inductive EngineError where
  | entryNotFound
  | entryCompacted
deriving DecidableEq

namespace EngineLog

def empty : EngineLog := { first := 0, entries := [], consecutive := trivial }

variable (log : EngineLog)

/-- `first_index`: none exactly when the group is empty. -/
def firstIndex : Option Nat :=
  if log.entries = [] then none else some log.first

def bound : Nat := log.first + log.entries.length

/-- `add_entries`: a batch that starts at `i` replaces every stored entry from `i` on and must not
leave a hole. -/
def addEntries : List Entry → Option EngineLog
  | [] => some log
  | head :: tail =>
    if consecutive : Segment Entry.index head.index (head :: tail) then
      if _empty : log.entries = [] then
        some { first := head.index, entries := head :: tail, consecutive }
      else if inside : log.first ≤ head.index ∧ head.index ≤ log.bound then
        some
          { first := log.first
            entries := log.entries.take (head.index - log.first) ++ head :: tail
            consecutive := by
              rw [Segment.append_iff]
              refine ⟨log.consecutive.take _, ?_⟩
              have reached := inside.2
              rw [bound] at reached
              rw [List.length_take, show log.first +
                min (head.index - log.first) log.entries.length = head.index by omega]
              exact consecutive }
      else if head.index < log.first then
        some { first := head.index, entries := head :: tail, consecutive }
      else none
    else none

/-- `compact_to`: drop the entries below `index`. -/
def compactTo (index : Nat) : EngineLog where
  first := log.first + (index - log.first)
  entries := log.entries.drop (index - log.first)
  consecutive := log.consecutive.drop _

def getEntry (index : Nat) : Option Entry :=
  if log.first ≤ index then log.entries[index - log.first]? else none

/-- `fetch_entries_to` without a size limit. -/
def fetchEntriesTo (low high : Nat) : Except EngineError (List Entry) :=
  if log.entries = [] then .error .entryNotFound
  else if low < log.first then .error .entryCompacted
  else if log.bound < high then .error .entryNotFound
  else .ok ((log.entries.drop (low - log.first)).take (high - low))

end EngineLog

/-- Entries not yet durable. -/
structure OverlayLog where
  /-- Index of the first pending entry; meaningless while there is none. -/
  offset : Nat
  entries : List Entry

namespace OverlayLog

def empty : OverlayLog := { offset := 0, entries := [] }

def term (overlay : OverlayLog) (index : Nat) : Option Nat :=
  if overlay.entries = [] ∨ index < overlay.offset then none
  else overlay.entries[index - overlay.offset]?.map (·.term)

def drain (overlay : OverlayLog) (count : Nat) : OverlayLog :=
  let entries := overlay.entries.drop count
  { offset := (entries.head?.map (·.index)).getD 0, entries }

end OverlayLog

/-- The persist worker inside `drain_visible`. -/
inductive Worker where
  | idle
  | copied (drained : List Entry)
  | written (drained : List Entry)
  | removed (last : Nat)
  | halted

/-- The storage, the files behind it and the persist worker. -/
structure Store where
  core : PersistedCore
  overlay : OverlayLog
  engine : EngineLog
  file : PersistedCore
  worker : Worker

/-- `EngineStorage::open`: the persisted membership wins over the bootstrap one, and a fresh storage
writes its companion file at once. -/
def Store.open (engine : EngineLog) (file : Option PersistedCore)
    (bootstrapConfState : Option ConfState) : Store :=
  let stored := file.getD .default
  if stored.confState = .default then
    let core := { stored with confState := bootstrapConfState.getD stored.confState }
    { core, overlay := .empty, engine, file := core.image, worker := .idle }
  else { core := stored, overlay := .empty, engine, file := stored, worker := .idle }

def Store.init (bootstrapConfState : Option ConfState) : Store :=
  Store.open .empty none bootstrapConfState

/-- The errors raft-rs gets from the storage; a panic is an error of its own. -/
inductive StorageError where
  | compacted
  | unavailable
  | outOfBound (high last : Nat)
  | engine (error : EngineError)
deriving DecidableEq

namespace Store

variable (store : Store)

def firstIndex : Nat := store.engine.firstIndex.getD (store.core.snapshotIndex + 1)

def lastIndex : Nat :=
  if 0 < store.core.lastValidIndex then store.core.lastValidIndex else store.core.snapshotIndex

def term (store : Store) (index : Nat) : Except StorageError Nat :=
  if index = store.core.snapshotIndex then .ok store.core.snapshotTerm
  else if index < store.firstIndex then .error .compacted
  else if store.lastIndex < index then .error .unavailable
  else
    match store.overlay.term index with
    | some term => .ok term
    | none =>
      match store.engine.getEntry index with
      | some entry => .ok entry.term
      | none => .error .unavailable

/-- The part of `entries` below the overlay. -/
def engineHigh (low high : Nat) : Nat :=
  if store.overlay.entries = [] then high
  else if low < store.overlay.offset then min high store.overlay.offset
  else low

/-- The part of `entries` that the overlay serves. -/
def overlaySlice (low high : Nat) : List Entry :=
  if store.overlay.entries ≠ [] ∧ store.overlay.offset < high then
    let lo := max low store.overlay.offset - store.overlay.offset
    let hi := high - store.overlay.offset
    if lo ≤ hi ∧ hi ≤ store.overlay.entries.length then
      (store.overlay.entries.drop lo).take (hi - lo)
    else []
  else []

/-- `Storage::entries` without a size limit. -/
def entries (low high : Nat) : Except StorageError (List Entry) :=
  if low < store.firstIndex then .error .compacted
  else if store.lastIndex + 1 < high then .error (.outOfBound high store.lastIndex)
  else if low < store.engineHigh low high then
    match store.engine.fetchEntriesTo low (store.engineHigh low high) with
    | .error error => .error (.engine error)
    | .ok fetched =>
      if fetched.length < store.engineHigh low high - low then .ok fetched
      else .ok (fetched ++ store.overlaySlice low high)
  else .ok (store.overlaySlice low high)

/-- `persist_core`: rewrite the companion file. -/
def persistCore : Store := { store with file := store.core.image }

/-- The overlay after `append_visible`; none where the append would leave a gap. -/
def extendOverlay (overlay : OverlayLog) (first : Nat) (entries : List Entry) :
    Option OverlayLog :=
  if overlay.entries = [] then some { offset := first, entries }
  else if overlay.offset + overlay.entries.length < first then none
  else if first ≤ overlay.offset then some { offset := first, entries }
  else
    some { overlay with
      entries := overlay.entries.take (first - overlay.offset) ++ entries }

def appendVisible (entries : List Entry) (store : Store) : Except String Store :=
  match entries with
  | [] => .ok store
  | head :: tail =>
    let first := head.index
    let last := ((head :: tail).getLast?.map (·.index)).getD first
    if first ≤ store.core.snapshotIndex then
      .error s!"append at {first} overlaps snapshot at {store.core.snapshotIndex}"
    else
      match extendOverlay store.overlay first (head :: tail) with
      | none =>
        let overlayEnd := store.overlay.offset + store.overlay.entries.length - 1
        .error s!"append gap: first {first} after overlay end {overlayEnd}"
      | some overlay =>
        .ok { store with overlay, core := { store.core with lastValidIndex := last } }

def setHardState (hardState : HardState) (store : Store) : Store :=
  persistCore { store with core := { store.core with hardState } }

def setConfState (confState : ConfState) (store : Store) : Store :=
  persistCore { store with core := { store.core with confState } }

def persistSnapshotState (snapshotIndex : Nat) (store : Store) : Store :=
  persistCore { store with core := { store.core with
    durableLastIndex := max store.core.durableLastIndex snapshotIndex } }

/-- `apply_snapshot_visible`, that is `apply_snapshot_core`. -/
def applySnapshotVisible (index term : Nat) (confState : ConfState) (store : Store) :
    Except String Store :=
  if index = store.core.snapshotIndex then .ok store
  else
    let first := store.engine.firstIndex.getD (store.core.snapshotIndex + 1)
    if index < first then
      .error s!"snapshot out of date: index {index} < first index {first}"
    else
      .ok { store with
        core := { store.core with
          snapshotIndex := index
          snapshotTerm := term
          hardState := { store.core.hardState with
            term := max store.core.hardState.term term
            commit := index }
          confState
          lastValidIndex := index }
        overlay := .empty
        engine := store.engine.compactTo (index + 1) }

def compact (compactIndex : Nat) (store : Store) : Except String Store :=
  if compactIndex ≤ store.firstIndex then .ok store
  else if store.lastIndex + 1 < compactIndex then
    .error s!"compact index {compactIndex} beyond last index {store.lastIndex}"
  else .ok { store with engine := store.engine.compactTo compactIndex }

/-- The marker, overlay and engine updates of `provider_snapshot` at an index of known term. -/
def recordSnapshot (index term : Nat) (store : Store) : Store :=
  let core :=
    if store.core.snapshotIndex < index then
      { store.core with snapshotIndex := index, snapshotTerm := term }
    else store.core
  let overlay :=
    if store.overlay.entries ≠ [] ∧ store.overlay.offset ≤ index then
      store.overlay.drain
        (store.overlay.entries.takeWhile (fun entry => entry.index ≤ index)).length
    else store.overlay
  persistCore { store with core, overlay, engine := store.engine.compactTo (index + 1) }

/-- `provider_snapshot` once the provider has returned its applied index; none where the snapshot
is temporarily unavailable. -/
def providerSnapshot (applied requestIndex : Nat) (store : Store) : Option Store :=
  if applied = 0 then none
  else
    let index := max applied requestIndex
    if store.lastIndex < index then none
    else
      match store.term index with
      | .error _ => none
      | .ok term => some (store.recordSnapshot index term)

/-- `drain_visible`, first critical section: copy the overlay prefix up to `upTo`. -/
def copyPrefix (upTo : Nat) (store : Store) : Store :=
  let drained := store.overlay.entries.takeWhile (fun entry => entry.index ≤ upTo)
  if drained = [] then store else { store with worker := .copied drained }

variable (drained : List Entry) (store : Store)

/-- `drain_visible`, the synced engine write. -/
def writeDrained : Store :=
  match store.engine.addEntries drained with
  | some engine => { store with engine, worker := .written drained }
  | none => { store with worker := .halted }

/-- `drain_visible`, second critical section: drop the copy unless the overlay changed. -/
def removeDrained : Store :=
  let unchanged := drained.length ≤ store.overlay.entries.length ∧
    some store.overlay.offset = drained.head?.map (·.index) ∧
    store.overlay.entries.take drained.length = drained
  { store with
    overlay := if unchanged then store.overlay.drain drained.length else store.overlay
    worker := .removed ((drained.getLast?.map (·.index)).getD 0) }

/-- `drain_visible`, the durable tail. -/
def raiseDurable (last : Nat) (store : Store) : Store :=
  { store with
    core := { store.core with durableLastIndex := max store.core.durableLastIndex last }
    worker := .idle }

/-- A call that returned an error changed nothing. -/
def settle (result : Except String Store) : Store :=
  match result with
  | .ok after => after
  | .error _ => store

end Store

/-- Calls of the owner and steps of the persist worker. -/
inductive Label where
  | appendVisible (entries : List Entry)
  | applySnapshotVisible (index term : Nat) (confState : ConfState)
  | providerSnapshot (applied requestIndex : Nat)
  | compact (compactIndex : Nat)
  | setHardState (hardState : HardState)
  | setConfState (confState : ConfState)
  | persistSnapshotState (snapshotIndex : Nat)
  | copy (upTo : Nat)
  | write
  | remove
  | raise

def step : Label → Store → Option Store
  | .appendVisible entries, store => some (store.settle (store.appendVisible entries))
  | .applySnapshotVisible index term confState, store =>
    some (store.settle (store.applySnapshotVisible index term confState))
  | .providerSnapshot applied requestIndex, store =>
    some ((store.providerSnapshot applied requestIndex).getD store)
  | .compact compactIndex, store => some (store.settle (store.compact compactIndex))
  | .setHardState hardState, store => some (store.setHardState hardState)
  | .setConfState confState, store => some (store.setConfState confState)
  | .persistSnapshotState snapshotIndex, store => some (store.persistSnapshotState snapshotIndex)
  | .copy upTo, store =>
    match store.worker with
    | .idle => some (store.copyPrefix upTo)
    | _ => none
  | .write, store =>
    match store.worker with
    | .copied drained => some (store.writeDrained drained)
    | _ => none
  | .remove, store =>
    match store.worker with
    | .written drained => some (store.removeDrained drained)
    | _ => none
  | .raise, store =>
    match store.worker with
    | .removed last => some (store.raiseDurable last)
    | _ => none

end Catga.Raft.Storage
