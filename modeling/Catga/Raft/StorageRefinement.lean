import Catga.Raft.StorageCalls

/-!
# The storage as a plain log

As long as calls run one after the other and compaction stays at or below what has been drained, a
reader cannot tell the split log from a single list with a compaction offset.  The simulation says
which entry is visible at every index; draining does not change it.
-/

namespace Catga.Raft.Storage

open Foundation Transition Store List

/-- A log in one list, as raft-rs `MemStorage` keeps it. -/
structure ReferenceLog where
  /-- Index of the first entry, or of the next one if there is none. -/
  offset : Nat
  entries : List Entry

namespace ReferenceLog

def empty : ReferenceLog := { offset := 1, entries := [] }

variable (log : ReferenceLog)

def firstIndex : Nat := log.offset

def lastIndex : Nat := log.offset + log.entries.length - 1

/-- Term of an entry; index zero is the marker of the empty snapshot. -/
def term (index : Nat) : Except StorageError Nat :=
  if index = 0 then .ok 0
  else if index < log.firstIndex then .error .compacted
  else
    match log.entries[index - log.offset]? with
    | some entry => .ok entry.term
    | none => .error .unavailable

def slice (low high : Nat) : List Entry := (log.entries.drop (low - log.offset)).take (high - low)

/-- The longest prefix of a range that the size limit allows, with at least one entry. -/
def entriesWithin (computeSize : Entry → Nat) (maxSize : Option Nat) (log : ReferenceLog)
    (low high : Nat) : Except StorageError (List Entry) :=
  if low < log.firstIndex then .error .compacted
  else if log.lastIndex + 1 < high then .error (.outOfBound high log.lastIndex)
  else
    match maxSize with
    | none => .ok (log.slice low high)
    | some limit =>
      if limit = noLimit then .ok (log.slice low high)
      else .ok (longestWithin computeSize limit (log.slice low high))

/-- Replace everything from the first index of a batch on. -/
def append (batch : List Entry) (log : ReferenceLog) : ReferenceLog :=
  match batch with
  | [] => log
  | head :: tail =>
    { log with entries := log.entries.take (head.index - log.offset) ++ head :: tail }

def compact (index : Nat) (log : ReferenceLog) : ReferenceLog :=
  if index ≤ log.offset then log
  else { offset := index, entries := log.entries.drop (index - log.offset) }

/-- What a call does to the log; only appends and compactions do anything. -/
def apply : Call → ReferenceLog
  | .appendVisible entries => log.append entries
  | .compact compactIndex => log.compact compactIndex
  | _ => log

def after (calls : List Call) : ReferenceLog := calls.foldl apply empty

end ReferenceLog

/-- Every reader returns the same from the storage and from the log. -/
def Agrees (computeSize : Entry → Nat) (store : Store) (log : ReferenceLog) : Prop :=
  store.firstIndex = log.firstIndex ∧ store.lastIndex = log.lastIndex ∧
    (∀ index, store.term index = log.term index) ∧
    ∀ low high maxSize, store.entriesWithin computeSize maxSize low high =
      log.entriesWithin computeSize maxSize low high

/-- Last index of the visible log that raft-engine holds. -/
def Store.drainedTail (store : Store) : Nat :=
  if store.overlay.entries = [] then store.lastIndex else store.overlay.offset - 1

/-- Contiguous appends inside the log or right after it, drains, and compactions up to the drained
tail. -/
def Sequential : Call → Store → Prop
  | .appendVisible entries, store =>
    ∀ head ∈ entries.head?, Segment Entry.index head.index entries ∧
      store.firstIndex ≤ head.index ∧ head.index ≤ store.lastIndex + 1
  | .drainVisible _, _ => True
  | .compact compactIndex, store => compactIndex ≤ store.drainedTail
  | _, _ => False

instance : ∀ call store, Decidable (Sequential call store) := by
  rintro ⟨⟩ store <;> dsimp only [Sequential] <;> infer_instance

section

variable {store : Store}

lemma Store.visible_compact {bound index} (above : bound ≤ index) :
    Store.visible { store with engine := store.engine.compactTo bound } index =
      store.visible index := by
  unfold visible
  dsimp only
  rw [EngineLog.getEntry_compactTo above]

end

/-- The storage and the log show the same entries. -/
structure Represents (store : Store) (log : ReferenceLog) : Prop where
  invariant : Invariant store
  idle : store.worker = .idle
  marker : store.core.snapshotIndex = 0 ∧ store.core.snapshotTerm = 0
  first : store.firstIndex = log.offset
  last : store.lastIndex + 1 = log.offset + log.entries.length
  ordered : store.overlay.entries ≠ [] → store.engine.entries ≠ [] →
    store.engine.first ≤ store.overlay.offset
  numbered : Segment Entry.index log.offset log.entries
  shown : ∀ index, log.offset ≤ index → index ≤ store.lastIndex →
    store.visible index = log.entries[index - log.offset]?

namespace Represents

variable {store : Store} {log : ReferenceLog}

lemma init (bootstrapConfState : Option ConfState) :
    Represents (Store.init bootstrapConfState) .empty where
  invariant := Invariant.init bootstrapConfState
  idle := rfl
  marker := ⟨rfl, rfl⟩
  first := rfl
  last := rfl
  ordered := fun pending => absurd rfl pending
  numbered := trivial
  shown := by
    intro index low high
    have high : index ≤ 0 := high
    have low : 1 ≤ index := low
    omega

section

variable (represents : Represents store log)
include represents

lemma offset_pos : 0 < log.offset := by
  have low := represents.invariant.covered.low_bounds.1
  rw [low_layout, represents.first] at low
  omega

lemma agrees {computeSize}
    (encoded : ∀ entry, 0 < entry.index → 0 < computeSize entry) :
    Agrees computeSize store log := by
  have offset_pos := represents.offset_pos
  have first := represents.first
  have last := represents.last
  have last_eq : store.lastIndex = log.lastIndex := by
    unfold ReferenceLog.lastIndex
    omega
  refine ⟨first, last_eq, fun index => ?_, fun low high maxSize => ?_⟩
  · by_cases zero : index = 0
    · rw [Store.term, ReferenceLog.term, if_pos (by rw [represents.marker.1, zero]), if_pos zero,
        represents.marker.2]
    · unfold ReferenceLog.term ReferenceLog.firstIndex
      rw [if_neg zero]
      by_cases compacted : index < log.offset
      · rw [if_pos compacted, Store.term, if_neg (by rw [represents.marker.1]; exact zero),
          if_pos (by omega)]
      · rw [if_neg compacted]
        by_cases beyond : store.lastIndex < index
        · rw [Store.term, if_neg (by rw [represents.marker.1]; exact zero), if_neg (by omega),
            if_pos beyond, getElem?_eq_none (by omega)]
        · obtain ⟨entry, seen, -⟩ := visible_of_covered represents.invariant.covered
            represents.invariant.pending (show store.firstIndex ≤ index by omega) (not_lt.mp beyond)
          rw [term_of_visible represents.invariant.covered (by omega) (by omega) seen,
            ← represents.shown index (by omega) (by omega), seen]
  · rw [entriesWithin_eq]
    unfold ReferenceLog.entriesWithin ReferenceLog.firstIndex
    rw [← last_eq]
    by_cases compacted : low < log.offset
    · rw [if_pos compacted, Store.entries, if_pos (by omega)]
      rfl
    · rw [if_neg compacted]
      by_cases outside : store.lastIndex + 1 < high
      · rw [if_pos outside, Store.entries, if_neg (by omega), if_pos outside]
        rfl
      · rw [if_neg outside]
        obtain ⟨listed, listed_eq, found⟩ :=
          entries_getElem? represents.invariant.covered (show store.firstIndex ≤ low by omega)
            (not_lt.mp outside)
        have slice_eq : listed = log.slice low high := by
          apply ext_getElem?
          intro position
          unfold ReferenceLog.slice
          rw [found, getElem?_take, getElem?_drop]
          by_cases within : low + position < high
          · rw [if_pos within, if_pos (by omega), represents.shown _ (by omega) (by omega)]
            congr 1
            omega
          · rw [if_neg within, if_neg (by omega)]
        have positive : ∀ entry ∈ log.slice low high, 0 < computeSize entry := by
          intro entry mem
          have stored := mem_of_mem_drop (mem_of_mem_take mem)
          obtain ⟨position, position_eq⟩ := mem_iff_getElem?.mp stored
          have index_eq := represents.numbered.key_getElem? position_eq
          exact encoded entry (by omega)
        rw [listed_eq, slice_eq]
        cases maxSize with
        | none => exact congrArg Except.ok (limitSize_of_unlimited (by simp))
        | some limit =>
          by_cases unlimited : limit = noLimit
          · simp only [unlimited, if_true]
            exact congrArg Except.ok (limitSize_of_unlimited (by simp))
          · simp only [unlimited, if_false]
            rw [← takeWithin_eq_longestWithin positive]
            exact congrArg Except.ok (limitSize_some unlimited)

lemma stored_first (stored : store.engine.entries ≠ []) : store.engine.first = log.offset := by
  rw [← represents.first, Store.firstIndex, EngineLog.firstIndex, if_neg stored]
  rfl

lemma pending_end (pending : store.overlay.entries ≠ []) :
    store.overlay.offset + store.overlay.entries.length = store.lastIndex + 1 :=
  (represents.invariant.covered.pending_ends (length_pos_iff.mpr pending)).2

lemma append {entries} (called : Sequential (.appendVisible entries) store) :
    Represents (store.settle (store.appendVisible entries)) (log.append entries) := by
  cases entries with
  | nil => exact represents
  | cons head tail =>
    obtain ⟨segment, low_le, le_last⟩ := called head rfl
    have first := represents.first
    have last := represents.last
    have offset_pos := represents.offset_pos
    have marker := represents.marker.1
    obtain ⟨after, taken⟩ : ∃ after, store.appendVisible (head :: tail) = .ok after := by
      refine appendVisible_ok (by omega) fun pending => ?_
      rw [represents.pending_end pending]
      exact le_last
    have invariant : Invariant after := by
      refine represents.invariant.append (fun other same => ?_) (fun other same => ?_) taken
      · cases same
        exact ⟨segment, by omega, le_last⟩
      · cases same
        exact low_le
    have tail_eq := lastIndex_of_append segment taken
    rw [taken]
    obtain ⟨-, overlay, extended, rfl⟩ := appendVisible_eq taken
    have kept_length : (log.entries.take (head.index - log.offset)).length =
        head.index - log.offset := by
      rw [length_take]
      omega
    constructor
    case invariant => exact invariant
    case idle => exact represents.idle
    case marker => exact represents.marker
    case first => exact first
    case last =>
      refine (congrArg (· + 1) tail_eq).trans ?_
      change _ = log.offset +
        (log.entries.take (head.index - log.offset) ++ head :: tail).length
      rw [length_append, kept_length, length_cons]
      omega
    case ordered =>
      intro _ stored
      have from_first := represents.stored_first stored
      change store.engine.first ≤ overlay.offset
      unfold Store.extendOverlay at extended
      split_ifs at extended with empty gap root
      · cases extended
        exact from_first ▸ first ▸ low_le
      · cases extended
        exact from_first ▸ first ▸ low_le
      · cases extended
        exact represents.ordered empty stored
    case numbered =>
      change Segment Entry.index log.offset
        (log.entries.take (head.index - log.offset) ++ head :: tail)
      rw [Segment.append_iff, kept_length,
        show log.offset + (head.index - log.offset) = head.index by omega]
      exact ⟨represents.numbered.take _, segment⟩
    case shown =>
      intro index low high
      have low : log.offset ≤ index := low
      change Store.visible _ index =
        (log.entries.take (head.index - log.offset) ++ head :: tail)[index - log.offset]?
      refine (visible_append (cons_ne_nil head tail) extended).trans ?_
      by_cases before : index < head.index
      · rw [if_pos before, represents.shown index low (by omega),
          getElem?_append_left (by omega), getElem?_take_of_lt (by omega)]
      · rw [if_neg before, getElem?_append_right (by omega), kept_length]
        congr 1
        omega

lemma reaches (pending : store.overlay.entries ≠ []) (stored : store.engine.entries ≠ []) :
    store.engine.first ≤ store.overlay.offset ∧ store.overlay.offset ≤ store.engine.bound :=
  ⟨represents.ordered pending stored,
    represents.invariant.covered.joined (length_pos_iff.mpr pending)
      (length_pos_iff.mpr stored)⟩

lemma drain (upTo : Nat) : Represents ((store.drainVisible upTo).getD store) log := by
  cases taken : store.drainVisible upTo with
  | none => exact represents
  | some after =>
    obtain ⟨labels, run⟩ := drainVisible_runs represents.idle taken
    have invariant : Invariant after :=
      run.invariant represents.invariant fun holds admitted stepped =>
        holds.step admitted.1 admitted.2 stepped
    have segment := represents.invariant.pending
    rcases drainVisible_eq segment represents.idle taken with
      rfl | ⟨count, written, positive, inside, written_eq, rfl⟩
    · exact represents
    · have pending : store.overlay.entries ≠ [] := by
        rw [← length_pos_iff]
        omega
      have drained : store.overlay.entries.take count ≠ [] := by
        rw [← length_pos_iff, length_take]
        omega
      have written_first := EngineLog.first_addEntries drained (segment.take count)
        (represents.reaches pending) written_eq
      have written_stored := (EngineLog.bound_of_addEntries drained (segment.take count)
        (fun stored => (represents.reaches pending stored).2) written_eq).2
      have first_eq : Store.firstIndex { store with engine := written } = store.firstIndex := by
        unfold Store.firstIndex EngineLog.firstIndex
        dsimp only
        rw [if_neg written_stored, written_first]
        split_ifs with empty
        · exact represents.invariant.covered.pending_alone (length_pos_iff.mpr pending)
            (length_eq_zero_iff.mpr empty)
        · rfl
      have written_low : written.first ≤ store.overlay.offset := by
        rw [written_first]
        split_ifs with empty
        · exact le_rfl
        · exact (represents.reaches pending empty).1
      constructor
      case invariant => exact invariant
      case idle => exact represents.idle
      case marker => exact represents.marker
      case first => exact first_eq.trans represents.first
      case last => exact represents.last
      case ordered =>
        intro rest _
        have rest_length := length_pos_iff.mpr rest
        obtain ⟨-, offset_eq, length_eq⟩ := drain_spec segment count
        change 0 < (store.overlay.drain count).entries.length at rest_length
        change written.first ≤ (store.overlay.drain count).offset
        rw [offset_eq, if_neg (by omega)]
        omega
      case numbered => exact represents.numbered
      case shown =>
        intro index low high
        obtain ⟨entry, seen, -⟩ := visible_of_covered represents.invariant.covered segment
          (represents.first.trans_le low) high
        have get_eq (index : Nat) : written.getEntry index = _ :=
          EngineLog.getEntry_addEntries drained (segment.take count)
            (fun stored => (represents.reaches pending stored).2) written_eq
        rw [← represents.shown index low high, seen]
        refine @visible_dropped { store with engine := written } index count entry segment
          (fun entry mem => ?_) ?_
        · obtain ⟨position, found⟩ := mem_iff_getElem?.mp mem
          have key := (segment.take count).key_getElem? found
          rw [get_eq, if_neg (by omega), key, Nat.add_sub_cancel_left, found]
        · unfold visible at seen ⊢
          by_cases below : index < store.overlay.offset
          · rw [if_pos (.inr below)] at seen ⊢
            exact (get_eq index).trans ((if_pos below).trans seen)
          · rw [if_neg (by simp [pending, below])] at seen ⊢
            exact seen

/-- Compacting up to the drained tail leaves its last entry in raft-engine. -/
lemma compact {compactIndex} (called : Sequential (.compact compactIndex) store) :
    Represents (store.settle (store.compact compactIndex)) (log.compact compactIndex) := by
  have called : compactIndex ≤ store.drainedTail := called
  have first := represents.first
  have last := represents.last
  have covered := represents.invariant.covered
  unfold ReferenceLog.compact
  split_ifs with below
  · have unchanged : store.compact compactIndex = .ok store := by
      rw [Store.compact, if_pos (by omega)]
    rw [unchanged]
    exact represents
  · have tail_le : store.drainedTail ≤ store.lastIndex ∧
        (store.overlay.entries = [] ∨ store.drainedTail + 1 ≤ store.overlay.offset) := by
      unfold Store.drainedTail
      split_ifs with empty
      · exact ⟨le_rfl, .inl empty⟩
      · have ends := represents.pending_end empty
        have starts : store.core.snapshotIndex < store.overlay.offset :=
          (covered.pending_ends (length_pos_iff.mpr empty)).1
        exact ⟨by omega, .inr (by omega)⟩
    obtain ⟨from_first, to_bound⟩ := stored_of_covered covered
      (show store.firstIndex ≤ compactIndex by omega) (Nat.lt_succ_self compactIndex)
      (by omega) (tail_le.2.imp_right (by omega))
    have stored : store.engine.entries ≠ [] := by
      intro empty
      simp only [EngineLog.bound, empty, length_nil] at to_bound
      omega
    have taken : store.compact compactIndex =
        .ok { store with engine := store.engine.compactTo compactIndex } := by
      rw [Store.compact, if_neg (by omega), if_neg (by omega)]
    have invariant := represents.invariant.compact (.inr (by omega)) taken
    have kept : (store.engine.compactTo compactIndex).entries ≠ [] := by
      intro emptied
      have := EngineLog.bound_le_of_compactTo_nil emptied stored
      omega
    have kept_first : (store.engine.compactTo compactIndex).first = compactIndex := by
      change store.engine.first + (compactIndex - store.engine.first) = compactIndex
      omega
    rw [taken]
    constructor
    case invariant => exact invariant
    case idle => exact represents.idle
    case marker => exact represents.marker
    case first =>
      change ((store.engine.compactTo compactIndex).firstIndex.getD _) = compactIndex
      rw [EngineLog.firstIndex, if_neg kept]
      exact kept_first
    case last =>
      change store.lastIndex + 1 =
        compactIndex + (log.entries.drop (compactIndex - log.offset)).length
      rw [length_drop]
      omega
    case ordered =>
      intro pending _
      change (store.engine.compactTo compactIndex).first ≤ store.overlay.offset
      rw [kept_first]
      have := tail_le.2.resolve_left pending
      omega
    case numbered =>
      have rest := represents.numbered.drop (compactIndex - log.offset)
      rwa [show log.offset + (compactIndex - log.offset) = compactIndex by omega] at rest
    case shown =>
      intro index low high
      have low : compactIndex ≤ index := low
      have high : index ≤ store.lastIndex := high
      change Store.visible _ index =
        (log.entries.drop (compactIndex - log.offset))[index - compactIndex]?
      rw [getElem?_drop]
      refine (visible_compact low).trans ((represents.shown index (by omega) high).trans ?_)
      congr 1
      omega

lemma step {call after} (called : Sequential call store)
    (taken : perform call store = some after) : Represents after (log.apply call) := by
  cases call with
  | appendVisible =>
    cases taken
    exact represents.append called
  | drainVisible upTo =>
    cases taken
    exact represents.drain upTo
  | compact =>
    cases taken
    exact represents.compact called
  | _ => exact called.elim

end

lemma run {bootstrapConfState calls finish}
    (run : Runs perform Sequential (Store.init bootstrapConfState) calls finish) :
    Represents finish (ReferenceLog.after calls) := by
  induction run with
  | nil => exact init bootstrapConfState
  | snoc _ called taken represents =>
    rw [ReferenceLog.after, foldl_append]
    exact represents.step called taken

end Represents

/-- After every sequence of appends, drains and compactions, the readers return what they return for
one list with a compaction offset, and a size limit allows the longest prefix that fits it. -/
theorem reads_as_reference_log {computeSize : Entry → Nat}
    (encoded : ∀ entry, 0 < entry.index → 0 < computeSize entry)
    {bootstrapConfState : Option ConfState} {calls : List Call} {finish : Store}
    (run : Runs perform Sequential (Store.init bootstrapConfState) calls finish) :
    Agrees computeSize finish (ReferenceLog.after calls) := (Represents.run run).agrees encoded

/-- The protobuf size of an entry without data whose term and index take one byte each. -/
private def bareSize (entry : Entry) : Nat :=
  (if entry.term = 0 then 0 else 2) + if entry.index = 0 then 0 else 2

/-- A conflicting append below the overlay, a partial drain and a compaction, and a read over the
seam whose budget ends behind it. -/
theorem reads_as_reference_log_over_seam :
    ∃ finish, Runs perform Sequential (Store.init none)
      [.appendVisible [.bare 1 1, .bare 1 2, .bare 1 3], .drainVisible 3,
        .appendVisible [.bare 2 3, .bare 2 4, .bare 2 5], .compact 2,
        .drainVisible 3] finish ∧
      finish.entriesWithin bareSize (some 12) 2 6 =
        .ok [.bare 1 2, .bare 2 3, .bare 2 4] ∧
      Agrees bareSize finish (ReferenceLog.after
        [.appendVisible [.bare 1 1, .bare 1 2, .bare 1 3], .drainVisible 3,
          .appendVisible [.bare 2 3, .bare 2 4, .bare 2 5], .compact 2,
          .drainVisible 3]) :=
  Runs.exists_and_of_execWhile (by decide) fun run _ =>
    reads_as_reference_log (fun _ _ => by unfold bareSize; split_ifs <;> omega) run

end Catga.Raft.Storage
