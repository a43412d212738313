import Catga.Raft.Storage
import Catga.Raft.StorageLayout

/-!
# The log that raft-rs sees

Every call of the owner and every step of the persist worker acts on the layout of the log.  The
log stays well formed as long as no snapshot overtakes a batch between its copy and its engine
write and no compaction empties the engine under a pending overlay.
-/

namespace Catga.Raft.Storage

open Foundation Transition Store List Option

namespace Store

def WellFormed (store : Store) : Prop :=
  store.core.snapshotIndex < store.firstIndex ∧ store.firstIndex ≤ store.lastIndex + 1 ∧
    (∀ index, store.firstIndex ≤ index → index ≤ store.lastIndex →
      ∃ term, store.term index = .ok term) ∧
    ∃ log, store.entries store.firstIndex (store.lastIndex + 1) = .ok log ∧
      log.map (·.index) =
        range' store.firstIndex (store.lastIndex + 1 - store.firstIndex)

/-- The entry a reader sees at an index: the pending one if there is one. -/
def visible (store : Store) (index : Nat) : Option Entry :=
  if store.overlay.entries = [] ∨ index < store.overlay.offset then store.engine.getEntry index
  else store.overlay.entries[index - store.overlay.offset]?

@[simp] def copiedFirst (store : Store) : Option Nat :=
  match store.worker with
  | .copied (head :: _) => some head.index
  | _ => none

def layout (store : Store) : Layout where
  snapshot := store.core.snapshotIndex
  last := store.lastIndex
  first := store.engine.first
  stored := store.engine.entries.length
  offset := store.overlay.offset
  pending := store.overlay.entries.length

end Store

/-- How raft-rs and the owner loop call the storage. -/
def Called : Label → Store → Prop
  | .appendVisible entries, store =>
    ∀ head ∈ entries.head?, Segment Entry.index head.index entries ∧
      store.core.snapshotIndex < head.index ∧ head.index ≤ store.lastIndex + 1
  | .applySnapshotVisible index _ _, store => store.core.snapshotIndex < index
  | _, _ => True

/-- No append starts below the first index, no snapshot reaches a copied batch, and no compaction
reaches past what raft-engine stores. -/
def Undisturbed : Label → Store → Prop
  | .appendVisible entries, store => ∀ head ∈ entries.head?, store.firstIndex ≤ head.index
  | .applySnapshotVisible index _ _, store => ∀ first ∈ store.copiedFirst, index < first
  | .providerSnapshot applied requestIndex, store =>
    ∀ first ∈ store.copiedFirst, max applied requestIndex < first
  | .compact compactIndex, store =>
    store.engine.entries = [] ∨ compactIndex < store.engine.bound
  | _, _ => True

instance : ∀ label store, Decidable (Called label store) := by
  rintro ⟨⟩ store <;> dsimp only [Called] <;> infer_instance

instance : ∀ label store, Decidable (Undisturbed label store) := by
  rintro ⟨⟩ store <;> dsimp only [Undisturbed] <;> infer_instance

variable {entries : List Entry} {drained : List Entry} {start : Nat} {log : EngineLog} {term : Nat}
  {confState : ConfState} {compactIndex : Nat}

namespace Store

variable {store after : Store}

lemma low_layout (store : Store) : store.layout.low = store.firstIndex := by
  unfold Layout.low firstIndex EngineLog.firstIndex
  by_cases empty : store.engine.entries = [] <;> simp [layout, empty]

variable {index low high : Nat} {tail : List Entry}

lemma engine_getEntry (low : log.first ≤ index) (high : index < log.bound) :
    ∃ entry, log.getEntry index = some entry := by
  have inside : index - log.first < log.entries.length := by
    unfold EngineLog.bound at high
    omega
  unfold EngineLog.getEntry
  rw [if_pos low, getElem?_eq_getElem inside]
  exact ⟨_, rfl⟩

lemma fetch_eq (from_first : log.first ≤ low) (low_lt : low < high) (to_bound : high ≤ log.bound) :
    log.fetchEntriesTo low high = .ok ((log.entries.drop (low - log.first)).take (high - low)) := by
  have nonempty : log.entries ≠ [] := by
    intro empty
    simp only [EngineLog.bound, empty, length_nil] at to_bound
    omega
  unfold EngineLog.fetchEntriesTo
  rw [if_neg nonempty, if_neg (not_lt.mpr from_first), if_neg (not_lt.mpr to_bound)]

lemma index_of_getEntry {entry} (found : log.getEntry index = some entry) :
    entry.index = index := by
  unfold EngineLog.getEntry at found
  split_ifs at found with from_first
  have key := log.consecutive.key_getElem? found
  omega

lemma length_of_fetchEntriesTo {fetched}
    (taken : log.fetchEntriesTo low high = .ok fetched) :
    fetched.length = high - low := by
  unfold EngineLog.fetchEntriesTo at taken
  split_ifs at taken with empty compacted missing
  cases taken
  rw [length_take, length_drop]
  unfold EngineLog.bound at missing
  omega

lemma fetch_getElem? {fetched} (taken : log.fetchEntriesTo low high = .ok fetched)
    (position : Nat) :
    fetched[position]? = if low + position < high then log.getEntry (low + position) else none := by
  unfold EngineLog.fetchEntriesTo at taken
  split_ifs at taken with empty compacted missing
  cases taken
  unfold EngineLog.getEntry
  rw [getElem?_take, getElem?_drop, if_pos (show log.first ≤ low + position by omega),
    show low - log.first + position = low + position - log.first by omega]
  by_cases within : low + position < high
  · rw [if_pos within, if_pos (by omega)]
  · rw [if_neg within, if_neg (by omega)]

lemma overlaySlice_getElem? (to_end : store.overlay.entries ≠ [] →
      high ≤ store.overlay.offset + store.overlay.entries.length) (position : Nat) :
    (store.overlaySlice low high)[position]? =
      if max low store.overlay.offset + position < high then
        store.overlay.entries[max low store.overlay.offset + position - store.overlay.offset]?
      else none := by
  unfold overlaySlice
  dsimp only
  by_cases served : store.overlay.entries ≠ [] ∧ store.overlay.offset < high
  · have within_log := to_end served.1
    rw [if_pos served]
    split_ifs with inside within within
    · rw [getElem?_take, getElem?_drop, if_pos (by omega)]
      congr 1
      omega
    · rw [getElem?_take, if_neg (by omega)]
    · omega
    · rfl
  · rw [if_neg served]
    split_ifs with within
    · have empty : store.overlay.entries = [] := by
        by_contra nonempty
        exact served ⟨nonempty, by omega⟩
      rw [empty]
      rfl
    · rfl

section

variable (ends : store.overlay.entries ≠ [] →
  store.overlay.offset + store.overlay.entries.length = store.lastIndex + 1)
include ends

/-- A read returns what is visible. -/
lemma visible_of_entries {listed} (taken : store.entries low high = .ok listed) :
    high ≤ store.lastIndex + 1 ∧ ∀ position, listed[position]? =
      if low + position < high then store.visible (low + position) else none := by
  have served (high_le : high ≤ store.lastIndex + 1) (position : Nat) :
      (store.overlaySlice low high)[position]? = _ :=
    overlaySlice_getElem? (fun pending => (ends pending).symm ▸ high_le) position
  unfold entries at taken
  split_ifs at taken with compacted outside spans
  · refine ⟨not_lt.mp outside, fun position => ?_⟩
    cases fetched_eq : store.engine.fetchEntriesTo low (store.engineHigh low high) with
    | error => simp only [fetched_eq] at taken; cases taken
    | ok =>
      have length_eq := length_of_fetchEntriesTo fetched_eq
      simp only [fetched_eq, length_eq, lt_irrefl, if_false] at taken
      cases taken
      rw [getElem?_append, fetch_getElem? fetched_eq, length_eq,
        served (not_lt.mp outside), visible]
      unfold engineHigh at spans ⊢
      grind
  · cases taken
    refine ⟨not_lt.mp outside, fun position => ?_⟩
    rw [served (not_lt.mp outside), visible]
    unfold engineHigh at spans
    grind

lemma entries_of_stored (low_le : store.firstIndex ≤ low) (high_le : high ≤ store.lastIndex + 1)
    (stored : low < store.engineHigh low high →
      store.engine.first ≤ low ∧ store.engineHigh low high ≤ store.engine.bound) :
    ∃ listed, store.entries low high = .ok listed ∧
      ∀ position, listed[position]? =
        if low + position < high then store.visible (low + position) else none := by
  obtain ⟨listed, taken⟩ : ∃ listed, store.entries low high = .ok listed := by
    unfold entries
    rw [if_neg (not_lt.mpr low_le), if_neg (not_lt.mpr high_le)]
    split_ifs with spans
    · obtain ⟨from_first, to_bound⟩ := stored spans
      simp only [fetch_eq from_first spans to_bound]
      split_ifs <;> exact ⟨_, rfl⟩
    · exact ⟨_, rfl⟩
  exact ⟨listed, taken, (visible_of_entries ends taken).2⟩

lemma term_eq_ok {term} (unmarked : index ≠ store.core.snapshotIndex) :
    store.term index = .ok term ↔ (store.firstIndex ≤ index ∧ index ≤ store.lastIndex) ∧
      ∃ entry, store.visible index = some entry ∧ entry.term = term := by
  unfold Store.term OverlayLog.term visible
  rw [if_neg unmarked]
  by_cases stored : store.overlay.entries = [] ∨ index < store.overlay.offset
  · simp only [if_pos stored]
    cases store.engine.getEntry index <;> grind
  · simp only [if_neg stored]
    cases found : store.overlay.entries[index - store.overlay.offset]? <;> grind

end

lemma entries_of_empty (empty : store.overlay.entries = []) (low_le : store.firstIndex ≤ low)
    (high_le : high ≤ store.lastIndex + 1)
    (stored : low < high → store.engine.first ≤ low ∧ high ≤ store.engine.bound) :
    ∃ listed, store.entries low high = .ok listed ∧
      ∀ position, listed[position]? =
        if low + position < high then store.engine.getEntry (low + position) else none := by
  have visible_eq : ∀ index, store.visible index = store.engine.getEntry index :=
    fun index => if_pos (.inl empty)
  have high_eq : store.engineHigh low high = high := if_pos empty
  simp only [← visible_eq]
  exact entries_of_stored (absurd empty) low_le high_le (high_eq.symm ▸ stored)

section

variable (covered : store.layout.Covered)
include covered

lemma stored_of_covered (low_le : store.firstIndex ≤ low) (low_lt : low < high)
    (high_le : high ≤ store.lastIndex + 1)
    (below : store.overlay.entries = [] ∨ high ≤ store.overlay.offset) :
    store.engine.first ≤ low ∧ high ≤ store.engine.bound := by
  have outside : ∀ index, index < high →
      ¬(0 < store.overlay.entries.length ∧ store.overlay.offset ≤ index ∧
        index < store.overlay.offset + store.overlay.entries.length) := by
    intro index index_lt inside
    rcases below with empty | before
    · simp [empty] at inside
    · omega
  have located : ∀ index, store.firstIndex ≤ index → index < high →
      store.engine.first ≤ index ∧ index < store.engine.bound := by
    intro index from_first index_lt
    obtain ⟨-, place⟩ := covered.locate (low_layout store ▸ from_first)
      (show index ≤ store.lastIndex by omega)
    obtain ⟨-, -, inside⟩ := place.resolve_left (outside index index_lt)
    exact inside
  have at_low := located low low_le low_lt
  have at_high := located (high - 1) (by omega) (by omega)
  exact ⟨at_low.1, by omega⟩

lemma ends_of_covered (pending : store.overlay.entries ≠ []) :
    store.overlay.offset + store.overlay.entries.length = store.lastIndex + 1 :=
  (covered.pending_ends (length_pos_iff.mpr pending)).2

lemma term_of_visible (low : store.firstIndex ≤ index) (high : index ≤ store.lastIndex)
    {entry} (seen : store.visible index = some entry) :
    store.term index = .ok entry.term := by
  have above : store.core.snapshotIndex < store.firstIndex :=
    low_layout store ▸ covered.low_bounds.1
  exact (term_eq_ok (ends_of_covered covered) (by omega)).mpr ⟨⟨low, high⟩, entry, seen, rfl⟩

/-- A read of a range inside the log returns what is visible there. -/
lemma entries_getElem? (low_le : store.firstIndex ≤ low) (high_le : high ≤ store.lastIndex + 1) :
    ∃ listed, store.entries low high = .ok listed ∧
      ∀ position, listed[position]? =
        if low + position < high then store.visible (low + position) else none := by
  refine entries_of_stored (ends_of_covered covered) low_le high_le fun spans => ?_
  have bounds : store.engineHigh low high ≤ high ∧
      (store.overlay.entries = [] ∨ store.engineHigh low high ≤ store.overlay.offset) := by
    unfold engineHigh at spans ⊢
    grind
  exact stored_of_covered covered low_le spans (by omega) bounds.2

variable (pending : Segment Entry.index store.overlay.offset store.overlay.entries)
include pending

lemma visible_of_covered (low : store.firstIndex ≤ index) (high : index ≤ store.lastIndex) :
    ∃ entry, store.visible index = some entry ∧ entry.index = index := by
  obtain ⟨-, place⟩ := covered.locate (low_layout store ▸ low) high
  unfold visible
  rcases place with ⟨some_pending, from_offset, to_end⟩ | ⟨outside, -, from_first, to_bound⟩
  · have some_pending : 0 < store.overlay.entries.length := some_pending
    have from_offset : store.overlay.offset ≤ index := from_offset
    have to_end : index < store.overlay.offset + store.overlay.entries.length := to_end
    have found := getElem?_eq_getElem (show index - store.overlay.offset <
      store.overlay.entries.length by omega)
    have key := pending.key_getElem? found
    rw [if_neg (not_or.mpr ⟨length_pos_iff.mp some_pending, not_lt.mpr from_offset⟩), found]
    exact ⟨_, rfl, by omega⟩
  · obtain ⟨entry, found⟩ := engine_getEntry from_first to_bound
    exact ⟨entry, (if_pos (outside.imp_left length_eq_zero_iff.mp)).trans found,
      index_of_getEntry found⟩

lemma term_of_covered (low : store.firstIndex ≤ index) (high : index ≤ store.lastIndex) :
    ∃ term, store.term index = .ok term := by
  obtain ⟨entry, seen, -⟩ := visible_of_covered covered pending low high
  exact ⟨entry.term, term_of_visible covered low high seen⟩

lemma entries_of_covered :
    ∃ log, store.entries store.firstIndex (store.lastIndex + 1) = .ok log ∧
      log.map (·.index) =
        range' store.firstIndex (store.lastIndex + 1 - store.firstIndex) := by
  obtain ⟨listed, listed_eq, at_position⟩ := entries_getElem? covered le_rfl le_rfl
  exact ⟨listed, listed_eq, map_key_of_getElem? at_position fun low high =>
    visible_of_covered covered pending low (Nat.le_of_lt_succ high)⟩

lemma wellFormed_of_covered : store.WellFormed := by
  have bounds := covered.low_bounds
  rw [low_layout] at bounds
  exact ⟨bounds.1, bounds.2, fun _ low high => term_of_covered covered pending low high,
    entries_of_covered covered pending⟩

end

lemma getLast_index {head} (segment : Segment Entry.index head.index (head :: tail)) :
    ((head :: tail).getLast?.map (·.index)).getD head.index =
      head.index + (tail.length + 1) - 1 := by
  have found : (head :: tail)[tail.length]? = (head :: tail).getLast? := by
    rw [getLast?_eq_getElem?, length_cons, Nat.add_sub_cancel]
  rw [getLast?_eq_some_getLast (cons_ne_nil head tail)] at found ⊢
  have key := segment.key_getElem? found
  simp only [map_some, getD_some, key]
  omega

/-- Extending the overlay keeps it consecutive and gives it the length of the layout. -/
lemma extendOverlay_spec {overlay extended first}
    (segment : Segment Entry.index first entries)
    (pending : Segment Entry.index overlay.offset overlay.entries)
    (taken : extendOverlay overlay first entries = some extended) :
    Segment Entry.index extended.offset extended.entries ∧
      (if overlay.entries.length = 0 ∨ first ≤ overlay.offset then
        extended.offset = first ∧ extended.entries.length = entries.length
      else extended.offset = overlay.offset ∧
        extended.entries.length = first - overlay.offset + entries.length) := by
  unfold extendOverlay at taken
  by_cases empty : overlay.entries = []
  · rw [if_pos empty] at taken
    cases taken
    exact ⟨segment, by simp [empty]⟩
  · rw [if_neg empty] at taken
    split_ifs at taken with gap root
    · cases taken
      exact ⟨segment, by simp [root]⟩
    · cases taken
      have reach : first - overlay.offset ≤ overlay.entries.length := by omega
      have kept_length : (overlay.entries.take (first - overlay.offset)).length =
          first - overlay.offset := by
        rw [length_take, min_eq_left reach]
      constructor
      · rw [Segment.append_iff, kept_length,
          show overlay.offset + (first - overlay.offset) = first by omega]
        exact ⟨pending.take _, segment⟩
      · rw [if_neg (by simp [empty, root]), length_append, kept_length]
        exact ⟨rfl, rfl⟩

variable {head : Entry}

lemma appendVisible_eq (taken : store.appendVisible (head :: tail) = .ok after) :
    store.core.snapshotIndex < head.index ∧
      ∃ overlay, extendOverlay store.overlay head.index (head :: tail) = some overlay ∧
        after = { store with
          overlay
          core := { store.core with
            lastValidIndex := ((head :: tail).getLast?.map (·.index)).getD head.index } } := by
  simp only [appendVisible] at taken
  split at taken
  · cases taken
  · rename_i above
    split at taken <;> cases taken
    rename_i overlay extended
    exact ⟨not_le.mp above, overlay, extended, rfl⟩

/-- An append acts on the layout as one, and only on the overlay and the visible tail. -/
lemma appendVisible_spec (segment : Segment Entry.index head.index (head :: tail))
    (pending : Segment Entry.index store.overlay.offset store.overlay.entries)
    (taken : store.appendVisible (head :: tail) = .ok after) :
    after.layout = store.layout.append head.index (tail.length + 1) ∧
      Segment Entry.index after.overlay.offset after.overlay.entries ∧
      after.worker = store.worker := by
  obtain ⟨above, overlay, overlay_eq, rfl⟩ := appendVisible_eq taken
  obtain ⟨extended, shape⟩ := extendOverlay_spec segment pending overlay_eq
  refine ⟨?_, extended, rfl⟩
  have last_eq := getLast_index segment
  have last_pos : 0 < head.index + (tail.length + 1) - 1 := by omega
  unfold Layout.append
  split_ifs at shape with root
  · rw [if_pos (show store.layout.pending = 0 ∨ head.index ≤ store.layout.offset from root)]
    simp only [layout, lastIndex, last_eq, if_pos last_pos, shape.1, shape.2, length_cons]
  · rw [if_neg (show ¬(store.layout.pending = 0 ∨ head.index ≤ store.layout.offset) from root)]
    simp only [layout, lastIndex, last_eq, if_pos last_pos, shape.1, shape.2, length_cons]

lemma appendVisible_shape (taken : store.appendVisible entries = .ok after) :
    ∃ overlay last,
      after = { store with overlay, core := { store.core with lastValidIndex := last } } := by
  cases entries with
  | nil =>
    cases taken
    exact ⟨_, _, rfl⟩
  | cons =>
    obtain ⟨-, overlay, -, after_eq⟩ := appendVisible_eq taken
    exact ⟨overlay, _, after_eq⟩

lemma appendVisible_frame (taken : store.appendVisible entries = .ok after) :
    after.engine = store.engine ∧ after.file = store.file ∧
      after.core.snapshotIndex = store.core.snapshotIndex := by
  obtain ⟨overlay, last, rfl⟩ := appendVisible_shape taken
  exact ⟨rfl, rfl, rfl⟩

/-- Dropping the first pending entries acts on the layout as a drain. -/
lemma drain_spec {overlay : OverlayLog}
    (pending : Segment Entry.index overlay.offset overlay.entries) (count : Nat) :
    Segment Entry.index (overlay.drain count).offset (overlay.drain count).entries ∧
      (overlay.drain count).offset =
        (if overlay.entries.length ≤ count then 0 else overlay.offset + count) ∧
      (overlay.drain count).entries.length = overlay.entries.length - count := by
  have rest := pending.drop count
  unfold OverlayLog.drain
  cases rest_eq : overlay.entries.drop count with
  | nil =>
    have short : overlay.entries.length ≤ count := drop_eq_nil_iff.mp rest_eq
    refine ⟨Segment.nil, ?_, ?_⟩
    · simp [short]
    · simp only [length_nil]
      omega
  | cons head =>
    rw [rest_eq] at rest
    have length_eq := congrArg List.length rest_eq
    rw [length_drop, length_cons] at length_eq
    have long : ¬overlay.entries.length ≤ count := by omega
    refine ⟨?_, ?_, length_eq.symm⟩
    · simp only [head?_cons, map_some, getD_some, rest.key_head]
      exact rest
    · simp only [head?_cons, map_some, getD_some, rest.key_head]
      rw [if_neg long]

/-- Dropping pending entries that raft-engine holds leaves every entry visible. -/
lemma visible_dropped {count : Nat} {entry}
    (pending : Segment Entry.index store.overlay.offset store.overlay.entries)
    (stored : ∀ entry ∈ store.overlay.entries.take count,
      store.engine.getEntry entry.index = some entry)
    (seen : store.visible index = some entry) :
    Store.visible { store with overlay := store.overlay.drain count } index = some entry := by
  obtain ⟨-, offset_eq, -⟩ := drain_spec pending count
  have rest_eq : (store.overlay.drain count).entries = store.overlay.entries.drop count := rfl
  unfold visible at seen ⊢
  dsimp only
  rw [rest_eq, offset_eq]
  have served (below : index < store.overlay.offset + count) :
      store.overlay.entries.drop count = [] ∨
        index < if store.overlay.entries.length ≤ count then 0
          else store.overlay.offset + count := by
    by_cases all : store.overlay.entries.length ≤ count
    · exact .inl (drop_eq_nil_iff.mpr all)
    · exact .inr (by rw [if_neg all]; exact below)
  split_ifs at seen with outside
  · rw [if_pos]
    · exact seen
    · rcases outside with empty | below
      · exact .inl (by rw [empty, drop_nil])
      · exact served (by omega)
  · have key := pending.key_getElem? seen
    have inside := (List.getElem?_eq_some_iff.mp seen).1
    have from_offset : store.overlay.offset ≤ index :=
      not_lt.mp fun below => outside (.inr below)
    by_cases dropped : index - store.overlay.offset < count
    · rw [if_pos (served (by omega))]
      have taken := stored entry (mem_of_getElem? ((getElem?_take_of_lt dropped).trans seen))
      rwa [key, Nat.add_sub_cancel' from_offset] at taken
    · have some_left : ¬store.overlay.entries.length ≤ count := by omega
      rw [if_neg some_left, if_neg (by rw [drop_eq_nil_iff]; omega), getElem?_drop, ← seen]
      congr 1
      omega

lemma applySnapshotVisible_spec (above : store.core.snapshotIndex < index)
    (taken : store.applySnapshotVisible index term confState = .ok after) :
    after.layout = store.layout.install index ∧ store.firstIndex ≤ index ∧
      after.overlay = .empty ∧ after.worker = store.worker := by
  unfold applySnapshotVisible at taken
  rw [if_neg (by omega)] at taken
  dsimp only at taken
  split at taken <;> cases taken
  rename_i fresh
  refine ⟨?_, not_lt.mp fresh, rfl, rfl⟩
  have index_pos : 0 < index := by omega
  simp [layout, Layout.install, Layout.compact, lastIndex, EngineLog.compactTo, OverlayLog.empty]

lemma recordSnapshot_core (store : Store) (index term : Nat) :
    (store.recordSnapshot index term).core.hardState = store.core.hardState ∧
      (store.recordSnapshot index term).core.durableLastIndex = store.core.durableLastIndex ∧
      (store.recordSnapshot index term).core.lastValidIndex = store.core.lastValidIndex ∧
      (store.recordSnapshot index term).core.snapshotIndex =
        max store.core.snapshotIndex index := by
  simp only [recordSnapshot, persistCore]
  split_ifs with below
  · exact ⟨rfl, rfl, rfl, (max_eq_right (le_of_lt below)).symm⟩
  · exact ⟨rfl, rfl, rfl, (max_eq_left (not_lt.mp below)).symm⟩

lemma recordSnapshot_lastIndex (term : Nat) (snapshot_le : store.core.snapshotIndex ≤ index)
    (le_last : index ≤ store.lastIndex) :
    (store.recordSnapshot index term).lastIndex = store.lastIndex := by
  obtain ⟨-, -, tail, marker⟩ := recordSnapshot_core store index term
  unfold lastIndex at le_last ⊢
  rw [marker, tail]
  split_ifs at le_last ⊢
  · rfl
  · omega

/-- A compaction does nothing at or below the first index and is refused past the last one. -/
lemma compact_eq (taken : store.compact compactIndex = .ok after) :
    after = store ∨ (store.firstIndex < compactIndex ∧ compactIndex ≤ store.lastIndex + 1) ∧
      after = { store with engine := store.engine.compactTo compactIndex } := by
  unfold compact at taken
  split_ifs at taken with low beyond
  · cases taken
    exact .inl rfl
  · cases taken
    exact .inr ⟨⟨not_le.mp low, not_lt.mp beyond⟩, rfl⟩

lemma layout_compactTo (store : Store) (compactIndex : Nat) :
    Store.layout { store with engine := store.engine.compactTo compactIndex } =
      store.layout.compact compactIndex := by
  simp [layout, lastIndex, Layout.compact, EngineLog.compactTo]

lemma recordSnapshot_spec (term : Nat)
    (pending : Segment Entry.index store.overlay.offset store.overlay.entries)
    (snapshot_le : store.core.snapshotIndex ≤ index) (le_last : index ≤ store.lastIndex) :
    (store.recordSnapshot index term).layout = store.layout.record index ∧
      Segment Entry.index (store.recordSnapshot index term).overlay.offset
        (store.recordSnapshot index term).overlay.entries := by
  obtain ⟨-, -, -, marker⟩ := recordSnapshot_core store index term
  have tail := recordSnapshot_lastIndex term snapshot_le le_last
  unfold Layout.record
  by_cases covered : 0 < store.overlay.entries.length ∧ store.overlay.offset ≤ index
  · rw [if_pos (show 0 < store.layout.pending ∧ store.layout.offset ≤ index from covered)]
    have count : (store.overlay.entries.takeWhile (fun entry => entry.index ≤ index)).length =
        min (index + 1 - store.overlay.offset) store.overlay.entries.length := by
      rw [pending.takeWhile_le index, length_take]
    have overlay_eq : (store.recordSnapshot index term).overlay = store.overlay.drain
        (min (index + 1 - store.overlay.offset) store.overlay.entries.length) := by
      simp only [recordSnapshot, persistCore]
      rw [if_pos ⟨length_pos_iff.mp covered.1, covered.2⟩, count]
    obtain ⟨segment, offset_eq, length_eq⟩ := drain_spec pending
      (min (index + 1 - store.overlay.offset) store.overlay.entries.length)
    rw [overlay_eq]
    refine ⟨?_, segment⟩
    simp only [layout, tail, marker, overlay_eq, offset_eq, length_eq, Layout.compact, Layout.drain]
    simp only [recordSnapshot, persistCore, EngineLog.compactTo, length_drop]
    rfl
  · rw [if_neg (show ¬(0 < store.layout.pending ∧ store.layout.offset ≤ index) from covered)]
    have overlay_eq : (store.recordSnapshot index term).overlay = store.overlay := by
      simp only [recordSnapshot, persistCore]
      rw [if_neg (fun served => covered ⟨length_pos_iff.mpr served.1, served.2⟩)]
    rw [overlay_eq]
    refine ⟨?_, pending⟩
    simp only [layout, tail, marker, overlay_eq, Layout.compact]
    simp [recordSnapshot, persistCore, EngineLog.compactTo]

end Store

/-- A batch that leaves no hole replaces what was stored from its start on. -/
lemma EngineLog.addEntries_spec (nonempty : drained ≠ [])
    (segment : Segment Entry.index start drained) (reaches : log.entries ≠ [] → start ≤ log.bound) :
    ∃ written, log.addEntries drained = some written ∧
      if log.entries = [] ∨ start < log.first then
        written.first = start ∧ written.entries = drained
      else written.first = log.first ∧
        written.entries = log.entries.take (start - log.first) ++ drained := by
  cases drained with
  | nil => exact absurd rfl nonempty
  | cons head =>
    obtain rfl : head.index = start := segment.key_head
    simp only [addEntries]
    rw [dif_pos segment]
    by_cases empty : log.entries = []
    · rw [dif_pos empty]
      refine ⟨_, rfl, ?_⟩
      rw [if_pos (.inl empty)]
      exact ⟨rfl, rfl⟩
    · rw [dif_neg empty]
      by_cases low : log.first ≤ head.index
      · rw [dif_pos ⟨low, reaches empty⟩]
        refine ⟨_, rfl, ?_⟩
        rw [if_neg (by simp only [empty, false_or]; omega)]
        exact ⟨rfl, rfl⟩
      · rw [dif_neg (fun inside => low inside.1), if_pos (by omega)]
        refine ⟨_, rfl, ?_⟩
        rw [if_pos (.inr (by omega))]
        exact ⟨rfl, rfl⟩

namespace Store

variable {store after : Store}

/-- The engine write of a batch that leaves no hole acts on the layout as one. -/
lemma writeDrained_spec (nonempty : drained ≠ []) (segment : Segment Entry.index start drained)
    (writable : store.layout.Writable start) :
    (store.writeDrained drained).layout = store.layout.write start drained.length ∧
      (store.writeDrained drained).worker = .written drained ∧
      (store.writeDrained drained).overlay = store.overlay := by
  have reaches : store.engine.entries ≠ [] → start ≤ store.engine.bound :=
    fun stored => writable.reaches (length_pos_iff.mpr stored)
  obtain ⟨written, written_eq, shape⟩ :=
    EngineLog.addEntries_spec nonempty segment reaches
  unfold writeDrained
  rw [written_eq]
  refine ⟨?_, rfl, rfl⟩
  unfold Layout.write
  split_ifs at shape with fresh
  · rw [if_pos (show store.layout.stored = 0 ∨ start < store.layout.first by
      simpa [layout] using fresh)]
    simp [layout, lastIndex, shape.1, shape.2]
  · rw [if_neg (show ¬(store.layout.stored = 0 ∨ start < store.layout.first) by
      simpa [layout] using fresh)]
    have reach : start ≤ store.engine.first + store.engine.entries.length :=
      reaches (fun empty => fresh (.inl empty))
    simp only [layout, lastIndex, shape.1, shape.2, length_append, length_take]
    rw [min_eq_left (by omega)]

lemma removeDrained_spec (nonempty : drained ≠ []) (segment : Segment Entry.index start drained)
    (pending : Segment Entry.index store.overlay.offset store.overlay.entries) :
    Segment Entry.index (store.removeDrained drained).overlay.offset
        (store.removeDrained drained).overlay.entries ∧
      ((store.removeDrained drained).layout = store.layout ∨
        store.overlay.offset = start ∧ drained.length ≤ store.overlay.entries.length ∧
          (store.removeDrained drained).layout = store.layout.drain drained.length) := by
  unfold removeDrained
  dsimp only
  split_ifs with unchanged
  · obtain ⟨segment', offset_eq, length_eq⟩ := drain_spec pending drained.length
    refine ⟨segment', .inr ⟨?_, unchanged.1, ?_⟩⟩
    · cases drained with
      | nil => exact absurd rfl nonempty
      | cons head =>
        have offset_head : store.overlay.offset = head.index := by simpa using unchanged.2.1
        rw [offset_head, segment.key_head]
    · simp only [layout, lastIndex, Layout.drain, offset_eq, length_eq]
      rfl
  · exact ⟨pending, .inl rfl⟩

end Store

/-- What the layout says about the batch the persist worker holds. -/
def Draining (worker : Worker) (layout : Layout) : Prop :=
  match worker with
  | .copied drained => ∃ start, drained ≠ [] ∧ Segment Entry.index start drained ∧
      layout.Writable start
  | .written drained => ∃ start, drained ≠ [] ∧ Segment Entry.index start drained ∧
      layout.Kept start drained.length
  | .idle | .removed _ | .halted => True

/-- A batch stays in step with a layout that keeps both of its properties. -/
lemma Draining.map {worker before after} (draining : Draining worker before)
    (writable : ∀ drained start, worker = .copied drained →
      Segment Entry.index start drained → drained ≠ [] →
        before.Writable start → after.Writable start)
    (kept : ∀ start count, 0 < count → before.Kept start count → after.Kept start count) :
    Draining worker after := by
  cases worker with
  | copied drained =>
    obtain ⟨start, nonempty, segment, held⟩ := draining
    exact ⟨start, nonempty, segment, writable drained start rfl segment nonempty held⟩
  | written =>
    obtain ⟨start, nonempty, segment, held⟩ := draining
    exact ⟨start, nonempty, segment, kept start _ (length_pos_iff.mpr nonempty) held⟩
  | idle | removed | halted => trivial

/-- The joint invariant of the owner and the persist worker. -/
structure Invariant (store : Store) : Prop where
  covered : store.layout.Covered
  pending : Segment Entry.index store.overlay.offset store.overlay.entries
  draining : Draining store.worker store.layout

namespace Invariant

variable {store after : Store}

lemma init (bootstrapConfState : Option ConfState) : Invariant (Store.init bootstrapConfState) := by
  have shape : (Store.init bootstrapConfState).layout =
      { snapshot := 0, last := 0, first := 0, stored := 0, offset := 0, pending := 0 } := rfl
  exact { covered := by rw [shape]; constructor <;> simp, pending := trivial, draining := trivial }

variable {index : Nat}

lemma copied_lt (guard : ∀ first ∈ store.copiedFirst, index < first)
    (copied : store.worker = .copied drained) (segment : Segment Entry.index start drained)
    (nonempty : drained ≠ []) : index < start := by
  cases drained with
  | nil => exact absurd rfl nonempty
  | cons head =>
    rw [← segment.key_head]
    exact guard head.index (by simp [copied])

variable (invariant : Invariant store) {applied requestIndex : Nat}
include invariant

lemma append (called : Called (.appendVisible entries) store)
    (condition : Undisturbed (.appendVisible entries) store)
    (taken : store.appendVisible entries = .ok after) : Invariant after := by
  cases entries with
  | nil =>
    cases taken
    exact invariant
  | cons head =>
    obtain ⟨segment, -, le_last⟩ := called head rfl
    have low_le : store.layout.low ≤ head.index := by
      rw [low_layout]
      exact condition head rfl
    obtain ⟨layout_eq, pending, worker_eq⟩ :=
      appendVisible_spec segment invariant.pending taken
    refine ⟨?_, pending, ?_⟩
    · rw [layout_eq]
      exact invariant.covered.append (Nat.succ_pos _) low_le le_last
    · rw [layout_eq, worker_eq]
      exact invariant.draining.map
        (fun _ _ _ _ _ writable => writable.append le_last (Nat.succ_pos _))
        (fun _ _ _ kept => kept.append _ _)

lemma install (above : store.core.snapshotIndex < index)
    (condition : ∀ first ∈ store.copiedFirst, index < first)
    (taken : store.applySnapshotVisible index term confState = .ok after) : Invariant after := by
  obtain ⟨layout_eq, low_le, overlay_eq, worker_eq⟩ :=
    applySnapshotVisible_spec above taken
  refine ⟨?_, ?_, ?_⟩
  · rw [layout_eq]
    exact invariant.covered.install (low_layout store ▸ low_le)
  · rw [overlay_eq]
    exact Segment.nil
  · rw [layout_eq, worker_eq]
    exact invariant.draining.map
      (fun _ _ copied segment nonempty writable =>
        writable.install above (copied_lt condition copied segment nonempty))
      (fun _ _ count_pos kept => kept.install count_pos above)

lemma record (condition : ∀ first ∈ store.copiedFirst, index < first)
    (snapshot_le : store.core.snapshotIndex ≤ index) (le_last : index ≤ store.lastIndex) :
    Invariant (store.recordSnapshot index term) := by
  obtain ⟨layout_eq, pending⟩ :=
    recordSnapshot_spec term invariant.pending snapshot_le le_last
  have worker_eq : (store.recordSnapshot index term).worker = store.worker := rfl
  refine ⟨?_, pending, ?_⟩
  · rw [layout_eq]
    exact invariant.covered.record snapshot_le le_last
  · rw [layout_eq, worker_eq]
    exact invariant.draining.map
      (fun _ _ copied segment nonempty writable =>
        writable.record invariant.covered snapshot_le
          (copied_lt condition copied segment nonempty))
      (fun _ _ count_pos kept => kept.record count_pos snapshot_le)

/-- A snapshot is only built at an index whose term is known, so never below the marker. -/
lemma provided (taken : store.providerSnapshot applied requestIndex = some after) :
    ∃ term, after = store.recordSnapshot (max applied requestIndex) term ∧
      store.core.snapshotIndex ≤ max applied requestIndex ∧
      max applied requestIndex ≤ store.lastIndex := by
  unfold Store.providerSnapshot at taken
  dsimp only at taken
  split at taken
  · cases taken
  · split at taken
    · cases taken
    · rename_i within
      split at taken <;> cases taken
      rename_i term term_eq
      refine ⟨term, rfl, ?_, not_lt.mp within⟩
      by_contra below
      have low := invariant.covered.low_bounds.1
      rw [low_layout] at low
      have snapshot_lt : store.core.snapshotIndex < store.firstIndex := low
      unfold Store.term at term_eq
      rw [if_neg (by omega), if_pos (by omega)] at term_eq
      cases term_eq

lemma provider (condition : ∀ first ∈ store.copiedFirst, max applied requestIndex < first)
    (taken : store.providerSnapshot applied requestIndex = some after) : Invariant after := by
  obtain ⟨term, rfl, snapshot_le, le_last⟩ := invariant.provided taken
  exact invariant.record condition snapshot_le le_last

lemma compact (condition : Undisturbed (.compact compactIndex) store)
    (taken : store.compact compactIndex = .ok after) : Invariant after := by
  rcases compact_eq taken with rfl | ⟨⟨low_lt, le_last⟩, rfl⟩
  · exact invariant
  · have within : store.layout.stored = 0 ∨
        compactIndex < store.layout.first + store.layout.stored := by
      rcases condition with empty | within
      · exact .inl (by simp [Store.layout, empty])
      · exact .inr within
    refine ⟨?_, invariant.pending, ?_⟩
    · rw [layout_compactTo]
      refine invariant.covered.compact ?_ le_last within
      rw [low_layout]
      exact low_lt
    · rw [layout_compactTo]
      exact invariant.draining.map (fun _ _ _ _ _ writable => writable.compact within)
        (fun _ _ _ kept => kept.compact within)

lemma copy (upTo : Nat) : Invariant (store.copyPrefix upTo) := by
  unfold Store.copyPrefix
  dsimp only
  split_ifs with nonempty
  · exact invariant
  · refine ⟨invariant.covered, invariant.pending, store.overlay.offset, nonempty, ?_, ?_⟩
    · rw [invariant.pending.takeWhile_le upTo]
      exact invariant.pending.take _
    · refine Layout.Writable.of_prefix invariant.covered ?_
      by_contra empty
      have none_pending : store.overlay.entries = [] := by simpa [Store.layout] using empty
      simp [none_pending] at nonempty

lemma write (copied : store.worker = .copied drained) :
    Invariant (store.writeDrained drained) := by
  have draining := invariant.draining
  rw [copied] at draining
  obtain ⟨start, nonempty, segment, writable⟩ := draining
  obtain ⟨layout_eq, worker_eq, overlay_eq⟩ :=
    writeDrained_spec nonempty segment writable
  have count_pos := length_pos_iff.mpr nonempty
  refine ⟨?_, ?_, ?_⟩
  · rw [layout_eq]
    exact invariant.covered.write writable count_pos
  · rw [overlay_eq]
    exact invariant.pending
  · rw [layout_eq, worker_eq]
    exact ⟨start, nonempty, segment, Layout.Kept.of_write writable count_pos⟩

lemma remove (written : store.worker = .written drained) :
    Invariant (store.removeDrained drained) := by
  have draining := invariant.draining
  rw [written] at draining
  obtain ⟨start, nonempty, segment, kept⟩ := draining
  obtain ⟨pending, shape⟩ :=
    removeDrained_spec nonempty segment invariant.pending
  refine ⟨?_, pending, trivial⟩
  rcases shape with layout_eq | ⟨aligned, enough, layout_eq⟩
  · rw [layout_eq]
    exact invariant.covered
  · rw [layout_eq]
    exact invariant.covered.drain kept aligned enough

lemma step {label} (called : Called label store) (condition : Undisturbed label store)
    (taken : Storage.step label store = some after) : Invariant after := by
  cases label with
  | appendVisible entries =>
    cases taken
    cases result : store.appendVisible entries with
    | error => exact invariant
    | ok => exact invariant.append called condition result
  | applySnapshotVisible index term confState =>
    cases taken
    cases result : store.applySnapshotVisible index term confState with
    | error => exact invariant
    | ok => exact invariant.install called condition result
  | providerSnapshot applied requestIndex =>
    cases taken
    cases result : store.providerSnapshot applied requestIndex with
    | none => exact invariant
    | some => exact invariant.provider condition result
  | compact compactIndex =>
    cases taken
    cases result : store.compact compactIndex with
    | error => exact invariant
    | ok => exact invariant.compact condition result
  | setHardState | setConfState | persistSnapshotState =>
    cases taken
    exact { invariant with }
  | copy upTo =>
    simp only [Storage.step] at taken
    split at taken <;> cases taken
    exact invariant.copy upTo
  | write =>
    simp only [Storage.step] at taken
    split at taken <;> cases taken
    exact invariant.write ‹_›
  | remove =>
    simp only [Storage.step] at taken
    split at taken <;> cases taken
    exact invariant.remove ‹_›
  | raise =>
    simp only [Storage.step] at taken
    split at taken <;> cases taken
    exact ⟨invariant.covered, invariant.pending, trivial⟩

end Invariant

/-- In every run whose steps are undisturbed the storage presents a well-formed log in every
state. -/
theorem wellFormed_of_undisturbed {bootstrapConfState : Option ConfState} {labels : List Label}
    {finish : Store}
    (run : Runs step (fun label store => Called label store ∧ Undisturbed label store)
      (Store.init bootstrapConfState) labels finish) : finish.WellFormed := by
  have invariant : Invariant finish :=
    run.invariant (Invariant.init bootstrapConfState) fun holds admitted taken =>
      holds.step admitted.1 admitted.2 taken
  exact wellFormed_of_covered invariant.covered invariant.pending

/-- Appends, a conflicting append between copy and write, a drain, a compaction, a data-bearing
snapshot and an installed snapshot all leave the log well formed. -/
theorem wellFormed_through_conflict_and_snapshots :
    ∃ finish, Runs step (fun label store => Called label store ∧ Undisturbed label store)
      (Store.init none)
      [.appendVisible [.bare 1 1, .bare 1 2, .bare 1 3], .copy 3,
        .appendVisible [.bare 2 2, .bare 2 3, .bare 2 4], .write, .remove, .raise, .copy 4,
        .write, .remove, .raise, .compact 2, .appendVisible [.bare 2 5], .providerSnapshot 3 0,
        .applySnapshotVisible 9 3 .default, .appendVisible [.bare 3 10]] finish ∧
      (finish.firstIndex = 10 ∧ finish.lastIndex = 10) ∧ finish.WellFormed :=
  Runs.exists_and_of_execWhile (by decide) fun run _ => wellFormed_of_undisturbed run

/-- A snapshot at 5 between the copy of entries 1 to 3 and their engine write: the write puts the
covered entries back, so that the first index is 1 again. -/
theorem snapshot_overtakes_copied_batch :
    ∃ finish, Runs step Called (Store.init none)
      [.appendVisible [.bare 1 1, .bare 1 2, .bare 1 3], .copy 3,
        .applySnapshotVisible 5 1 .default, .write] finish ∧ ¬finish.WellFormed :=
  Runs.exists_of_test (fun store => ¬store.core.snapshotIndex < store.firstIndex) (by decide)
    fun _ torn wellFormed => torn wellFormed.1

end Catga.Raft.Storage
