import Catga.Raft.PersistLedger
import Mathlib.Data.List.Fold
import Mathlib.Data.List.MinMax
import Mathlib.Order.Nat

/-!
# How far the log is durable

Every index that is served by raft-engine alone lies at or below the durable tail, and so does every
newest entry of a ready whose batch has been drained.  A snapshot must not become visible while a
persist is in flight.
-/

namespace Catga.Raft.Persist

open Foundation Storage Store List Node

variable {ready : Ready} {tasks : List Ready}

/-- A ready with a snapshot carries no entries, and the snapshot becomes visible only while no
persist is in flight, and is restored. -/
def Calm : Label → Node → Prop
  | .take ready, _ => 0 < ready.snapshotIndex → ready.entries = []
  | .install restored, node =>
    ∀ ready ∈ node.owner.current, 0 < ready.snapshotIndex →
      node.persistInFlight = 0 ∧ restored = true
  | _, _ => True

instance : ∀ label node, Decidable (Calm label node) := by
  rintro ⟨⟩ node <;> dsimp only [Calm] <;> infer_instance

/-- The tasks whose entries `drain_visible` has copied. -/
def Work.drained : Work → List Ready
  | .draining tasks | .snapshots tasks _ => tasks
  | .waiting | .received _ | .stopped _ => []

def lastOf (drained : List Entry) : Nat := (drained.getLast?.map (·.index)).getD 0

/-- How far the batch in `drain_visible` reaches. -/
def reach : Worker → Nat
  | .copied drained | .written drained => lastOf drained
  | .removed last => last
  | .idle | .halted => 0

variable {drained : List Entry}

lemma lastOf_eq {start} (segment : Segment Entry.index start drained)
    (nonempty : drained ≠ []) : lastOf drained = start + drained.length - 1 := by
  rw [lastOf, segment.key_getLast? nonempty, Option.getD_some]

lemma upTo_eq (tasks : List Ready) :
    upTo tasks = (tasks.map Ready.tailHint).foldr max ⊥ := foldl_eq_foldr

lemma tailHint_le_upTo (task : ready ∈ tasks) : ready.tailHint ≤ upTo tasks := by
  rw [upTo_eq]
  exact le_max_of_le (mem_map_of_mem task) le_rfl

lemma exists_tail (some_tail : upTo tasks ≠ 0) : ∃ later ∈ tasks, later.entries ≠ [] := by
  by_contra! empty
  refine some_tail (Nat.le_zero.mp ?_)
  rw [upTo_eq]
  refine max_le_of_forall_le _ _ fun hint listed => ?_
  obtain ⟨later, task, rfl⟩ := mem_map.mp listed
  simp [Ready.tailHint, empty later task]

lemma tailHint_eq {start} (segment : Segment Entry.index start ready.entries)
    (nonempty : ready.entries ≠ []) :
    ready.tailHint = start + ready.entries.length - 1 := lastOf_eq segment nonempty

lemma lastHardState_covers (ordered : tasks.Pairwise Precedes)
    {last hardState} (last_eq : lastHardState tasks = some last)
    (task : ready ∈ tasks) (carried : hardState ∈ ready.hardState) : Covers last hardState := by
  have rising : (tasks.filterMap Ready.hardState).Pairwise fun older newer => Covers newer older :=
    ordered.filterMap _ fun earlier later precedes older older_mem newer newer_mem =>
      (precedes.2 older older_mem).1 newer newer_mem
  obtain ⟨others, split⟩ := List.getLast?_eq_some_iff.mp last_eq
  have member : hardState ∈ tasks.filterMap Ready.hardState :=
    mem_filterMap.mpr ⟨ready, task, carried⟩
  rw [split] at rising member
  rcases mem_append.mp member with other | same
  · exact (pairwise_append.mp rising).2.2 _ other _ (mem_singleton.mpr rfl)
  · rw [mem_singleton.mp same]
    exact Covers.refl _

lemma lastHardState_mem {last}
    (last_eq : lastHardState tasks = some last) : ∃ ready ∈ tasks, last ∈ ready.hardState :=
  mem_filterMap.mp (mem_of_getLast? last_eq)

lemma hardState_none (unchanged : lastHardState tasks = none) (task : ready ∈ tasks) :
    ready.hardState = none := by
  rw [lastHardState, List.getLast?_eq_none_iff, filterMap_eq_nil_iff] at unchanged
  exact unchanged ready task

section

variable {node : Node}

lemma handed_of_finished (finished : ready ∈ node.finished) : ready ∈ node.handed := by
  unfold handed
  simp only [append_assoc]
  rw [← append_assoc]
  exact mem_append_left _ finished

lemma handed_of_task (task : ready ∈ node.work.tasks) : ready ∈ node.handed := by
  exact mem_append_left _ (mem_append_left _ (mem_append_right _ task))

lemma readies_polling (polling : node.owner = .polling) : node.readies = node.handed := by
  simp [readies, polling, Owner.current]

lemma task_of_drained {work : Work} (drained : ready ∈ work.drained) : ready ∈ work.tasks := by
  cases work with
  | draining | snapshots => exact drained
  | waiting | received tasks | stopped tasks => cases drained

end

variable {source : Ready} {index : Nat} {entry : Entry} {newest : Nat → Option (Ready × Entry)}
  {snapshotIndex : Nat}

lemma appended_of_nil (nothing : ready.entries = []) : Node.appended ready newest = newest := by
  funext index
  simp [Node.appended, nothing]

section

variable {head : Entry} {tail : List Entry}

lemma appended_cons (entries : ready.entries = head :: tail) (index : Nat) :
    Node.appended ready newest index =
      if index < head.index then newest index
      else (head :: tail)[index - head.index]?.map fun entry => (ready, entry) := by
  unfold Node.appended
  rw [entries]

lemma appended_cons_cases (entries : ready.entries = head :: tail)
    (found : Node.appended ready newest index = some (source, entry)) :
    (source = ready ∧ head.index ≤ index ∧ (head :: tail)[index - head.index]? = some entry) ∨
      newest index = some (source, entry) ∧ index < head.index := by
  rw [appended_cons entries] at found
  split_ifs at found with before
  · exact .inr ⟨found, before⟩
  · obtain ⟨appended, position, same⟩ := Option.map_eq_some_iff.mp found
    cases same
    exact .inl ⟨rfl, not_lt.mp before, position⟩

lemma appended_cases
    (found : Node.appended ready newest index = some (source, entry)) :
    source = ready ∨ newest index = some (source, entry) := by
  cases entries : ready.entries with
  | nil =>
    rw [appended_of_nil entries] at found
    exact .inr found
  | cons => exact (appended_cons_cases entries found).imp And.left And.left

end

lemma newest_of_earlier {node : Node} (precedes : ∀ earlier ∈ node.handed, Precedes earlier ready)
    (earlier : source ∈ node.handed)
    (found : Node.appended ready node.newest index = some (source, entry)) :
    node.newest index = some (source, entry) := by
  rcases appended_cases found with rfl | kept
  · exact absurd (precedes source earlier).1 (lt_irrefl _)
  · exact kept

lemma replaced_cases
    (found : replaced ready snapshotIndex newest index = some (source, entry)) :
    newest index = some (source, entry) ∧ (index ≤ snapshotIndex ∨ source = ready) := by
  unfold replaced at found
  split_ifs at found with above
  · obtain ⟨kept, same⟩ := Option.filter_eq_some_iff.mp found
    exact ⟨kept, .inr (of_decide_eq_true same)⟩
  · exact ⟨found, .inl (not_lt.mp above)⟩

variable (node : Node)

/-- The storage in every state: what raft-engine alone serves, and what was drained, is at or below
the durable tail. -/
structure Tails : Prop where
  log : Storage.Invariant node.store
  alone : ∀ {ready}, node.owner = .appended ready → 0 < ready.snapshotIndex → ready.entries = []
  origin : ∀ {index ready entry}, node.newest index = some (ready, entry) →
    ready ∈ node.readies ∧ entry ∈ ready.entries ∧ entry.index = index ∧
      index ≤ node.store.lastIndex
  passed : ∀ {index ready entry later}, node.newest index = some (ready, entry) →
    later ∈ node.readies → ready.number ≤ later.number → later.entries ≠ [] →
      index ≤ later.tailHint
  settled : ∀ {index}, node.store.layout.InEngine index →
    index ≤ node.store.core.durableLastIndex ∨
      (∃ last, node.store.worker = .removed last ∧ index ≤ last) ∨ node.store.worker = .halted
  finished : ∀ {index ready entry}, ready ∈ node.finished →
    node.newest index = some (ready, entry) →
      index ≤ max node.store.core.durableLastIndex node.store.core.snapshotIndex
  drained : ∀ {index ready entry}, ready ∈ node.work.drained →
    node.newest index = some (ready, entry) →
      index ≤ max (max node.store.core.durableLastIndex node.store.core.snapshotIndex)
        (reach node.store.worker)

/-- A storage just opened, on files that hold a log without a hole. -/
structure Opened (store : Store) : Prop where
  log : Storage.Invariant store
  idle : store.worker = .idle
  overlay : store.overlay = .empty
  one_tail : store.core.lastValidIndex = store.core.durableLastIndex
  one_marker : store.file.snapshotIndex = store.core.snapshotIndex

lemma Opened.durable {store} (opened : Opened store)
    (above : store.core.snapshotIndex < index) (within : index ≤ store.lastIndex) :
    index ≤ store.core.durableLastIndex := by
  rw [Store.lastIndex, opened.one_tail] at within
  split_ifs at within
  · exact within
  · omega

lemma Opened.init (bootstrapConfState : Option ConfState) :
    Opened (Store.init bootstrapConfState) := ⟨Storage.Invariant.init _, rfl, rfl, rfl, rfl⟩

namespace Tails

variable {before after : Node}

variable {store : Store} {metadata : SnapshotMetadata}

lemma eq_zero_of_nothing (tails : Tails before) (nothing : ready.NothingToPersist)
    (found : before.newest index = some (ready, entry)) : index = 0 := by
  obtain ⟨member, held, -, -⟩ := tails.origin found
  have tail := tails.passed found member le_rfl (ne_nil_of_mem held)
  rw [nothing.2.1] at tail
  exact Nat.le_zero.mp tail

lemma start (opened : Opened store) : Tails (start store) := by
  constructor
  case log => exact opened.log
  case alone =>
    intro ready owner
    cases owner
  case origin =>
    intro index ready entry found
    cases found
  case passed =>
    intro index ready entry later found
    cases found
  case settled =>
    rintro index ⟨above, within, -⟩
    exact .inl (opened.durable above within)
  case finished =>
    intro index ready entry finished found
    cases found
  case drained =>
    intro index ready entry drained found
    cases found

section

variable (tails : Tails before) {tail : List Entry}
include tails

lemma shuffle {moved} (store : moved.store = before.store)
    (newest : moved.newest = before.newest) (readies : moved.readies = before.readies)
    (owner : ∀ {ready}, moved.owner = .appended ready → before.owner = .appended ready)
    (finished : ∀ {index ready entry}, ready ∈ moved.finished →
      before.newest index = some (ready, entry) →
        index ≤ max before.store.core.durableLastIndex before.store.core.snapshotIndex)
    (drained : ∀ {index ready entry}, ready ∈ moved.work.drained →
      before.newest index = some (ready, entry) →
        index ≤ max (max before.store.core.durableLastIndex before.store.core.snapshotIndex)
          (reach before.store.worker)) : Tails moved := by
  constructor
  case log => exact store ▸ tails.log
  case alone => exact fun appended => tails.alone (owner appended)
  case origin =>
    rw [store, newest, readies]
    exact tails.origin
  case passed =>
    rw [newest, readies]
    exact tails.passed
  case settled =>
    rw [store]
    exact tails.settled
  case finished =>
    rw [store, newest]
    exact finished
  case drained =>
    rw [store, newest]
    exact drained

lemma le_upTo (task : ready ∈ tasks) (found : before.newest index = some (ready, entry)) :
    index ≤ upTo tasks := by
  obtain ⟨member, held, -, -⟩ := tails.origin found
  have tail := tails.passed found member le_rfl (ne_nil_of_mem held)
  exact le_trans tail (tailHint_le_upTo task)

lemma called (promised : Promised (.take ready) before) (calm : Calm (.take ready) before)
    {head} (entries : ready.entries = head :: tail) :
    Called (.appendVisible (head :: tail)) before.store ∧
      Undisturbed (.appendVisible (head :: tail)) before.store := by
  obtain ⟨segment, from_first, joined⟩ := promised.1 head (by rw [entries]; rfl)
  have bare : ¬0 < ready.snapshotIndex := by
    intro snapshot
    rw [calm snapshot] at entries
    cases entries
  have low := tails.log.covered.low_bounds.1
  rw [low_layout] at low
  rw [Ready.base, if_neg bare] at joined
  rw [entries] at segment
  refine ⟨fun first first_eq => ?_, fun first first_eq => ?_⟩
  · rw [List.head?_cons, Option.mem_some_iff] at first_eq
    subst first_eq
    exact ⟨segment, lt_of_lt_of_le low from_first, joined⟩
  · rw [List.head?_cons, Option.mem_some_iff] at first_eq
    subst first_eq
    exact from_first

section

variable (promised : Promised (.take ready) before) (calm : Calm (.take ready) before)
  (appended : before.store.appendVisible ready.entries = .ok store)
include promised calm appended

lemma log_took : Storage.Invariant store ∧
    ∀ {index}, store.layout.InEngine index → before.store.layout.InEngine index := by
  cases entries : ready.entries with
  | nil =>
    rw [entries] at appended
    cases appended
    exact ⟨tails.log, id⟩
  | cons head =>
    rw [entries] at appended
    obtain ⟨called, undisturbed⟩ := tails.called promised calm entries
    obtain ⟨segment, -, le_last⟩ := called head rfl
    refine ⟨tails.log.append called undisturbed appended, fun inside => ?_⟩
    rw [(appendVisible_spec segment tails.log.pending appended).1] at inside
    exact .of_append tails.log.covered le_last inside

lemma source_of_took {source}
    (found : Node.appended ready before.newest index = some (source, entry)) :
    ((source = ready ∧ entry ∈ ready.entries ∧ entry.index = index) ∨
        before.newest index = some (source, entry)) ∧
      index ≤ store.lastIndex ∧ (ready.entries ≠ [] → index ≤ ready.tailHint) := by
  cases entries : ready.entries with
  | nil =>
    rw [entries] at appended
    cases appended
    rw [appended_of_nil entries] at found
    exact ⟨.inr found, (tails.origin found).2.2.2, fun nonempty => absurd rfl nonempty⟩
  | cons head tail =>
    obtain ⟨segment, -, le_last⟩ := (tails.called promised calm entries).1 head rfl
    have tail_eq : ready.tailHint = head.index + tail.length := by
      rw [tailHint_eq (entries ▸ segment) (entries ▸ cons_ne_nil _ _), entries, length_cons]
      omega
    rw [entries] at appended
    rw [tail_eq, lastIndex_of_append segment appended]
    rcases appended_cons_cases entries found with ⟨rfl, from_first, position⟩ | ⟨kept, below⟩
    · have inside := (List.getElem?_eq_some_iff.mp position).1
      have key := segment.key_getElem? position
      rw [length_cons] at inside
      exact ⟨.inl ⟨rfl, mem_of_getElem? position, by omega⟩, by omega, fun _ => by omega⟩
    · exact ⟨.inr kept, by omega, fun _ => by omega⟩

lemma took (polling : before.owner = .polling) : Tails (before.holding store ready) := by
  obtain ⟨log, engine_kept⟩ := tails.log_took promised calm appended
  have precedes := promised.2
  have readies_eq := readies_polling polling
  obtain ⟨-, -, snapshot_eq⟩ := appendVisible_frame appended
  have durable_eq := appendVisible_durable appended
  have worker_eq := appendVisible_worker appended
  constructor
  case log => exact log
  case alone =>
    intro other owner
    cases owner
    exact calm
  case origin =>
    intro index source entry found
    obtain ⟨⟨rfl, held, index_eq⟩ | kept, within, -⟩ :=
      tails.source_of_took promised calm appended found
    · exact ⟨mem_append_right _ (mem_singleton.mpr rfl), held, index_eq, within⟩
    · obtain ⟨member, held, index_eq, -⟩ := tails.origin kept
      exact ⟨mem_append_left _ (readies_eq ▸ member), held, index_eq, within⟩
  case passed =>
    intro index source entry later found member number_le nonempty
    rcases mem_append.mp member with earlier | last
    · have source_old : source ∈ before.handed := by
        rcases appended_cases found with rfl | kept
        · exact absurd number_le (not_le.mpr (precedes later earlier).1)
        · exact readies_eq ▸ (tails.origin kept).1
      exact tails.passed (newest_of_earlier precedes source_old found)
        (readies_eq ▸ earlier) number_le nonempty
    · obtain rfl := mem_singleton.mp last
      exact (tails.source_of_took promised calm appended found).2.2 nonempty
  case settled =>
    intro index inside
    rw [durable_eq, worker_eq]
    exact tails.settled (engine_kept inside)
  case finished =>
    intro index source entry finished found
    rw [durable_eq, snapshot_eq]
    exact tails.finished finished
      (newest_of_earlier precedes (handed_of_finished finished) found)
  case drained =>
    intro index source entry drained found
    change index ≤ max (max store.core.durableLastIndex store.core.snapshotIndex)
      (reach store.worker)
    rw [durable_eq, snapshot_eq, worker_eq]
    exact tails.drained drained
      (newest_of_earlier precedes (handed_of_task (task_of_drained drained)) found)

end

end

lemma not_outdated {restored} (promised : Promised (.install restored) before)
    {error} (owner : before.owner = .appended ready)
    (carried : ready.snapshot = some metadata)
    (refused : before.store.applySnapshotVisible metadata.index metadata.term
      metadata.confState = .error error) : False := by
  have fresh := promised ready (by rw [owner]; exact mem_singleton.mpr rfl) metadata carried
  unfold Store.applySnapshotVisible at refused
  dsimp only at refused
  split_ifs at refused with same old
  exact not_le.mpr old fresh

variable (tails : Tails before)
include tails

section

variable (owner : before.owner = .appended ready) (carried : ready.snapshot = some metadata)
  (positive : 0 < metadata.index)
include owner carried positive

/-- A snapshot is installed above the marker, with nothing in flight, and restored. -/
lemma installing {restored} (promised : Promised (.install restored) before)
    (calm : Calm (.install restored) before) :
    before.store.core.snapshotIndex < metadata.index ∧ before.persistInFlight = 0 ∧
      restored = true := by
  have current : ready ∈ before.owner.current := by
    rw [owner]
    exact mem_singleton.mpr rfl
  have index_eq := Ready.snapshotIndex_eq carried
  obtain ⟨none_open, accepted⟩ := calm ready current (index_eq ▸ positive)
  have low := tails.log.covered.low_bounds.1
  rw [low_layout] at low
  exact ⟨lt_of_lt_of_le low (promised ready current metadata carried), none_open, accepted⟩

lemma covered_by_snapshot {source}
    (found : replaced ready metadata.index before.newest index = some (source, entry)) :
    index ≤ metadata.index ∧ before.newest index = some (source, entry) := by
  obtain ⟨kept, covered | rfl⟩ := replaced_cases found
  · exact ⟨covered, kept⟩
  · have index_eq := Ready.snapshotIndex_eq carried
    have held := (tails.origin kept).2.1
    rw [tails.alone owner (index_eq ▸ positive)] at held
    cases held

lemma replaced (above : before.store.core.snapshotIndex < metadata.index)
    (undisturbed : ∀ first ∈ before.store.copiedFirst, metadata.index < first)
    (installed : before.store.applySnapshotVisible metadata.index metadata.term
      metadata.confState = .ok store) :
    Tails (before.restored store ready metadata.index) := by
  have log := tails.log.install above undisturbed installed
  obtain ⟨layout_eq, -, -, worker_eq⟩ := applySnapshotVisible_spec above installed
  have store_eq := applySnapshotVisible_eq above installed
  have snapshot_eq : store.core.snapshotIndex = metadata.index := by rw [store_eq]
  have last_eq : store.lastIndex = metadata.index := congrArg Layout.last layout_eq
  have readies_eq : readies (before.restored store ready metadata.index) = before.readies := by
    simp [readies, handed, Owner.current, owner]
  constructor
  case log => exact log
  case alone =>
    intro other owner
    cases owner
  case origin =>
    intro index source entry found
    obtain ⟨covered, kept⟩ := tails.covered_by_snapshot owner carried positive found
    obtain ⟨member, held, index_eq, -⟩ := tails.origin kept
    exact ⟨readies_eq ▸ member, held, index_eq, le_trans covered last_eq.ge⟩
  case passed =>
    intro index source entry later found member number_le nonempty
    exact tails.passed (replaced_cases found).1 (readies_eq ▸ member) number_le nonempty
  case settled =>
    intro index inside
    rw [layout_eq] at inside
    exact absurd inside Layout.InEngine.not_install
  case finished =>
    intro index source entry finished found
    have covered := (tails.covered_by_snapshot owner carried positive found).1
    change index ≤ max store.core.durableLastIndex store.core.snapshotIndex
    omega
  case drained =>
    intro index source entry drained found
    have covered := (tails.covered_by_snapshot owner carried positive found).1
    change index ≤ max (max store.core.durableLastIndex store.core.snapshotIndex) _
    omega

end

/-- Before it drops entries, the worker has left nothing between raft-engine and the durable
tail. -/
lemma settled_before (alive : before.store.worker ≠ .halted)
    (unremoved : ∀ last, before.store.worker ≠ .removed last)
    (inside : before.store.layout.InEngine index) :
    index ≤ before.store.core.durableLastIndex := by
  rcases tails.settled inside with durable | ⟨last, removed, -⟩ | halted
  · exact durable
  · exact absurd removed (unremoved last)
  · exact absurd halted alive

lemma settled_idle (idle : before.store.worker = .idle)
    (inside : before.store.layout.InEngine index) : index ≤ before.store.core.durableLastIndex :=
  tails.settled_before (by simp [idle]) (by simp [idle]) inside

lemma skipped (idle : before.store.worker = .idle)
    (nothing : upTo tasks = 0 ∨ before.store.overlay.entries.takeWhile
      (fun entry => entry.index ≤ upTo tasks) = []) (task : ready ∈ tasks)
    (found : before.newest index = some (ready, entry)) :
    index ≤ max before.store.core.durableLastIndex before.store.core.snapshotIndex := by
  have hinted := tails.le_upTo task found
  have within := (tails.origin found).2.2.2
  rcases nothing with zero | nothing
  · omega
  · by_cases covered : index ≤ before.store.core.snapshotIndex
    · omega
    · have inside : before.store.layout.InEngine index := by
        refine ⟨not_le.mp covered, within, ?_⟩
        rw [tails.log.pending.takeWhile_le, take_eq_nil_iff] at nothing
        rcases nothing with short | empty
        · exact .inr (show index < before.store.overlay.offset by omega)
        · exact .inl (by simp [Store.layout, empty])
      have := tails.settled_idle idle inside
      omega

lemma worked {work} (log : Storage.Invariant store)
    (tasks_eq : work.tasks = before.work.tasks) (last_eq : store.lastIndex = before.store.lastIndex)
    (snapshot_eq : store.core.snapshotIndex = before.store.core.snapshotIndex)
    (durable_le : before.store.core.durableLastIndex ≤ store.core.durableLastIndex)
    (settled : ∀ {index}, store.layout.InEngine index →
      index ≤ store.core.durableLastIndex ∨
        (∃ last, store.worker = .removed last ∧ index ≤ last) ∨ store.worker = .halted)
    (drained : ∀ {index ready entry}, ready ∈ work.drained →
      before.newest index = some (ready, entry) →
        index ≤ max (max store.core.durableLastIndex before.store.core.snapshotIndex)
          (reach store.worker)) : Tails { before with store, work } := by
  have readies_eq : readies { before with store, work } = before.readies := by
    simp [readies, handed, tasks_eq]
  constructor
  case log => exact log
  case alone => exact tails.alone
  case origin =>
    intro index source entry found
    obtain ⟨member, held, index_eq, within⟩ := tails.origin found
    exact ⟨readies_eq ▸ member, held, index_eq, le_trans within last_eq.ge⟩
  case passed =>
    intro index source entry later found member number_le nonempty
    exact tails.passed found (readies_eq ▸ member) number_le nonempty
  case settled => exact settled
  case finished =>
    intro index source entry finished found
    have durable := tails.finished finished found
    change index ≤ max store.core.durableLastIndex store.core.snapshotIndex
    omega
  case drained =>
    intro index source entry member found
    have reached := drained member found
    change index ≤ max (max store.core.durableLastIndex store.core.snapshotIndex)
      (reach store.worker)
    omega

lemma copied (idle : before.store.worker = .idle) (received : before.work = .received tasks)
    (nonempty : before.store.overlay.entries.takeWhile
      (fun entry => entry.index ≤ upTo tasks) ≠ []) :
    Tails { before with
      store := before.store.copyPrefix (upTo tasks), work := .draining tasks } := by
  have log := tails.log.copy (upTo tasks)
  rw [copyPrefix_eq nonempty] at log ⊢
  refine tails.worked log (by rw [received]; rfl) rfl rfl le_rfl
    (fun inside => .inl (tails.settled_idle idle inside)) fun {index ready entry} task found => ?_
  have hinted : index ≤ upTo tasks := tails.le_upTo task found
  have within := (tails.origin found).2.2.2
  by_cases pending : before.store.layout.InEngine index
  · have := tails.settled_idle idle pending
    dsimp only
    omega
  · have segment := tails.log.pending.take (upTo tasks + 1 - before.store.overlay.offset)
    rw [← tails.log.pending.takeWhile_le] at segment
    have reach_eq := lastOf_eq segment nonempty
    have length_pos := length_pos_iff.mpr nonempty
    rw [tails.log.pending.takeWhile_le, length_take] at reach_eq length_pos
    have ends := (tails.log.covered.pending_ends
      (show 0 < before.store.overlay.entries.length by omega)).2
    have outside : ¬(before.store.core.snapshotIndex < index ∧ index ≤ before.store.lastIndex ∧
      (before.store.overlay.entries.length = 0 ∨ index < before.store.overlay.offset)) := pending
    have ends : before.store.overlay.offset + before.store.overlay.entries.length =
      before.store.lastIndex + 1 := ends
    simp only [reach]
    rw [tails.log.pending.takeWhile_le]
    omega

lemma wrote {engine} (copied : before.store.worker = .copied drained)
    (written : before.store.engine.addEntries drained = some engine) :
    Tails { before with store := { before.store with engine, worker := .written drained } } := by
  have log := tails.log.write copied
  rw [show before.store.writeDrained drained =
    { before.store with engine, worker := .written drained } by
      simp [Store.writeDrained, written]] at log
  refine tails.worked log rfl rfl rfl le_rfl (fun inside => .inl ?_) fun task found => ?_
  · exact tails.settled_before (by simp [copied]) (by simp [copied]) inside
  · have reached := tails.drained task found
    rwa [copied] at reached

/-- Whatever is dropped from the overlay is about to be below the durable tail. -/
lemma removed (written : before.store.worker = .written drained) :
    Tails { before with store := before.store.removeDrained drained } := by
  have log := tails.log.remove written
  have batch := tails.log.draining
  rw [written] at batch
  obtain ⟨start, nonempty, segment, -⟩ := batch
  have last_eq := lastOf_eq segment nonempty
  have worker_eq : (before.store.removeDrained drained).worker = .removed (lastOf drained) := rfl
  refine tails.worked log rfl rfl rfl le_rfl (fun {index} inside => ?_)
    fun task found => ?_
  · have before_settled (stored : before.store.layout.InEngine index) :=
      tails.settled_before (by simp [written]) (by simp [written]) stored
    obtain ⟨-, same | ⟨aligned, -, layout_eq⟩⟩ :=
      removeDrained_spec nonempty segment tails.log.pending
    · exact .inl (before_settled (same ▸ inside))
    · rw [layout_eq] at inside
      rcases Layout.InEngine.of_drain tails.log.covered inside with stored | ⟨-, dropped⟩
      · exact .inl (before_settled stored)
      · have dropped : index < before.store.overlay.offset + drained.length := dropped
        exact .inr (.inl ⟨_, worker_eq, by omega⟩)
  · have reached := tails.drained task found
    rwa [written] at reached

lemma raised {last} (draining : before.work = .draining tasks)
    (removed : before.store.worker = .removed last) :
    Tails { before with
      store := before.store.raiseDurable last
      work := .snapshots tasks (snapshotIndexes tasks) } := by
  have log : Storage.Invariant (before.store.raiseDurable last) :=
    ⟨tails.log.covered, tails.log.pending, trivial⟩
  have durable_eq : (before.store.raiseDurable last).core.durableLastIndex =
      max before.store.core.durableLastIndex last := rfl
  refine tails.worked log (by rw [draining]; rfl) rfl rfl (le_max_left _ _)
    (fun {index} inside => .inl ?_) fun {index ready entry} task found => ?_
  · rcases tails.settled (show before.store.layout.InEngine index from inside) with
      durable | ⟨same, removed', le⟩ | halted
    · omega
    · rw [removed] at removed'
      cases removed'
      omega
    · rw [removed] at halted
      cases halted
  · have reached := tails.drained (show ready ∈ before.work.drained from draining ▸ task) found
    simp only [removed, reach] at reached
    omega

lemma persisted {indexes rest} (persisting : before.work = .snapshots tasks indexes) :
    Tails { before with
      store := before.store.persistSnapshotState snapshotIndex
      work := .snapshots tasks rest } := by
  have log : Storage.Invariant (before.store.persistSnapshotState snapshotIndex) :=
    ⟨tails.log.covered, tails.log.pending, tails.log.draining⟩
  have durable_eq : (before.store.persistSnapshotState snapshotIndex).core.durableLastIndex =
      max before.store.core.durableLastIndex snapshotIndex := rfl
  refine tails.worked log (by rw [persisting]; rfl) rfl rfl (le_max_left _ _)
    (fun {index} inside => ?_) fun {index ready entry} task found => ?_
  · rcases tails.settled (show before.store.layout.InEngine index from inside) with
      durable | rest
    · exact .inl (by omega)
    · exact .inr rest
  · have reached := tails.drained (show ready ∈ before.work.drained from persisting ▸ task) found
    change _ ≤ max _ (reach before.store.worker)
    omega

lemma stopped (tasks_eq : before.work.tasks = tasks) :
    Tails { before with
      store := { before.store with worker := .halted }, work := .stopped tasks } :=
  tails.worked ⟨tails.log.covered, tails.log.pending, trivial⟩ tasks_eq.symm rfl rfl
    le_rfl (fun _ => .inr (.inr rfl)) (fun task => by cases task)

lemma finished_batch (ledger : Ledger before) {indexes}
    (persisting : before.work = .snapshots tasks indexes) (task : ready ∈ before.finished ++ tasks)
    (found : before.newest index = some (ready, entry)) :
    index ≤ max before.store.core.durableLastIndex before.store.core.snapshotIndex := by
  have idle := ledger.phase
  rw [persisting] at idle
  rcases mem_append.mp task with earlier | inside
  · exact tails.finished earlier found
  · have reached := tails.drained (show ready ∈ before.work.drained from persisting ▸ inside) found
    rw [show before.store.worker = .idle from idle] at reached
    simpa [reach] using reached

lemma step {label} (ledger : Ledger before) (promised : Promised label before)
    (calm : Calm label before)
    (moved : Moved before label after) : Tails after := by
  have kept := ledger.readies_kept moved
  have phase := ledger.phase
  cases moved with
  | dropped => exact tails
  | took polling appended => exact tails.took promised calm appended polling
  | @passed restored ready owner bare =>
    refine tails.shuffle rfl rfl ?_ (fun appended => by cases appended) tails.finished
      tails.drained
    simp [readies, handed, Owner.current, owner]
  | outdated owner carried positive refused =>
    exact (not_outdated promised owner carried refused).elim
  | replaced owner carried positive installed =>
    obtain ⟨above, none_open, rfl⟩ := tails.installing owner carried positive promised calm
    rw [(ledger.settled none_open).2.1] at phase
    refine tails.replaced owner carried positive above ?_ installed
    simp [show before.store.worker = .idle from phase]
  | @inlined ready owner nothing none_open =>
    refine tails.shuffle rfl rfl (kept (by simp) (by simp)) (fun appended => by cases appended)
      (fun {index source entry} finished found => ?_) tails.drained
    rcases finished_of_inlined finished with earlier | rfl
    · exact tails.finished earlier found
    · rw [tails.eq_zero_of_nothing nothing found]
      exact Nat.zero_le _
  | orphaned | queued =>
    exact tails.shuffle rfl rfl (kept (by simp) (by simp)) (fun appended => by cases appended)
      tails.finished tails.drained
  | acknowledged polling reported =>
    refine tails.shuffle rfl rfl (kept (by simp) (by simp)) id
      (fun {index source entry} finished found => tails.finished ?_ found) tails.drained
    rwa [← finished_of_reported reported]
  | received =>
    exact tails.shuffle rfl rfl (kept (by simp) (by simp)) id tails.finished
      (fun task => by cases task)
  | skipped received nothing =>
    rw [received] at phase
    refine tails.shuffle rfl rfl (kept (by simp) (by simp)) id tails.finished
      fun task found => ?_
    exact le_trans (tails.skipped phase nothing task found) (le_max_left _ _)
  | copied received some_tail nonempty =>
    rw [received] at phase
    exact tails.copied phase received nonempty
  | wrote draining copied written => exact tails.wrote copied written
  | halted draining => exact tails.stopped (by rw [draining]; rfl)
  | removed draining written => exact tails.removed written
  | raised draining removed => exact tails.raised draining removed
  | persisted persisting => exact tails.persisted persisting
  | kept persisting =>
    refine tails.shuffle rfl rfl (kept (by simp) (by simp)) id
      (fun finished found => ?_) (fun task => by cases task)
    rw [Node.finished, ← append_assoc] at finished
    exact tails.finished_batch ledger persisting finished found
  | @completed tasks hardState persisting changed =>
    -- The hard state is written to a storage whose log is the one before.
    have stored : Tails { before with store := before.store.setHardState hardState } :=
      { tails with log := { tails.log with } }
    refine stored.shuffle rfl rfl (kept (by simp) (by simp)) id
      (fun finished found => ?_) (fun task => by cases task)
    rw [Node.finished, ← append_assoc] at finished
    exact tails.finished_batch ledger persisting finished found
  | failed working =>
    refine tails.stopped ?_
    rcases working with work | work | ⟨indexes, work⟩ <;> rw [work] <;> rfl

end Tails

/-- The readies that are not finished yet, in order. -/
def Node.pending : List Ready := node.work.tasks ++ node.queue ++ node.lost ++ node.owner.current

lemma Node.readies_eq : node.readies = node.finished ++ node.pending := by
  simp [readies, handed, Node.finished, Node.pending]

/-- The marker in the file is behind: the first pending ready brought the current one, and it is
still to be persisted. -/
structure Behind : Prop where
  unreported : node.done = []
  first : ∃ ready rest, node.pending = ready :: rest ∧ 0 < ready.snapshotIndex ∧
    ready.snapshotIndex = node.store.core.snapshotIndex
  unpersisted : ∀ {tasks indexes}, node.work = .snapshots tasks indexes →
    indexes = snapshotIndexes tasks
  older : node.store.file.snapshotIndex < node.store.core.snapshotIndex

lemma marker_kept {before after label} (moved : Moved before label after)
    (not_installed : ∀ restored, label ≠ .install restored) :
    after.store.core.snapshotIndex = before.store.core.snapshotIndex := by
  cases moved with
  | took polling appended => exact (appendVisible_frame appended).2.2
  | passed | outdated | replaced => exact absurd rfl (not_installed _)
  | copied received some_tail nonempty => rw [copyPrefix_eq nonempty]
  | _ => rfl

namespace Behind

variable {before after : Node} {label : Label} {metadata : SnapshotMetadata}

section

variable (behind : Behind before)
include behind

lemma snapshotIndexes_eq (ledger : Ledger before) (working : before.work.tasks = tasks)
    (busy : before.work ≠ .waiting) :
    ∃ rest, snapshotIndexes tasks = before.store.core.snapshotIndex :: rest := by
  obtain ⟨ready, rest, pending, positive, marker⟩ := behind.first
  obtain ⟨head, tail, rfl⟩ := exists_cons_of_ne_nil
    (show tasks ≠ [] from fun empty => busy (ledger.busy (working.trans empty)))
  simp only [Node.pending, working, cons_append] at pending
  obtain rfl : head = ready := (List.cons.inj pending).1
  rw [snapshotIndexes, map_cons, filter_cons_of_pos (by simpa using positive), marker]
  exact ⟨_, rfl⟩

lemma kept (readies_eq : after.readies = before.readies)
    (finished_eq : after.finished = before.finished) (done_eq : after.done = before.done)
    (marker_eq : after.store.core.snapshotIndex = before.store.core.snapshotIndex)
    (file_eq : after.store.file = before.store.file)
    (unpersisted : ∀ {tasks indexes}, after.work = .snapshots tasks indexes →
      indexes = snapshotIndexes tasks) : Behind after := by
  rw [Node.readies_eq, Node.readies_eq, finished_eq, append_cancel_left_eq] at readies_eq
  constructor
  case unreported => exact done_eq.trans behind.unreported
  case first =>
    rw [readies_eq, marker_eq]
    exact behind.first
  case unpersisted => exact unpersisted
  case older =>
    rw [file_eq, marker_eq]
    exact behind.older

lemma not_inline (ledger : Ledger before) (owner : before.owner = .installed ready)
    (nothing : ready.NothingToPersist) (none_open : before.persistInFlight = 0) : False := by
  obtain ⟨first, rest, pending, positive, -⟩ := behind.first
  obtain ⟨-, waiting, queue_nil, lost_nil⟩ := ledger.settled none_open
  simp only [Node.pending, waiting, queue_nil, lost_nil, owner, Work.tasks, Owner.current,
    nil_append] at pending
  rw [← (List.cons.inj pending).1, nothing.2.2.1] at positive
  cases positive

lemma not_installing (ledger : Ledger before) (owner : before.owner = .appended ready)
    (carried : ready.snapshot = some metadata) (none_open : before.persistInFlight = 0)
    (above : before.store.core.snapshotIndex < metadata.index) : False := by
  obtain ⟨first, rest, pending, -, marker⟩ := behind.first
  obtain ⟨-, waiting, queue_nil, lost_nil⟩ := ledger.settled none_open
  simp only [Node.pending, waiting, queue_nil, lost_nil, owner, Work.tasks, Owner.current,
    nil_append] at pending
  rw [← (List.cons.inj pending).1, Ready.snapshotIndex_eq carried] at marker
  omega

lemma not_finishing (ledger : Ledger before) (persisting : before.work = .snapshots tasks []) :
    False := by
  have working : before.work.tasks = tasks := by
    rw [persisting]
    rfl
  obtain ⟨rest, cons⟩ := behind.snapshotIndexes_eq ledger working (by simp [persisting])
  rw [← behind.unpersisted persisting] at cons
  cases cons

end

lemma of_installed (ledger : Ledger before) {store}
    (carried : ready.snapshot = some metadata) (positive : 0 < metadata.index)
    (none_open : before.persistInFlight = 0)
    (above : before.store.core.snapshotIndex < metadata.index)
    (file_le : before.store.file.snapshotIndex ≤ before.store.core.snapshotIndex)
    (installed : before.store.applySnapshotVisible metadata.index metadata.term
      metadata.confState = .ok store) :
    Behind (before.restored store ready metadata.index) := by
  obtain ⟨done_nil, waiting, queue_nil, lost_nil⟩ := ledger.settled none_open
  obtain rfl := applySnapshotVisible_eq above installed
  have index_eq := Ready.snapshotIndex_eq carried
  refine ⟨done_nil, ⟨ready, [], ?_, index_eq ▸ positive, index_eq⟩, ?_, ?_⟩
  · simp [Node.pending, waiting, queue_nil, lost_nil, Work.tasks, Owner.current]
  · simp [waiting]
  · exact lt_of_le_of_lt file_le above

variable (behind : Behind before) (ledger : Ledger before) (tails : Tails before)
  (promised : Promised label before) (calm : Calm label before) (moved : Moved before label after)
include behind ledger tails promised calm moved

lemma step :
    (Behind after ∧ after.store.file = before.store.file) ∨
      after.store = before.store.persistSnapshotState before.store.core.snapshotIndex := by
  have readies_kept := ledger.readies_kept moved
  cases moved with
  | dropped => exact .inl ⟨behind, rfl⟩
  | @took ready store polling appended =>
    obtain ⟨-, file_eq, marker_eq⟩ := appendVisible_frame appended
    refine .inl ⟨⟨behind.unreported, ?_, behind.unpersisted, ?_⟩, file_eq⟩
    · obtain ⟨first, rest, pending, positive, marker⟩ := behind.first
      refine ⟨first, rest ++ [ready], ?_, positive, marker.trans marker_eq.symm⟩
      rw [Node.pending, polling] at pending
      rw [← cons_append, ← pending]
      simp [Node.pending, Owner.current]
    · change store.file.snapshotIndex < store.core.snapshotIndex
      rw [file_eq, marker_eq]
      exact behind.older
  | passed owner =>
    refine .inl ⟨{ behind with first := ?_ }, rfl⟩
    have first := behind.first
    simp only [Node.pending, owner, Owner.current] at first ⊢
    exact first
  | outdated owner carried positive refused =>
    exact (Tails.not_outdated promised owner carried refused).elim
  | replaced owner carried positive =>
    obtain ⟨above, none_open, rfl⟩ := tails.installing owner carried positive promised calm
    exact (behind.not_installing ledger owner carried none_open above).elim
  | inlined owner nothing none_open => exact (behind.not_inline ledger owner nothing none_open).elim
  | orphaned | queued =>
    exact .inl ⟨behind.kept (readies_kept (by simp) (by simp)) rfl rfl rfl rfl
      behind.unpersisted, rfl⟩
  | acknowledged polling reported =>
    rw [behind.unreported] at reported
    cases reported
  | received | halted | failed =>
    exact .inl ⟨behind.kept (readies_kept (by simp) (by simp)) rfl rfl rfl rfl (by simp), rfl⟩
  | copied received some_tail nonempty =>
    rw [copyPrefix_eq nonempty] at readies_kept ⊢
    exact .inl ⟨behind.kept (readies_kept (by simp) (by simp)) rfl rfl rfl rfl (by simp), rfl⟩
  | wrote | removed =>
    exact .inl ⟨behind.kept rfl rfl rfl rfl rfl behind.unpersisted, rfl⟩
  | skipped | raised =>
    refine .inl ⟨behind.kept (readies_kept (by simp) (by simp)) rfl rfl rfl rfl ?_, rfl⟩
    intro tasks indexes same
    cases same
    rfl
  | @persisted tasks index rest persisting =>
    have working : before.work.tasks = tasks := by
      rw [persisting]
      rfl
    obtain ⟨others, cons⟩ := behind.snapshotIndexes_eq ledger working (by simp [persisting])
    rw [← behind.unpersisted persisting] at cons
    rw [(List.cons.inj cons).1]
    exact .inr rfl
  | kept persisting | completed persisting => exact (behind.not_finishing ledger persisting).elim

lemma of_file (file_eq : after.store.file = before.store.file) : Behind after := by
  rcases behind.step ledger tails promised calm moved with ⟨still, -⟩ | persisted
  · exact still
  · have older := behind.older
    rw [← file_eq, persisted] at older
    exact absurd older (lt_irrefl _)

end Behind

end Catga.Raft.Persist
