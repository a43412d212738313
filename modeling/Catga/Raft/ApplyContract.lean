import Catga.Raft.Apply

/-!
# The apply contract

`ConsensusStateMachine` asks for every committed payload entry exactly once, in index order, and
for nothing beyond an entry whose `apply` failed.  The worker warns and goes on instead, so the
contract holds in the runs where nothing is behind a failed entry until a snapshot covers it.
-/

namespace Catga.Raft.Apply

open Transition List State

variable (state : State)

/-- Every payload entry above the last installed snapshot that the frontier has passed was handed
to the machine exactly once and accepted. -/
def AppliedOnce : Prop :=
  ∀ entry ∈ state.committed, entry.IsPayload → state.snapshotIndex < entry.index →
    entry.index ≤ state.appliedIndex →
      state.calls.filter (fun call => call.index = entry.index) =
        [{ index := entry.index, data := entry.data, ok := true }]
deriving Decidable

/-- The machine sees indices in strictly increasing order. -/
def InOrder : Prop := state.calls.Pairwise (fun earlier later => earlier.index < later.index)
deriving Decidable

/-- A failed entry that no snapshot covers stops the frontier and is the last one applied. -/
def StopsAtFailure : Prop :=
  ∀ call ∈ state.calls, call.ok = false → state.snapshotIndex < call.index →
    state.appliedIndex < call.index ∧ ∀ other ∈ state.calls, other.index ≤ call.index
deriving Decidable

/-- What `ConsensusStateMachine` promises its implementors. -/
def Contract : Prop := AppliedOnce state ∧ InOrder state ∧ StopsAtFailure state
deriving Decidable

/-- Committed entries arrive in increasing index order. -/
def Increasing : Label → State → Prop
  | .commit entry, state => ∀ earlier ∈ state.committed, earlier.index < entry.index
  | _, _ => True

instance : ∀ label state, Decidable (Increasing label state) := by
  rintro ⟨⟩ state <;> dsimp only [Increasing] <;> infer_instance

/-- No entry above the last installed snapshot has failed. -/
def Unfailed : Prop := ∀ call ∈ state.calls, call.ok = false → call.index ≤ state.snapshotIndex
deriving Decidable

/-- What the worker still holds under the current epoch, or under the mutex. -/
@[simp] def Worker.inFlight (epoch : Nat) : Worker → List Queued
  | .idle => []
  | .received queued => if queued.epoch = epoch then [queued] else []
  | .locked queued => [queued]

@[simp] def ApplyMsg.current (epoch : Nat) : ApplyMsg → Option Queued
  | .entry queued => if queued.epoch = epoch then some queued else none
  | .barrier => none

/-- The queued messages that no snapshot install has superseded. -/
def State.backlog : List Queued := state.queue.filterMap (ApplyMsg.current state.epoch)

/-- Entries that can still reach the machine, in the order they would. -/
def State.inFlight : List Queued := state.worker.inFlight state.epoch ++ state.backlog

/-- Whether the owner waits for the barrier ahead of a configuration change. -/
def Owner.isFlushing : Owner → Bool
  | .flushing _ | .flushed _ => true
  | .ready | .installing _ | .refused _ => false

/-- Whether the owner has bumped the epoch for a snapshot it has not restored yet. -/
@[simp] def Owner.isInstalling : Owner → Bool
  | .installing _ | .refused _ => true
  | .ready | .flushing _ | .flushed _ => false

/-- An entry fails only when nothing is behind it, after a failure only empty entries arrive until
a snapshot is installed, and a snapshot covers every entry handled before it. -/
def NothingBehindFailure : Label → State → Prop
  | .commit entry, state =>
    Unfailed state ∨ (entry.entryType = .entryNormal ∧ entry.data = [])
  | .apply ok, state => ok = true ∨ (state.backlog = [] ∧ state.owner.isFlushing = false)
  | .install index, state => ∀ entry ∈ state.committed, entry.index ≤ index
  | _, _ => True

instance : ∀ label state, Decidable (NothingBehindFailure label state) := by
  rintro ⟨⟩ state <;> dsimp only [NothingBehindFailure] <;> infer_instance

/-- Where a committed payload entry above the last snapshot can be. -/
inductive Accounted (state : State) (entry : Entry) : Prop
  | called (call : Call) (mem : call ∈ state.calls) (index_eq : call.index = entry.index)
      (data_eq : call.data = entry.data)
  | inFlight (queued : Queued) (mem : queued ∈ state.inFlight)
      (index_eq : queued.index = entry.index) (data_eq : queued.data = entry.data)
  | superseded (installing : state.owner.isInstalling = true)
      (ahead : state.appliedIndex < entry.index)
      (behind : ∀ queued ∈ state.inFlight, queued.index < entry.index)

/-- What the histories, the frontier and the entries in flight say about each other. -/
structure Ledger : Prop where
  committed_sorted : state.committed.Pairwise (fun earlier later => earlier.index < later.index)
  calls_sorted : InOrder state
  inFlight_sorted :
    state.inFlight.Pairwise (fun earlier later => earlier.index < later.index)
  calls_committed : ∀ call ∈ state.calls, ∃ entry ∈ state.committed, entry.index = call.index
  inFlight_committed :
    ∀ queued ∈ state.inFlight, ∃ entry ∈ state.committed, entry.index = queued.index
  calls_before : ∀ call ∈ state.calls, ∀ queued ∈ state.inFlight, call.index < queued.index
  inFlight_ahead :
    ∀ queued ∈ state.inFlight, state.snapshotIndex < queued.index →
      state.appliedIndex < queued.index
  accounted :
    ∀ entry ∈ state.committed, entry.IsPayload → state.snapshotIndex < entry.index →
      Accounted state entry
  failed_last :
    ∀ call ∈ state.calls, call.ok = false → state.snapshotIndex < call.index →
      state.appliedIndex < call.index ∧ (∀ other ∈ state.calls, other.index ≤ call.index) ∧
        state.inFlight = [] ∧ state.owner.isFlushing = false
  applied_le :
    ∀ bound, state.snapshotIndex ≤ bound → (∀ entry ∈ state.committed, entry.index ≤ bound) →
      state.appliedIndex ≤ bound

/-- What the channel and the two tasks say about each other. -/
structure Channel : Prop where
  epoch_le : ∀ queued, .entry queued ∈ state.queue → queued.epoch ≤ state.epoch
  received_le : ∀ queued, state.worker = .received queued → queued.epoch ≤ state.epoch
  barrier_last :
    ∀ entry, state.owner = .flushing entry →
      ∃ before, state.queue = before ++ [.barrier] ∧ .barrier ∉ before
  barrier_free : (∀ entry, state.owner ≠ .flushing entry) → .barrier ∉ state.queue
  drained : ∀ entry, state.owner = .flushed entry → state.queue = [] ∧ state.worker = .idle
  conf_committed :
    ∀ entry, state.owner = .flushing entry ∨ state.owner = .flushed entry →
      entry ∈ state.committed ∧ ∀ other ∈ state.committed, other.index ≤ entry.index
  install_backlog : state.owner.isInstalling = true → state.backlog = []
  install_received :
    state.owner.isInstalling = true → ∀ queued, state.worker = .received queued →
      queued.epoch ≠ state.epoch
  install_covers :
    ∀ index, state.owner = .installing index → ∀ entry ∈ state.committed, entry.index ≤ index

/-- In a list strictly sorted by a key, the elements with the key of a member are that member. -/
private lemma filter_key_eq_singleton {calls : List Call} {call}
    (sorted : calls.Pairwise (fun earlier later => earlier.index < later.index))
    (mem : call ∈ calls) : calls.filter (fun other => other.index = call.index) = [call] := by
  induction calls with
  | nil => cases mem
  | cons head tail ih =>
    obtain ⟨head_lt, tail_sorted⟩ := pairwise_cons.mp sorted
    rcases mem_cons.mp mem with rfl | mem
    · have none_later : tail.filter (fun other => other.index = call.index) = [] := by
        rw [filter_eq_nil_iff]
        intro other other_mem
        have := head_lt other other_mem
        simp only [decide_eq_true_eq]
        omega
      simp [none_later]
    · have := head_lt call mem
      rw [filter_cons_of_neg (by simp only [decide_eq_true_eq]; omega)]
      exact ih tail_sorted mem

variable {queued : Queued} {entry : Entry} {index : Nat}

namespace Ledger

variable {before after : State} (ledger : Ledger before)
include ledger

lemma contract : Contract before := by
  refine ⟨?_, ledger.calls_sorted, fun call mem failed above => ?_⟩
  · intro entry mem payload above passed
    obtain ⟨call, call_mem, index_eq, data_eq⟩ | ⟨queued, queued_mem, index_eq, -⟩ |
        ⟨-, ahead, -⟩ :=
      ledger.accounted entry mem payload above
    · have accepted : call.ok = true := by
        by_contra refused
        have ahead := (ledger.failed_last call call_mem (by simpa using refused) (by omega)).1
        omega
      rw [← index_eq, filter_key_eq_singleton ledger.calls_sorted call_mem]
      cases call
      simp_all
    · have ahead := ledger.inFlight_ahead queued queued_mem (by omega)
      omega
    · omega
  · obtain ⟨ahead, last, -⟩ := ledger.failed_last call mem failed above
    exact ⟨ahead, last⟩

/-- Without a failure above the snapshot, any entry in flight can go on. -/
lemma unfailed_of_inFlight (mem : queued ∈ before.inFlight) : Unfailed before := by
  intro call call_mem failed
  by_contra above
  obtain ⟨-, -, empty, -⟩ := ledger.failed_last call call_mem failed (by omega)
  simp [empty] at mem

/-- A waiting configuration change also rules out a failure above the snapshot. -/
lemma unfailed_of_flushing (flushing : before.owner.isFlushing = true) : Unfailed before := by
  intro call call_mem failed
  by_contra above
  obtain ⟨-, -, -, quiet⟩ := ledger.failed_last call call_mem failed (by omega)
  simp [flushing] at quiet

variable {queue : List ApplyMsg} {owner : Owner}

lemma move {worker}
    (inFlight_eq : inFlight { before with queue, worker, owner } = before.inFlight)
    (flushing_eq : owner.isFlushing = before.owner.isFlushing)
    (installing_eq : owner.isInstalling = before.owner.isInstalling) :
    Ledger { before with queue, worker, owner } :=
  { ledger with
    inFlight_sorted := by simpa [inFlight_eq] using ledger.inFlight_sorted
    inFlight_committed := by simpa [inFlight_eq] using ledger.inFlight_committed
    calls_before := by simpa [inFlight_eq] using ledger.calls_before
    inFlight_ahead := by simpa [inFlight_eq] using ledger.inFlight_ahead
    accounted := by
      intro entry mem payload above
      obtain ⟨call, call_mem, index_eq, data_eq⟩ | ⟨queued, queued_mem, index_eq, data_eq⟩ |
        ⟨installing, ahead, behind⟩ := ledger.accounted entry mem payload above
      · exact .called call call_mem index_eq data_eq
      · exact .inFlight queued (inFlight_eq ▸ queued_mem) index_eq data_eq
      · exact .superseded (installing_eq ▸ installing) ahead (inFlight_eq ▸ behind)
    failed_last := by simpa [inFlight_eq, flushing_eq] using ledger.failed_last }

lemma commit (fresh : List Queued)
    (increasing : ∀ earlier ∈ before.committed, earlier.index < entry.index)
    (ready : before.owner = .ready)
    (inFlight_eq : inFlight { before with
      committed := before.committed ++ [entry], queue, owner } = before.inFlight ++ fresh)
    (fresh_sorted : fresh.Pairwise (fun earlier later => earlier.index < later.index))
    (fresh_index : ∀ queued ∈ fresh, queued.index = entry.index)
    (fresh_payload : entry.IsPayload → ∃ queued ∈ fresh,
      queued.index = entry.index ∧ queued.data = entry.data)
    (behind : Unfailed before ∨ (fresh = [] ∧ owner.isFlushing = false)) :
    Ledger { before with committed := before.committed ++ [entry], queue, owner } where
  committed_sorted := by
    rw [pairwise_append]
    exact ⟨ledger.committed_sorted, by simp, by simpa using increasing⟩
  calls_sorted := ledger.calls_sorted
  inFlight_sorted := by
    rw [inFlight_eq, pairwise_append]
    refine ⟨ledger.inFlight_sorted, fresh_sorted, fun queued mem later later_mem => ?_⟩
    obtain ⟨earlier, earlier_mem, index_eq⟩ := ledger.inFlight_committed queued mem
    have := increasing earlier earlier_mem
    have := fresh_index later later_mem
    omega
  calls_committed := by
    intro call mem
    obtain ⟨earlier, earlier_mem, index_eq⟩ := ledger.calls_committed call mem
    exact ⟨earlier, mem_append_left _ earlier_mem, index_eq⟩
  inFlight_committed := by
    intro queued mem
    rw [inFlight_eq, mem_append] at mem
    rcases mem with mem | mem
    · obtain ⟨earlier, earlier_mem, index_eq⟩ := ledger.inFlight_committed queued mem
      exact ⟨earlier, mem_append_left _ earlier_mem, index_eq⟩
    · exact ⟨entry, mem_append_right _ (mem_singleton_self _), (fresh_index queued mem).symm⟩
  calls_before := by
    intro call call_mem queued mem
    rw [inFlight_eq, mem_append] at mem
    rcases mem with mem | mem
    · exact ledger.calls_before call call_mem queued mem
    · obtain ⟨earlier, earlier_mem, index_eq⟩ := ledger.calls_committed call call_mem
      have := increasing earlier earlier_mem
      have := fresh_index queued mem
      omega
  inFlight_ahead := by
    intro queued mem above
    change before.snapshotIndex < queued.index at above
    change before.appliedIndex < queued.index
    rw [inFlight_eq, mem_append] at mem
    rcases mem with mem | mem
    · exact ledger.inFlight_ahead queued mem above
    · have index_eq := fresh_index queued mem
      have bounded := ledger.applied_le (queued.index - 1) (by omega) (by
        intro earlier earlier_mem
        have := increasing earlier earlier_mem
        omega)
      omega
  accounted := by
    intro other mem payload above
    rw [mem_append, mem_singleton] at mem
    rcases mem with mem | rfl
    · obtain ⟨call, call_mem, index_eq, data_eq⟩ | ⟨queued, queued_mem, index_eq, data_eq⟩ |
        ⟨installing, -, -⟩ := ledger.accounted other mem payload above
      · exact .called call call_mem index_eq data_eq
      · exact .inFlight queued (by simp [inFlight_eq, queued_mem]) index_eq data_eq
      · simp [ready] at installing
    · obtain ⟨queued, queued_mem, index_eq, data_eq⟩ := fresh_payload payload
      exact .inFlight queued (by simp [inFlight_eq, queued_mem]) index_eq data_eq
  failed_last := by
    intro call mem failed above
    rcases behind with unfailed | ⟨fresh_nil, quiet⟩
    · exact absurd (unfailed call mem failed) (Nat.not_le_of_lt above)
    · obtain ⟨ahead, last, empty, -⟩ := ledger.failed_last call mem failed above
      exact ⟨ahead, last, by simp [inFlight_eq, empty, fresh_nil], quiet⟩
  applied_le := fun bound snapshot_le committed_le =>
    ledger.applied_le bound snapshot_le fun earlier mem =>
      committed_le earlier (mem_append_left _ mem)

lemma apply {ok : Bool} {rest worker frontier}
    (inFlight_eq : before.inFlight = queued :: rest)
    (applied_eq : frontier =
      if ok then max before.appliedIndex queued.index else before.appliedIndex)
    (rest_eq : inFlight { before with worker } = rest)
    (behind : ok = true ∨ (rest = [] ∧ before.owner.isFlushing = false)) :
    Ledger { before with
      worker, appliedIndex := frontier
      calls := before.calls ++ [{ index := queued.index, data := queued.data, ok }] } := by
  subst rest_eq
  have head_mem : queued ∈ before.inFlight := by simp [inFlight_eq]
  have rest_mem : ∀ later ∈ inFlight { before with worker }, later ∈ before.inFlight := by
    intro later mem
    simp [inFlight_eq, mem]
  obtain ⟨head_lt, rest_sorted⟩ := pairwise_cons.mp (inFlight_eq ▸ ledger.inFlight_sorted)
  have unfailed := ledger.unfailed_of_inFlight head_mem
  have applied_le_max : frontier ≤ max before.appliedIndex queued.index := by
    rw [applied_eq]
    split <;> omega
  constructor
  case committed_sorted => exact ledger.committed_sorted
  case inFlight_sorted => exact rest_sorted
  case calls_sorted =>
    rw [InOrder, pairwise_append]
    refine ⟨ledger.calls_sorted, by simp, fun call mem latest latest_mem => ?_⟩
    rw [mem_singleton.mp latest_mem]
    exact ledger.calls_before call mem queued head_mem
  case calls_committed =>
    intro call mem
    rw [mem_append, mem_singleton] at mem
    rcases mem with mem | rfl
    · exact ledger.calls_committed call mem
    · exact ledger.inFlight_committed queued head_mem
  case inFlight_committed =>
    exact fun later mem => ledger.inFlight_committed later (rest_mem later mem)
  case calls_before =>
    intro call mem later later_mem
    rw [mem_append, mem_singleton] at mem
    rcases mem with mem | rfl
    · exact ledger.calls_before call mem later (rest_mem later later_mem)
    · exact head_lt later later_mem
  case inFlight_ahead =>
    intro later later_mem above
    have := ledger.inFlight_ahead later (rest_mem later later_mem) above
    have := head_lt later later_mem
    dsimp only
    omega
  case accounted =>
    intro entry mem payload above
    obtain ⟨call, call_mem, index_eq, data_eq⟩ | ⟨held, held_mem, index_eq, data_eq⟩ |
      ⟨installing, ahead, later⟩ := ledger.accounted entry mem payload above
    · exact .called call (by simp [call_mem]) index_eq data_eq
    · rw [inFlight_eq, mem_cons] at held_mem
      rcases held_mem with rfl | held_mem
      · exact .called { index := held.index, data := held.data, ok } (by simp) index_eq data_eq
      · exact .inFlight held held_mem index_eq data_eq
    · have := later queued head_mem
      exact .superseded installing (by dsimp only; omega)
        (fun held held_mem => later held (rest_mem held held_mem))
  case failed_last =>
    intro call mem failed above
    rw [mem_append, mem_singleton] at mem
    rcases mem with mem | rfl
    · exact absurd (unfailed call mem failed) (Nat.not_le_of_lt above)
    · -- the call that just failed: nothing was behind it
      have refused : ok = false := failed
      obtain ⟨rest_nil, quiet⟩ := behind.resolve_left (by simp [refused])
      have ahead := ledger.inFlight_ahead queued head_mem above
      refine ⟨by simpa [applied_eq, refused] using ahead, ?_, rest_nil, quiet⟩
      intro other other_mem
      rw [mem_append, mem_singleton] at other_mem
      rcases other_mem with other_mem | rfl
      · exact Nat.le_of_lt (ledger.calls_before other other_mem queued head_mem)
      · exact Nat.le_refl _
  case applied_le =>
    intro bound snapshot_le committed_le
    obtain ⟨entry, entry_mem, index_eq⟩ := ledger.inFlight_committed queued head_mem
    have := committed_le entry entry_mem
    have := ledger.applied_le bound snapshot_le committed_le
    dsimp only
    omega

lemma confEntry (outcome) (flushed : before.owner = .flushed entry)
    (drained : before.inFlight = []) (mem : entry ∈ before.committed) :
    Ledger (applyConfEntry entry outcome before) := by
  have unfailed : Unfailed before :=
    ledger.unfailed_of_flushing (by simp [flushed, Owner.isFlushing])
  have called : ∀ other ∈ before.committed, other.IsPayload →
      before.snapshotIndex < other.index →
        ∃ call ∈ before.calls, call.index = other.index ∧ call.data = other.data := by
    intro other other_mem payload above
    obtain ⟨call, call_mem, index_eq, data_eq⟩ | ⟨queued, queued_mem, -, -⟩ |
      ⟨installing, -, -⟩ := ledger.accounted other other_mem payload above
    · exact ⟨call, call_mem, index_eq, data_eq⟩
    · simp [drained] at queued_mem
    · simp [flushed] at installing
  have quiet : ∀ applied, (∀ bound, before.snapshotIndex ≤ bound →
      (∀ other ∈ before.committed, other.index ≤ bound) → applied ≤ bound) →
      Ledger { before with appliedIndex := applied, owner := .ready } := by
    intro applied applied_le
    have still_drained :
        inFlight { before with appliedIndex := applied, owner := .ready } = [] := drained
    refine
      { ledger with
        inFlight_ahead := by simp [still_drained]
        accounted := ?_
        failed_last := ?_
        applied_le := applied_le }
    · intro other other_mem payload above
      obtain ⟨call, call_mem, index_eq, data_eq⟩ := called other other_mem payload above
      exact .called call call_mem index_eq data_eq
    · intro call call_mem failed above
      exact absurd (unfailed call call_mem failed) (Nat.not_le_of_lt above)
  have advanced : ∀ bound, before.snapshotIndex ≤ bound →
      (∀ other ∈ before.committed, other.index ≤ bound) →
        max before.appliedIndex entry.index ≤ bound := by
    intro bound snapshot_le committed_le
    exact Nat.max_le.mpr ⟨ledger.applied_le bound snapshot_le committed_le, committed_le entry mem⟩
  cases outcome with
  | undecodable => exact quiet before.appliedIndex ledger.applied_le
  | refused => exact quiet _ advanced
  | applied => exact quiet _ advanced

/-- A snapshot install supersedes everything but an entry already under the mutex. -/
lemma install {dropped}
    (dropped_eq : before.inFlight = (installSnapshot index before).inFlight ++ dropped) :
    Ledger (installSnapshot index before) := by
  have kept_mem : ∀ queued ∈ (installSnapshot index before).inFlight,
      queued ∈ before.inFlight := by
    intro queued mem
    simp [dropped_eq, mem]
  obtain ⟨kept_sorted, -, kept_lt⟩ :=
    pairwise_append.mp (dropped_eq ▸ ledger.inFlight_sorted)
  refine
    { ledger with
      inFlight_sorted := kept_sorted
      inFlight_committed := fun queued mem =>
        ledger.inFlight_committed queued (kept_mem queued mem)
      calls_before := fun call call_mem queued mem =>
        ledger.calls_before call call_mem queued (kept_mem queued mem)
      inFlight_ahead := fun queued mem =>
        ledger.inFlight_ahead queued (kept_mem queued mem)
      accounted := ?_
      failed_last := ?_ }
  · intro entry mem payload above
    obtain ⟨call, call_mem, index_eq, data_eq⟩ | ⟨queued, queued_mem, index_eq, data_eq⟩ |
      ⟨-, ahead, behind⟩ := ledger.accounted entry mem payload above
    · exact .called call call_mem index_eq data_eq
    · have ahead := ledger.inFlight_ahead queued queued_mem (index_eq ▸ above)
      rw [dropped_eq, mem_append] at queued_mem
      rcases queued_mem with queued_mem | queued_mem
      · exact .inFlight queued queued_mem index_eq data_eq
      · exact .superseded rfl (index_eq ▸ ahead)
          (fun kept mem => index_eq ▸ kept_lt kept mem queued queued_mem)
    · exact .superseded rfl ahead (fun kept mem => behind kept (kept_mem kept mem))
  · intro call call_mem failed above
    obtain ⟨ahead, last, empty, -⟩ := ledger.failed_last call call_mem failed above
    refine ⟨ahead, last, ?_, rfl⟩
    exact (append_eq_nil_iff.mp (dropped_eq.symm.trans empty)).1

lemma restore (drained : before.inFlight = [])
    (covers : ∀ entry ∈ before.committed, entry.index ≤ index) :
    Ledger (Apply.restore index true before) := by
  have still_drained : (Apply.restore index true before).inFlight = [] := drained
  refine
    { ledger with
      inFlight_ahead := by simp [still_drained]
      accounted := ?_
      failed_last := ?_
      applied_le := fun _ snapshot_le _ => snapshot_le }
  · intro entry mem _ above
    exact absurd (covers entry mem) (Nat.not_le_of_lt above)
  · intro call call_mem _ above
    obtain ⟨entry, entry_mem, index_eq⟩ := ledger.calls_committed call call_mem
    exact absurd (index_eq ▸ covers entry entry_mem) (Nat.not_le_of_lt above)

end Ledger

namespace Channel

variable {before : State} (channel : Channel before)
include channel

lemma backlog_install (index : Nat) : (installSnapshot index before).backlog = [] := by
  simp only [backlog, filterMap_eq_nil_iff]
  intro message mem
  cases message with
  | barrier => rfl
  | entry queued => exact if_neg (Nat.ne_of_lt (Nat.lt_succ_of_le (channel.epoch_le queued mem)))

lemma inFlight_install (index : Nat) :
    ∃ dropped, before.inFlight = (installSnapshot index before).inFlight ++ dropped := by
  simp only [inFlight, channel.backlog_install index, append_nil]
  change ∃ dropped, _ = before.worker.inFlight (before.epoch + 1) ++ dropped
  cases worker_eq : before.worker with
  | idle => exact ⟨_, rfl⟩
  | received queued =>
    have stamp_le := channel.received_le queued worker_eq
    have superseded : Worker.inFlight (before.epoch + 1) (.received queued) = [] :=
      if_neg (Nat.ne_of_lt (Nat.lt_succ_of_le stamp_le))
    exact ⟨_, by rw [superseded, nil_append]⟩
  | locked => exact ⟨_, rfl⟩

/-- While the owner installs and the worker is outside the mutex, nothing is in flight. -/
lemma inFlight_of_installing (installing : before.owner.isInstalling = true)
    (unlocked : ∀ queued, before.worker ≠ .locked queued) : before.inFlight = [] := by
  rw [inFlight, channel.install_backlog installing, append_nil]
  match worker_eq : before.worker with
  | .idle => rfl
  | .received queued =>
    simp [channel.install_received installing queued worker_eq]
  | .locked queued => exact absurd worker_eq (unlocked queued)

lemma inFlight_of_flushed (flushed : before.owner = .flushed entry) : before.inFlight = [] := by
  obtain ⟨queue_nil, idle⟩ := channel.drained entry flushed
  simp [inFlight, backlog, queue_nil, idle]

end Channel

/-- What holds of every state. -/
structure Invariant : Prop where
  ledger : Ledger state
  channel : Channel state

lemma Invariant.init : Invariant init where
  ledger := by constructor <;> simp [inFlight, backlog, InOrder]
  channel := by constructor <;> simp

namespace Invariant

variable {before after : State}

section

variable (invariant : Invariant before) {rest : List ApplyMsg}
include invariant

lemma commit (increasing : Increasing (.commit entry) before)
    (condition : NothingBehindFailure (.commit entry) before) (ready : before.owner = .ready)
    (taken : applyCommitted entry before = some after) : Invariant after := by
  obtain ⟨ledger, channel⟩ := invariant
  have free : .barrier ∉ before.queue := channel.barrier_free (by simp [ready])
  simp only [applyCommitted] at taken
  split at taken
  · rename_i normal
    split at taken
    · -- an empty entry is skipped
      rename_i empty
      cases taken
      constructor
      · refine ledger.commit [] increasing ready
          (by simp [inFlight, backlog]) .nil (by simp) ?_ (.inr ⟨rfl, ?_⟩)
        · exact fun payload => absurd empty payload.2
        · simp [ready, Owner.isFlushing]
      · refine { channel with conf_committed := ?_, install_covers := ?_ } <;> simp [ready]
    · -- a payload entry is queued
      rename_i nonempty
      simp only [sendEntry, send] at taken
      split at taken <;> cases taken
      have unfailed : Unfailed before := condition.resolve_right (by simp [nonempty])
      constructor
      · refine ledger.commit
          [{ index := entry.index, data := entry.data, epoch := before.epoch }]
          increasing ready ?_ (pairwise_singleton _ _) (by simp)
          (by simp) (.inl unfailed)
        simp [inFlight, backlog]
      · constructor
        case epoch_le =>
          intro queued mem
          rcases mem_append.mp mem with mem | mem
          · exact channel.epoch_le queued mem
          · simp at mem
            simp [mem]
        case received_le => exact channel.received_le
        case barrier_free => simpa using fun _ => free
        all_goals simp [ready]
  all_goals
    -- a configuration change sends the barrier first
    simp only [send] at taken
    split at taken <;> cases taken
    rename_i conf _
    have unfailed : Unfailed before := condition.resolve_right (by simp [conf])
    constructor
    · refine ledger.commit [] increasing ready ?_ .nil (by simp)
        (by simp [Entry.IsPayload, conf]) (.inl unfailed)
      simp [inFlight, backlog]
    · constructor
      case epoch_le => simpa using channel.epoch_le
      case received_le => exact channel.received_le
      case barrier_last => exact fun _ _ => ⟨before.queue, rfl, free⟩
      case conf_committed =>
        intro other flushing
        have other_eq : entry = other := by simpa using flushing
        subst other_eq
        refine ⟨by simp, fun earlier mem => ?_⟩
        rcases mem_append.mp mem with mem | mem
        · exact Nat.le_of_lt (increasing earlier mem)
        · simp at mem
          simp [mem]
      all_goals simp

lemma confEntry (outcome) (flushed : before.owner = .flushed entry) :
    Invariant (applyConfEntry entry outcome before) := by
  obtain ⟨ledger, channel⟩ := invariant
  obtain ⟨queue_nil, idle⟩ := channel.drained entry flushed
  obtain ⟨mem, -⟩ := channel.conf_committed entry (.inr flushed)
  refine ⟨ledger.confEntry outcome flushed (channel.inFlight_of_flushed flushed) mem, ?_⟩
  cases outcome <;>
    constructor <;>
      simp [applyConfEntry, advanceAppliedIndex, queue_nil, idle]

lemma install (condition : NothingBehindFailure (.install index) before)
    (idle : ∀ entry, before.owner ≠ .flushing entry) :
    Invariant (installSnapshot index before) := by
  obtain ⟨ledger, channel⟩ := invariant
  obtain ⟨dropped, dropped_eq⟩ := channel.inFlight_install index
  refine ⟨ledger.install dropped_eq, ?_⟩
  constructor
  case epoch_le => exact fun queued mem => Nat.le_succ_of_le (channel.epoch_le queued mem)
  case received_le =>
    exact fun queued received => Nat.le_succ_of_le (channel.received_le queued received)
  case barrier_free => exact fun _ => channel.barrier_free idle
  case install_backlog => exact fun _ => channel.backlog_install index
  case install_received =>
    intro _ queued received
    have := channel.received_le queued received
    simp only [installSnapshot]
    omega
  case install_covers =>
    intro covered covered_eq
    have index_eq : index = covered := by simpa [installSnapshot] using covered_eq
    subst index_eq
    exact condition
  all_goals simp [installSnapshot]

lemma restore (ok : Bool) (installing : before.owner = .installing index)
    (unlocked : ∀ queued, before.worker ≠ .locked queued) :
    Invariant (Apply.restore index ok before) := by
  obtain ⟨ledger, channel⟩ := invariant
  have is_installing : before.owner.isInstalling = true := by
    simp [installing]
  have free : .barrier ∉ before.queue := channel.barrier_free (by simp [installing])
  cases ok with
  | true =>
    have drained : before.inFlight = [] :=
      channel.inFlight_of_installing is_installing unlocked
    refine ⟨ledger.restore drained (channel.install_covers index installing), ?_⟩
    constructor
    case epoch_le => exact channel.epoch_le
    case received_le => exact channel.received_le
    all_goals simp [Apply.restore, free]
  | false =>
    refine ⟨ledger.move rfl ?_ ?_, ?_⟩
    · simp [installing, Owner.isFlushing]
    · simp [installing]
    · constructor
      case epoch_le => exact channel.epoch_le
      case received_le => exact channel.received_le
      case install_backlog => exact fun _ => channel.install_backlog is_installing
      case install_received => exact fun _ => channel.install_received is_installing
      all_goals simp [Apply.restore, free]

lemma receive_barrier (idle : before.worker = .idle) (queue_eq : before.queue = .barrier :: rest)
    : Invariant (handleApplyMsg .barrier { before with queue := rest }) := by
  obtain ⟨ledger, channel⟩ := invariant
  cases owner_eq : before.owner with
  | flushing entry =>
    have last : rest = [] := by
      obtain ⟨ahead, ahead_eq, free⟩ := channel.barrier_last entry owner_eq
      rw [queue_eq] at ahead_eq
      cases ahead with
      | nil => simpa using ahead_eq
      | cons head =>
        have head_eq : .barrier = head := (List.cons.inj ahead_eq).1
        simp [← head_eq] at free
    obtain ⟨mem, latest⟩ := channel.conf_committed entry (.inl owner_eq)
    simp only [handleApplyMsg, last]
    constructor
    · refine ledger.move ?_ ?_ ?_
      · simp [inFlight, backlog, queue_eq, last]
      · simp [owner_eq, Owner.isFlushing]
      · simp [owner_eq]
    · constructor
      case conf_committed =>
        intro other flushed
        have other_eq : entry = other := by simpa using flushed
        exact other_eq ▸ ⟨mem, latest⟩
      all_goals simp [idle]
  | _ =>
    have free : .barrier ∉ before.queue := channel.barrier_free (by simp [owner_eq])
    simp [queue_eq] at free

lemma receive_entry (idle : before.worker = .idle)
    (queue_eq : before.queue = .entry queued :: rest) :
    Invariant (handleApplyMsg (.entry queued) { before with queue := rest }) := by
  obtain ⟨ledger, channel⟩ := invariant
  have rest_le : ∀ other, .entry other ∈ rest → other.epoch ≤ before.epoch :=
    fun other mem => channel.epoch_le other (by simp [queue_eq, mem])
  have rest_last : ∀ entry, before.owner = .flushing entry →
      ∃ ahead, rest = ahead ++ [.barrier] ∧ .barrier ∉ ahead := by
    intro entry flushing
    obtain ⟨ahead, ahead_eq, free⟩ := channel.barrier_last entry flushing
    rw [queue_eq] at ahead_eq
    cases ahead with
    | nil => simp at ahead_eq
    | cons head tail => exact ⟨tail, (List.cons.inj ahead_eq).2, fun mem => free (by simp [mem])⟩
  have rest_free : (∀ entry, before.owner ≠ .flushing entry) → .barrier ∉ rest := by
    intro idle_owner mem
    exact channel.barrier_free idle_owner (by simp [queue_eq, mem])
  have not_flushed : ∀ entry, before.owner ≠ .flushed entry := by
    intro entry flushed
    have queue_nil := (channel.drained entry flushed).1
    simp [queue_eq] at queue_nil
  have rest_backlog (installing : before.owner.isInstalling = true) :
      rest.filterMap (ApplyMsg.current before.epoch) = [] := by
    have backlog_nil := channel.install_backlog installing
    rw [backlog, queue_eq, filterMap_cons] at backlog_nil
    split at backlog_nil
    · exact backlog_nil
    · cases backlog_nil
  have dequeued : Channel { before with queue := rest } :=
    { channel with
      epoch_le := rest_le
      barrier_last := rest_last
      barrier_free := rest_free
      drained := fun entry flushed => absurd flushed (not_flushed entry)
      install_backlog := rest_backlog }
  simp only [handleApplyMsg]
  split_ifs with current
  · have not_installing : before.owner.isInstalling = false := by
      by_contra installing
      have backlog_nil := channel.install_backlog (by simpa using installing)
      simp [backlog, queue_eq, current] at backlog_nil
    refine ⟨ledger.move ?_ rfl rfl, { dequeued with
      received_le := ?_
      drained := fun entry flushed => absurd flushed (not_flushed entry)
      install_received := fun installing => by cases not_installing.symm.trans installing }⟩
    · simp [inFlight, backlog, queue_eq, idle, current]
    · intro other received
      have other_eq : queued = other := by simpa using received
      exact other_eq ▸ Nat.le_of_eq current
  · refine ⟨ledger.move ?_ rfl rfl, dequeued⟩
    simp [inFlight, backlog, queue_eq, current]

end

lemma channel_of_worker (channel : Channel before) {worker}
    (busy : before.worker ≠ .idle) (not_received : ∀ queued, worker ≠ .received queued) :
    Channel { before with worker } := by
  refine { channel with received_le := ?_, drained := ?_, install_received := ?_ }
  · exact fun queued received => absurd received (not_received queued)
  · exact fun entry flushed => absurd (channel.drained entry flushed).2 busy
  · exact fun _ queued received => absurd received (not_received queued)

variable (invariant : Invariant before)
include invariant

lemma lock (received : before.worker = .received queued) :
    Invariant (lockQueuedEntry queued before) := by
  obtain ⟨ledger, channel⟩ := invariant
  simp only [lockQueuedEntry]
  split_ifs with current
  · refine ⟨ledger.move ?_ rfl rfl, channel_of_worker channel ?_ ?_⟩
    · simp [inFlight, backlog, received, current]
    · simp [received]
    · simp
  · refine ⟨ledger.move ?_ rfl rfl, channel_of_worker channel ?_ ?_⟩
    · simp [inFlight, backlog, received, current]
    · simp [received]
    · simp

lemma apply {ok} (condition : NothingBehindFailure (.apply ok) before)
    (locked : before.worker = .locked queued) : Invariant (applyQueuedEntry queued ok before) := by
  obtain ⟨ledger, channel⟩ := invariant
  have head : before.inFlight = queued :: before.backlog := by
    simp [inFlight, locked]
  have idle : Channel { before with worker := .idle } :=
    channel_of_worker channel (by simp [locked]) (by simp)
  cases ok with
  | false => exact ⟨ledger.apply head rfl rfl condition, { idle with }⟩
  | true => exact ⟨ledger.apply head rfl rfl condition, { idle with }⟩

lemma step {label} (increasing : Increasing label before)
    (condition : NothingBehindFailure label before) (taken : Apply.step label before = some after) :
    Invariant after := by
  cases label with
  | commit entry =>
    simp only [Apply.step] at taken
    split at taken
    · exact invariant.commit increasing condition ‹_› taken
    · cases taken
  | confEntry outcome =>
    simp only [Apply.step] at taken
    split at taken <;> cases taken
    exact invariant.confEntry outcome ‹_›
  | install =>
    simp only [Apply.step] at taken
    split at taken <;> cases taken <;> exact invariant.install condition (by simp [*])
  | restore ok =>
    simp only [Apply.step] at taken
    split at taken <;> cases taken
    rename_i installing unlocked
    exact invariant.restore ok installing unlocked
  | receive =>
    simp only [Apply.step] at taken
    split at taken <;> cases taken
    rename_i message rest idle queue_eq
    cases message with
    | entry => exact invariant.receive_entry idle queue_eq
    | barrier => exact invariant.receive_barrier idle queue_eq
  | lock =>
    simp only [Apply.step] at taken
    split at taken <;> cases taken
    exact invariant.lock ‹_›
  | apply ok =>
    simp only [Apply.step] at taken
    split at taken <;> cases taken
    exact invariant.apply condition ‹_›

end Invariant

/-- In every run in which nothing is behind a failed entry, the contract holds in every state. -/
theorem contract_of_nothingBehindFailure {labels : List Label} {finish : State}
    (run : Runs step (fun label state => Increasing label state ∧ NothingBehindFailure label state)
      State.init labels finish) : Contract finish := by
  have invariant : Invariant finish :=
    run.invariant Invariant.init fun holds admitted taken =>
      holds.step admitted.1 admitted.2 taken
  exact invariant.ledger.contract

private def payload (index : Nat) : Entry :=
  { entryType := .entryNormal, term := 1, index, data := [0], context := [] }

private def membership (index : Nat) : Entry :=
  { entryType := .entryConfChange, term := 1, index, data := [], context := [] }

/-- The condition admits a run in which entry 2 fails as the last one queued, a snapshot at 5
covers it, and a payload and a membership change follow. -/
theorem contract_after_covered_failure :
    ∃ labels finish, Runs step
      (fun label state => Increasing label state ∧ NothingBehindFailure label state)
        State.init labels finish ∧ finish.appliedIndex = 7 ∧ finish.calls.length = 3 ∧
          Contract finish := by
  refine ⟨[.commit (payload 1), .commit (payload 2), .receive, .lock, .apply true, .receive, .lock,
    .apply false, .install 5, .restore true, .commit (payload 6), .commit (membership 7),
    .receive, .lock, .apply true, .receive, .confEntry .applied],
    Runs.exists_of_test (fun state => state.appliedIndex = 7 ∧ state.calls.length = 3) (by decide)
      fun run reached => ?_⟩
  exact ⟨reached.1, reached.2, contract_of_nothingBehindFailure run⟩

/-- Entry 1 fails, the worker goes on, and accepting entry 2 moves the frontier past entry 1. -/
theorem frontier_passes_failed_entry :
    ∃ finish, Runs step Increasing State.init
      [.commit (payload 1), .commit (payload 2), .receive, .lock, .apply false, .receive, .lock,
        .apply true] finish ∧ ¬Contract finish := Runs.exists_of_execWhile _ _ _ _ _ (by decide)

end Catga.Raft.Apply
