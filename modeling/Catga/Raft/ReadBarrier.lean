import Catga.Raft.ApplyFence
import Catga.Raft.Attribution
import Mathlib.Data.Nat.Basic

/-!
# The read barrier and the apply frontier

`read_barrier` polls the frontier until it reaches the read index.  The frontier moves with the
calls of the machine, with configuration changes that decode and with snapshots; an empty normal
entry and an undecodable configuration change are handled without moving it, so a barrier at such
an entry waits for a later one.
-/

namespace Catga.Raft.Apply

open Transition
open Attribution (CatgaRaftError)

/-- The polling loop of `read_barrier` over the frontiers it reads before its deadline. -/
def pollFrontier (index : Nat) : List Nat → Except CatgaRaftError Nat
  | [] => .error .timeout
  | applied :: later => if index ≤ applied then .ok index else pollFrontier index later

/-- `read_barrier`: confirm a read index, then wait for the frontier to reach it. -/
def readBarrier (readIndex : Except CatgaRaftError Nat) (polls : List Nat) :
    Except CatgaRaftError Nat := do
  let index ← readIndex
  pollFrontier index polls

/-- The owner has handled everything it was given and the worker has emptied the channel. -/
def Drained (state : State) : Prop := state.owner = .ready ∧ state.worker = .idle ∧ state.queue = []
deriving Decidable

/-- The frontier has reached `index` and, with the node at rest, every barrier up to it returns. -/
def ServesReads (state : State) (index : Nat) : Prop :=
  index ≤ state.appliedIndex ∧
    ∀ read ≤ index, ∀ polls, readBarrier (.ok read) (.replicate (polls + 1) state.appliedIndex) =
      .ok read

variable (decodes : Entry → Bool)

def movesFrontier (entry : Entry) : Bool :=
  match entry.entryType with
  | .entryNormal => !entry.data.isEmpty
  | .entryConfChange | .entryConfChangeV2 => decodes entry

/-- A configuration change ends as undecodable exactly if its payload does not decode. -/
def Decoded : Label → State → Prop
  | .confEntry outcome, state =>
    ∀ entry, state.owner = .flushed entry → (outcome = .undecodable ↔ decodes entry = false)
  | _, _ => True

instance (decodes : Entry → Bool) : ∀ label state, Decidable (Decoded decodes label state)
  | .confEntry outcome, { owner := .flushed entry, .. } =>
    decidable_of_iff (outcome = .undecodable ↔ decodes entry = false) (by simp [Decoded])
  | .confEntry _, { owner := .ready, .. } | .confEntry _, { owner := .flushing _, .. }
  | .confEntry _, { owner := .installing _, .. } | .confEntry _, { owner := .refused _, .. } =>
    .isTrue (by simp [Decoded])
  | .commit _, _ | .install _, _ | .restore _, _ | .receive, _ | .lock, _ | .apply _, _ =>
    .isTrue trivial

/-- The actions of a run in which raft-rs keeps its promises and the machine accepts every entry. -/
def Accepting (label : Label) (state : State) : Prop :=
  Promised label state ∧ label.accepts = true ∧ Decoded decodes label state
deriving Decidable

/-- The frontier follows the entries that move it. -/
structure Follows (state : State) : Prop where
  reached : ∀ entry ∈ state.committed, movesFrontier decodes entry = true →
    entry.index ≤ state.appliedIndex ∨ (∃ queued ∈ state.inFlight, queued.index = entry.index) ∨
      state.owner = .flushing entry ∨ state.owner = .flushed entry ∨
        state.owner.isInstalling = true
  attained : state.appliedIndex ≤ state.snapshotIndex ∨
    ∃ entry ∈ state.committed, movesFrontier decodes entry = true ∧
      state.appliedIndex ≤ entry.index
  inFlight_moves : ∀ queued ∈ state.inFlight, ∃ entry ∈ state.committed,
    movesFrontier decodes entry = true ∧ entry.index = queued.index
  snapshot_le : state.snapshotIndex ≤ state.appliedIndex
  conf_flushing : ∀ entry, state.owner = .flushing entry ∨ state.owner = .flushed entry →
    entry.entryType ≠ .entryNormal

lemma mem_sends {epoch entry queued} :
    queued ∈ sends epoch entry ↔
      (entry.entryType = .entryNormal ∧ entry.data ≠ []) ∧
        queued = { index := entry.index, data := entry.data, epoch } := by
  simp only [sends]
  split <;> simp [*]

namespace Follows

variable {decodes : Entry → Bool} {before after : State}

lemma init (decodes : Entry → Bool) : Follows decodes .init := by
  constructor <;> simp [State.inFlight, State.backlog]

variable (follows : Follows decodes before)
include follows

/-- A handled entry is on the channel, awaits its barrier, or leaves the frontier where it is. -/
lemma commit {entry} (effect : Effect before after (.commit entry)) :
    Follows decodes after := by
  cases effect with
  | commit _ ready owner_eq inFlight_eq committed_eq _ applied_eq snapshot_eq =>
    have grows : ∀ other ∈ before.committed, other ∈ after.committed := by
      intro other mem
      simp [committed_eq, mem]
    constructor
    case reached =>
      intro other mem moves
      rw [committed_eq, List.mem_append, List.mem_singleton] at mem
      rw [applied_eq, inFlight_eq]
      rcases mem with mem | rfl
      · obtain behind | ⟨queued, queued_mem, index_eq⟩ | flushing | flushed | installing :=
          follows.reached other mem moves
        · exact .inl behind
        · exact .inr (.inl ⟨queued, by simp [queued_mem], index_eq⟩)
        · simp [ready] at flushing
        · simp [ready] at flushed
        · simp [ready] at installing
      · by_cases normal : other.entryType = .entryNormal
        · have nonempty : other.data ≠ [] := by simpa [movesFrontier, normal] using moves
          refine .inr (.inl ⟨{ index := other.index, data := other.data, epoch := before.epoch },
            List.mem_append_right _ ?_, rfl⟩)
          exact mem_sends.mpr ⟨⟨normal, nonempty⟩, rfl⟩
        · exact .inr (.inr (.inl (by simp [owner_eq, normal])))
    case attained =>
      rw [applied_eq, snapshot_eq]
      refine follows.attained.imp_right fun moved => ?_
      obtain ⟨other, mem, moves, behind⟩ := moved
      exact ⟨other, grows other mem, moves, behind⟩
    case inFlight_moves =>
      intro queued mem
      rw [inFlight_eq, List.mem_append, mem_sends] at mem
      rcases mem with mem | ⟨⟨normal, nonempty⟩, rfl⟩
      · obtain ⟨other, other_mem, moves, index_eq⟩ := follows.inFlight_moves queued mem
        exact ⟨other, grows other other_mem, moves, index_eq⟩
      · exact ⟨entry, by simp [committed_eq], by simp [movesFrontier, normal, nonempty], rfl⟩
    case snapshot_le => exact applied_eq ▸ snapshot_eq ▸ follows.snapshot_le
    case conf_flushing =>
      intro other
      rw [owner_eq]
      split_ifs with conf
      · simp
      · simp only [Owner.flushing.injEq, or_false]
        exact fun entry_eq => entry_eq ▸ conf
  | worker moves => simp at moves

lemma confEntry (channel : Channel before) {outcome}
    (decoded : Decoded decodes (.confEntry outcome) before)
    (effect : Effect before after (.confEntry outcome)) : Follows decodes after := by
  cases effect with
  | confEntry _ entry flushed owner_eq drained drained_after committed_eq _ applied_eq
    snapshot_eq =>
    have entry_mem := (channel.conf_committed entry (.inr flushed)).1
    have conf := follows.conf_flushing entry (.inr flushed)
    have moves_eq : movesFrontier decodes entry = decodes entry := by
      simp only [movesFrontier]
      split
      · contradiction
      · rfl
      · rfl
    have applied_le : before.appliedIndex ≤ after.appliedIndex := by
      rw [applied_eq]
      split <;> omega
    constructor
    case reached =>
      intro other mem moves
      rw [committed_eq] at mem
      left
      obtain behind | ⟨queued, queued_mem, -⟩ | flushing | other_flushed | installing :=
        follows.reached other mem moves
      · exact le_trans behind applied_le
      · simp [drained] at queued_mem
      · simp [flushed] at flushing
      · have entry_eq : entry = other := by simpa [flushed] using other_flushed
        subst entry_eq
        have decodable : outcome ≠ .undecodable := by
          intro undecodable
          have := (decoded entry flushed).mp undecodable
          simp [moves_eq, this] at moves
        rw [applied_eq, if_neg decodable]
        exact le_max_right _ _
      · simp [flushed] at installing
    case attained =>
      rw [applied_eq, committed_eq, snapshot_eq]
      split_ifs with decodable
      · exact follows.attained
      · have moves : movesFrontier decodes entry = true := by
          rw [moves_eq, ← Bool.not_eq_false]
          exact fun undecodable => decodable ((decoded entry flushed).mpr undecodable)
        rcases le_total before.appliedIndex entry.index with behind | ahead
        · exact .inr ⟨entry, entry_mem, moves, max_le behind le_rfl⟩
        · rw [max_eq_left ahead]
          exact follows.attained
    case inFlight_moves => simp [drained_after]
    case snapshot_le =>
      have := follows.snapshot_le
      omega
    case conf_flushing => simp [owner_eq]
  | worker moves => simp at moves

lemma applied (effect : Effect before after (.apply true)) : Follows decodes after := by
  cases effect with
  | applied queued _ owner_eq inFlight_eq committed_eq _ applied_eq snapshot_eq =>
    constructor
    case reached =>
      intro other mem moves
      rw [committed_eq] at mem
      rw [applied_eq, owner_eq]
      obtain behind | ⟨found, found_mem, index_eq⟩ | waiting := follows.reached other mem moves
      · exact .inl (le_trans behind (le_max_left _ _))
      · rw [inFlight_eq, List.mem_cons] at found_mem
        rcases found_mem with rfl | found_mem
        · exact .inl (index_eq ▸ le_max_right _ _)
        · exact .inr (.inl ⟨found, found_mem, index_eq⟩)
      · exact .inr (.inr waiting)
    case attained =>
      rw [applied_eq, committed_eq, snapshot_eq]
      rcases le_total before.appliedIndex queued.index with behind | ahead
      · obtain ⟨other, mem, moves, index_eq⟩ :=
          follows.inFlight_moves queued (by simp [inFlight_eq])
        exact .inr ⟨other, mem, moves, by omega⟩
      · rw [max_eq_left ahead]
        exact follows.attained
    case inFlight_moves =>
      intro other mem
      rw [committed_eq]
      exact follows.inFlight_moves other (by simp [inFlight_eq, mem])
    case snapshot_le =>
      have := follows.snapshot_le
      omega
    case conf_flushing => exact owner_eq ▸ follows.conf_flushing
  | worker moves => simp at moves

/-- An action that keeps the frontier and drops from what is in flight only while a snapshot is
being installed. -/
lemma keep (committed_eq : after.committed = before.committed)
    (applied_eq : after.appliedIndex = before.appliedIndex)
    (snapshot_eq : after.snapshotIndex = before.snapshotIndex)
    (inFlight_sub : ∀ queued ∈ after.inFlight, queued ∈ before.inFlight)
    (waiting : after.owner.isInstalling = true ∨ after.inFlight = before.inFlight ∧
      (after.owner = before.owner ∨
        ∃ entry, before.owner = .flushing entry ∧ after.owner = .flushed entry)) :
    Follows decodes after where
  reached := by
    intro other mem moves
    rw [committed_eq] at mem
    rcases waiting with installing | ⟨inFlight_eq, owner_eq | ⟨entry, flushing, flushed⟩⟩
    · exact .inr (.inr (.inr (.inr installing)))
    · rw [applied_eq, inFlight_eq, owner_eq]
      exact follows.reached other mem moves
    · rw [applied_eq, inFlight_eq, flushed]
      have reached := follows.reached other mem moves
      simpa [flushing] using reached
  attained := by
    rw [applied_eq, committed_eq, snapshot_eq]
    exact follows.attained
  inFlight_moves := fun queued mem =>
    committed_eq ▸ follows.inFlight_moves queued (inFlight_sub queued mem)
  snapshot_le := applied_eq ▸ snapshot_eq ▸ follows.snapshot_le
  conf_flushing := by
    rcases waiting with installing | ⟨-, owner_eq | ⟨entry, flushing, flushed⟩⟩
    · intro other owner_eq
      rcases owner_eq with owner_eq | owner_eq <;> simp [owner_eq] at installing
    · exact owner_eq ▸ follows.conf_flushing
    · intro other owner_eq
      have other_eq : entry = other := by simpa [flushed] using owner_eq
      exact other_eq ▸ follows.conf_flushing entry (.inl flushing)

/-- Every action of an accepting run keeps the frontier behind the entries that move it. -/
lemma step (channel : Channel before) {label} (decoded : Decoded decodes label before)
    (effect : Effect before after label) : Follows decodes after := by
  have whole := effect
  cases effect with
  | commit => exact follows.commit whole
  | confEntry => exact follows.confEntry channel decoded whole
  | applied => exact follows.applied whole
  | install _ dropped installing inFlight_eq committed_eq _ applied_eq snapshot_eq =>
    refine follows.keep committed_eq applied_eq snapshot_eq ?_ (.inl installing)
    intro queued mem
    simp [inFlight_eq, mem]
  | restored index installing owner_eq drained committed_eq _ applied_eq =>
    constructor
    case reached =>
      intro other mem _
      rw [committed_eq] at mem
      exact .inl (applied_eq ▸ channel.install_covers index installing other mem)
    case attained => exact .inl (by omega)
    case inFlight_moves => simp [drained]
    case snapshot_le => omega
    case conf_flushing => simp [owner_eq]
  | refused installing inFlight_eq committed_eq _ applied_eq snapshot_eq =>
    exact follows.keep committed_eq applied_eq snapshot_eq (by simp [inFlight_eq]) (.inl installing)
  | worker _ owner_cases inFlight_eq committed_eq _ applied_eq snapshot_eq =>
    exact follows.keep committed_eq applied_eq snapshot_eq (by simp [inFlight_eq])
      (.inr ⟨inFlight_eq, owner_cases⟩)

end Follows

/-- The invariant of the runs in which the machine accepts every entry. -/
structure AcceptingInvariant (state : State) : Prop where
  invariant : Invariant state
  accepted : ∀ call ∈ state.calls, call.ok = true
  follows : Follows decodes state

variable {decodes : Entry → Bool}

lemma AcceptingInvariant.step {label before after}
    (holds : AcceptingInvariant decodes before) (admitted : Accepting decodes label before)
    (taken : Apply.step label before = some after) : AcceptingInvariant decodes after := by
  obtain ⟨promised, accepts, decoded⟩ := admitted
  have effect := effect_of_step holds.invariant.channel accepts taken
  have condition := nothingBehindFailure_of_accepted holds.accepted promised accepts
  exact
    { invariant := holds.invariant.step (increasing_of_promised promised) condition taken
      accepted := effect.accepted holds.accepted
      follows := holds.follows.step holds.invariant.channel decoded effect }

/-- At rest the frontier has reached `index` exactly if a snapshot or an entry that moves the
frontier has. -/
lemma AcceptingInvariant.applied_iff {state} (holds : AcceptingInvariant decodes state)
    (drained : Drained state) (index : Nat) :
    index ≤ state.appliedIndex ↔ index ≤ state.snapshotIndex ∨
      ∃ entry ∈ state.committed, movesFrontier decodes entry = true ∧ index ≤ entry.index := by
  obtain ⟨ready, idle, queue_nil⟩ := drained
  have empty : state.inFlight = [] := by
    simp [State.inFlight, State.backlog, idle, queue_nil]
  constructor
  · intro reached
    refine holds.follows.attained.imp (le_trans reached) ?_
    rintro ⟨entry, mem, moves, applied_le⟩
    exact ⟨entry, mem, moves, le_trans reached applied_le⟩
  · rintro (covered | ⟨entry, mem, moves, index_le⟩)
    · exact le_trans covered holds.follows.snapshot_le
    · obtain behind | ⟨queued, queued_mem, -⟩ | flushing | flushed | installing :=
        holds.follows.reached entry mem moves
      · exact le_trans index_le behind
      · simp [empty] at queued_mem
      · simp [ready] at flushing
      · simp [ready] at flushed
      · simp [ready] at installing

/-- With the node at rest, barriers up to `index` return exactly if the frontier has reached it. -/
lemma servesReads_iff {state index} :
    ServesReads state index ↔ index ≤ state.appliedIndex := by
  refine ⟨And.left, fun reached => ⟨reached, fun read read_le polls => ?_⟩⟩
  have read_reached : read ≤ state.appliedIndex := le_trans read_le reached
  simp [readBarrier, List.replicate_succ, pollFrontier, read_reached, bind, Except.bind]

/-- Where the machine accepts every entry, and owner and worker are at rest, reads up to `index` are
served exactly if an installed snapshot reaches it or an entry at or above it carries data or is a
configuration change that decodes. -/
theorem reads_caught_up_iff (decodes : Entry → Bool) {labels : List Label} {finish : State}
    (run : Runs step (Accepting decodes) State.init labels finish) (drained : Drained finish)
    (index : Nat) :
    ServesReads finish index ↔ index ≤ finish.snapshotIndex ∨
      ∃ entry ∈ finish.committed, movesFrontier decodes entry = true ∧ index ≤ entry.index := by
  have initial : AcceptingInvariant decodes State.init :=
    ⟨.init, by simp, .init decodes⟩
  have holds : AcceptingInvariant decodes finish :=
    run.invariant initial fun holds admitted taken => holds.step admitted taken
  rw [servesReads_iff]
  exact holds.applied_iff drained index

private def handled (entryType : EntryType) (index : Nat) (data : List UInt8) : Entry :=
  { entryType, term := 1, index, data, context := [] }

/-- After an empty entry, a payload, a membership change and an undecodable one, reads up to the
membership change at 3 are served. -/
theorem reads_caught_up_to_membership :
    ∃ labels finish, Runs step (Accepting fun entry => entry.data.isEmpty) State.init labels
      finish ∧ Drained finish ∧ finish.committed.length = 4 ∧ ServesReads finish 3 := by
  obtain ⟨finish, run, drained, length_eq, mem⟩ := Runs.exists_of_execWhile step
    (Accepting fun entry => entry.data.isEmpty) State.init
    [.commit (handled .entryNormal 1 []), .commit (handled .entryNormal 2 [7]),
      .commit (handled .entryConfChangeV2 3 []), .receive, .lock, .apply true, .receive,
      .confEntry .applied, .commit (handled .entryConfChange 4 [255]), .receive,
      .confEntry .undecodable]
    (fun state => Drained state ∧ state.committed.length = 4 ∧
      handled .entryConfChangeV2 3 [] ∈ state.committed) (by decide)
  refine ⟨_, finish, run, drained, length_eq, ?_⟩
  rw [reads_caught_up_iff _ run drained]
  exact .inr ⟨_, mem, rfl, le_rfl⟩

/-- A new leader's own empty entry is handled and nothing is left to do, but a barrier at its index
does not return. -/
theorem barrier_stuck_at_empty_entry :
    ∃ finish, Runs step (Accepting fun _ => true) State.init
      [.commit (handled .entryNormal 1 [])] finish ∧ Drained finish ∧
        handled .entryNormal 1 [] ∈ finish.committed ∧ ¬ServesReads finish 1 := by
  refine Runs.exists_of_test (fun state => Drained state ∧
    handled .entryNormal 1 [] ∈ state.committed ∧ state.appliedIndex = 0) (by decide)
    fun {finish} _ stuck => ⟨stuck.1, stuck.2.1, fun serves => ?_⟩
  have reached : 1 ≤ finish.appliedIndex := serves.1
  omega

end Catga.Raft.Apply
