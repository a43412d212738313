import Catga.Raft.Attribution

/-!
# Expiry of waiting calls

The owner loop keeps queues of waiting reads, proposals and configuration changes.  An answer takes
a call out with `swap_remove`, and on every tick the calls that have waited too long are drained as
a prefix, whose end `partition_point` searches for.  The search relies on the order of the queue,
and an answer to a call in the middle puts the youngest call in its place.
-/

namespace Catga.Raft.Expiry

open Attribution Transition List

/-- `PendingRead`, `PendingPropose` and `PendingConfChange`; `call` stands for the reply channel. -/
structure Pending where
  ctx : List UInt8
  /-- Milliseconds on the owner's monotonic clock. -/
  queuedAt : Nat
  call : Nat

/-- The queues of waiting calls. -/
inductive Queue where
  | reads
  | proposes
  | confs
deriving DecidableEq

/-- `MAX_PENDING_READS`, `MAX_PENDING_PROPOSES` and `MAX_PENDING_CONFS`. -/
def Queue.capacity : Queue → Nat
  | .reads => 4096
  | .proposes => maxPendingProposes
  | .confs => 16

/-- `PENDING_READ_TTL`, `PENDING_PROPOSE_TTL` and `PENDING_CONF_TTL`, in milliseconds. -/
def Queue.ttl : Queue → Nat
  | .reads | .proposes | .confs => 10000

variable (queue : Queue)

def Queue.stale (now : Nat) (wait : Pending) : Bool := queue.ttl ≤ now - wait.queuedAt

/-- One queue at the time of its last step. -/
structure Waiting where
  clock : Nat
  pending : List Pending

def Waiting.init : Waiting := { clock := 0, pending := [] }

/-- `queue_read`, `queue_propose_wait` and the end of `handle_conf_request`: past the cap the call
is refused. -/
def Waiting.enqueue (wait : Pending) (waiting : Waiting) : Waiting :=
  if queue.capacity ≤ waiting.pending.length then waiting
  else { waiting with pending := waiting.pending ++ [wait] }

variable (ctx : List UInt8) (waiting : Waiting)

/-- The place of the call that an answer is for; only a read is matched with an empty context. -/
def Waiting.position : Option Nat :=
  if queue ≠ .reads ∧ ctx = [] then none
  else waiting.pending.findIdx? fun wait => wait.ctx = ctx

/-- The read states of `process_ready`, `resolve_propose_wait` and `resolve_pending`. -/
def Waiting.resolve : Waiting :=
  match waiting.position queue ctx with
  | none => waiting
  | some position => { waiting with pending := swapRemove waiting.pending position }

abbrev PartitionPoint := (Pending → Bool) → List Pending → Nat

variable (partitionPoint : PartitionPoint)

/-- What the standard library promises: the search finds where a partitioned slice changes.  Of
other slices nothing is promised. -/
def PartitionPoint.Searches : Prop :=
  ∀ holds (yes no : List Pending), (∀ wait ∈ yes, holds wait = true) →
    (∀ wait ∈ no, holds wait = false) → partitionPoint holds (yes ++ no) = yes.length

/-- `expire_pending_reads`, `expire_pending_proposes` and `expire_pending_confs`: the calls that
fail with `Timeout`, and those that stay queued. -/
def Waiting.expire (now : Nat) (waiting : Waiting) : List Pending × List Pending :=
  waiting.pending.splitAt (partitionPoint (queue.stale now) waiting.pending)

inductive Label where
  | enqueue (ctx : List UInt8) (call now : Nat)
  | resolve (ctx : List UInt8) (now : Nat)
  | expire (now : Nat)

def Label.now : Label → Nat
  | .enqueue _ _ now | .resolve _ now | .expire now => now

/-- One step of a queue; time does not run backwards. -/
def step (label : Label) (waiting : Waiting) : Option Waiting :=
  if label.now < waiting.clock then none
  else
    let waiting := { waiting with clock := label.now }
    match label with
    | .enqueue ctx call now => some (waiting.enqueue queue ⟨ctx, now, call⟩)
    | .resolve ctx _ => some (waiting.resolve queue ctx)
    | .expire now => some { waiting with pending := (waiting.expire queue partitionPoint now).2 }

/-- An expiry fails exactly the calls that have waited for the time to live. -/
def Waiting.Exact (now : Nat) (waiting : Waiting) : Prop :=
  waiting.expire queue partitionPoint now = (waiting.pending.filter (queue.stale now),
    waiting.pending.filter fun wait => !queue.stale now wait)

def AnswersLast : Label → Waiting → Prop
  | .resolve ctx _, waiting =>
    ∀ position ∈ waiting.position queue ctx, waiting.pending.length ≤ position + 2
  | _, _ => True

/-- The calls stand in the order in which they were queued. -/
structure Ordered (waiting : Waiting) : Prop where
  sorted : waiting.pending.Pairwise fun earlier later => earlier.queuedAt ≤ later.queuedAt
  queuedAt_le : ∀ wait ∈ waiting.pending, wait.queuedAt ≤ waiting.clock

section

variable {queue : Queue} {partitionPoint : PartitionPoint} {before after : Waiting}

lemma swapRemove_sublist {α : Type} {items : List α} {position}
    (late : items.length ≤ position + 2) : (swapRemove items position).Sublist items := by
  unfold swapRemove
  rcases eq_nil_or_concat' items with rfl | ⟨front, last, rfl⟩
  · exact List.Sublist.refl _
  rcases eq_nil_or_concat' front with rfl | ⟨front, beforeLast, rfl⟩
  · cases position <;> simp
  · simp only [length_append, length_singleton] at late
    rw [List.getLast?_concat]
    dsimp only
    rcases Nat.lt_or_ge position (front.length + 1) with inside | outside
    · obtain rfl : position = front.length := by omega
      simp
    · obtain ⟨beyond, rfl⟩ := Nat.exists_eq_add_of_le outside
      have behind : front.length + 1 + beyond - front.length = beyond + 1 := by omega
      cases beyond <;> simp_all

lemma Ordered.sublist (ordered : Ordered before)
    (kept : after.pending.Sublist before.pending) (clock_le : before.clock ≤ after.clock) :
    Ordered after where
  sorted := ordered.sorted.sublist kept
  queuedAt_le := fun wait listed =>
    Nat.le_trans (ordered.queuedAt_le wait (kept.subset listed)) clock_le

lemma Ordered.step {label} (ordered : Ordered before) (late : AnswersLast queue label before)
    (taken : step queue partitionPoint label before = some after) : Ordered after := by
  unfold Expiry.step at taken
  split at taken
  · cases taken
  rename_i forward
  have clock_le : before.clock ≤ label.now := Nat.le_of_not_lt forward
  cases label with
  | enqueue ctx call now =>
    cases taken
    unfold Waiting.enqueue
    split
    · exact ordered.sublist (.refl _) clock_le
    · have earlier : ∀ wait ∈ before.pending, wait.queuedAt ≤ now := fun wait listed =>
        Nat.le_trans (ordered.queuedAt_le wait listed) clock_le
      refine ⟨pairwise_append.mpr ⟨ordered.sorted, pairwise_singleton _ _, ?_⟩, ?_⟩
      · simpa using earlier
      · simpa [or_imp, forall_and, Label.now] using earlier
  | resolve ctx now =>
    cases taken
    unfold Waiting.resolve
    split
    · exact ordered.sublist (.refl _) clock_le
    · rename_i position found
      exact ordered.sublist (swapRemove_sublist (late position found)) clock_le
  | expire =>
    cases taken
    refine ordered.sublist ?_ clock_le
    simpa [Waiting.expire] using drop_sublist _ before.pending

lemma stale_split (queue : Queue) (now : Nat) {pending : List Pending}
    (sorted : pending.Pairwise fun earlier later => earlier.queuedAt ≤ later.queuedAt) :
    pending = pending.filter (queue.stale now) ++
      pending.filter fun wait => !queue.stale now wait := by
  induction pending with
  | nil => rfl
  | cons wait rest ih =>
    obtain ⟨older, sorted⟩ := pairwise_cons.mp sorted
    by_cases stale : queue.stale now wait = true
    · simp only [filter_cons, stale, if_true, Bool.not_true, Bool.false_eq_true, if_false,
        cons_append]
      rw [← ih sorted]
    · have fresh : ∀ later ∈ rest, ¬queue.stale now later = true := by
        intro later listed
        have := older later listed
        simp only [Queue.stale, decide_eq_true_eq] at stale ⊢
        omega
      rw [filter_eq_nil_iff.mpr (by simpa [stale] using fresh),
        filter_eq_self.mpr (by simpa [stale] using fresh), nil_append]

lemma Ordered.exact (ordered : Ordered before) (searches : partitionPoint.Searches) (now : Nat) :
    before.Exact queue partitionPoint now := by
  have split := stale_split queue now ordered.sorted
  have point := searches (queue.stale now) (before.pending.filter (queue.stale now))
    (before.pending.filter fun wait => !queue.stale now wait)
    (fun wait listed => (mem_filter.mp listed).2)
    (fun wait listed => by simpa using (mem_filter.mp listed).2)
  rw [← split] at point
  have failed := (congrArg (List.take _) split).trans take_left
  have kept := (congrArg (List.drop _) split).trans drop_left
  rw [Waiting.Exact, Waiting.expire, point, splitAt_eq, failed, kept]

end

/-- Where every answer is for one of the two calls queued last, an expiry fails exactly the calls
that have waited for the time to live and leaves the others queued. -/
theorem expires_exactly (queue : Queue) (partitionPoint : PartitionPoint)
    (searches : partitionPoint.Searches) {labels : List Label} {waiting : Waiting}
    (run : Runs (step queue partitionPoint) (AnswersLast queue) .init labels waiting) (now : Nat) :
    waiting.Exact queue partitionPoint now := by
  have ordered : Ordered waiting := run.invariant ⟨.nil, by simp [Waiting.init]⟩
    fun holds late taken => holds.step late taken
  exact ordered.exact searches now

def threeCalls (answered : List UInt8) : List Label :=
  [.enqueue [1] 0 0, .enqueue [2] 1 1, .enqueue [3] 2 10000, .resolve answered 10000]

lemma takeWhile_searches :
    PartitionPoint.Searches fun holds waits => (waits.takeWhile holds).length := by
  intro holds yes no all none
  dsimp only
  rw [takeWhile_append_of_pos all]
  cases no with
  | nil => simp
  | cons wait => simp [none wait]

/-- The second of three calls is answered, and the first expires before the third. -/
theorem expires_exactly_behind_answer : ∃ labels waiting,
    Runs (step .confs fun holds waits => (waits.takeWhile holds).length) (AnswersLast .confs) .init
      labels waiting ∧ waiting.pending = [⟨[1], 0, 0⟩, ⟨[3], 10000, 2⟩] ∧
      waiting.Exact .confs (fun holds waits => (waits.takeWhile holds).length) 10001 := by
  have run : Runs (step .confs fun holds waits => (waits.takeWhile holds).length)
      (AnswersLast .confs) .init (threeCalls [2]) ⟨10000, [⟨[1], 0, 0⟩, ⟨[3], 10000, 2⟩]⟩ := by
    refine .snoc (.snoc (.snoc (.snoc .nil trivial rfl) trivial rfl) trivial rfl) ?_ rfl
    rintro position ⟨⟩
    decide
  exact ⟨_, _, run, rfl, expires_exactly .confs _ takeWhile_searches run _⟩

/-- Some run leads to an expiry that is not exact, whatever the search returns. -/
def Inexact : Prop :=
  ∃ labels waiting now, waiting.clock ≤ now ∧ ∀ partitionPoint,
    Runs (step queue partitionPoint) (fun _ _ => True) .init labels waiting ∧
      ¬waiting.Exact queue partitionPoint now

/-- The first of three calls is answered: the third takes its place in front of the second, and
either the second stays or the third goes too early. -/
lemma inexact : Inexact queue := by
  refine ⟨threeCalls [1], ⟨10000, [⟨[3], 10000, 2⟩, ⟨[2], 1, 1⟩]⟩, 10001, by decide,
    fun partitionPoint => ⟨?_, fun exactly => ?_⟩⟩
  · cases queue <;>
      exact .snoc (.snoc (.snoc (.snoc .nil trivial rfl) trivial rfl) trivial rfl) trivial rfl
  · have kept := congrArg Prod.snd exactly
    rw [Waiting.expire, splitAt_eq] at kept
    generalize partitionPoint (queue.stale 10001) _ = stale at kept
    have young : queue.stale 10001 ⟨[3], 10000, 2⟩ = false := by cases queue <;> rfl
    have old : queue.stale 10001 ⟨[2], 1, 1⟩ = true := by cases queue <;> rfl
    rcases stale with _ | _ | stale <;> simp [young, old] at kept

theorem stale_call_hidden_behind_youngest :
    Inexact .reads ∧ Inexact .proposes ∧ Inexact .confs := ⟨inexact _, inexact _, inexact _⟩

end Catga.Raft.Expiry
