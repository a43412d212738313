import Catga.Foundation.Threads
import Catga.Raft.Entry

/-!
# Attribution of `propose_and_wait`

Each call draws a context from its node's `read_ctx` counter, registers it with the owner loop,
proposes under it, and is answered with the index of the first committed entry that carries the
context.  Every node handles the committed log on its own and starts its counter afresh on every
restart.
-/

namespace Catga.Raft.Attribution

open Threads Transition List Option

/-- Maximum number of `propose_and_wait` attributions tracked at once. -/
def maxPendingProposes : Nat := 4096

/-- The errors a `propose_and_wait` call can end with. -/
inductive CatgaRaftError where
  | timeout
  | notLeader
  | backpressure
  | transport
deriving DecidableEq

/-- Little-endian bytes of a 64-bit counter value. -/
def toLeBytes (value : UInt64) : List UInt8 :=
  (range 8).map fun byte => (value >>> (8 * byte).toUInt64).toUInt8

/-- One waiting attribution; `call` stands for the reply channel. -/
structure PendingPropose where
  ctx : List UInt8
  call : Nat

/-- How far a `propose_and_wait` call has come. -/
inductive Stage where
  | drawn
  | registered
  | proposed
deriving DecidableEq

/-- A call of `propose`. -/
structure ProposeCall (ι : Type) where
  node : ι
  incarnation : Nat
  ctx : List UInt8
  data : List UInt8
  stage : Stage
  outcome : Option (Except CatgaRaftError Nat)

/-- One node: the parts of its runtime and owner loop that attribution uses. -/
structure Node where
  incarnation : Nat
  readCtx : UInt64
  registrations : List PendingPropose
  pendingProps : List PendingPropose
  handled : Nat

/-- A process right after `CatgaRaftRuntime::new`. -/
def Node.start (incarnation handled : Nat) : Node :=
  { incarnation, readCtx := 1, registrations := [], pendingProps := [], handled }

/-- A committed entry together with the call that proposed it, if one did. -/
structure Committed where
  entry : Entry
  origin : Option Nat

/-- The nodes, the calls made so far and the log they all commit. -/
structure Cluster (ι : Type) where
  nodes : ι → Node
  calls : List (ProposeCall ι)
  /-- The committed log; position `i` holds index `i + 1`. -/
  log : List Committed

open Cluster

@[simp] def Cluster.init (ι : Type) : Cluster ι :=
  { nodes := fun _ => Node.start 0 0, calls := [], log := [] }

def swapRemove {α : Type} (items : List α) (position : Nat) : List α :=
  match items.getLast? with
  | none => []
  | some last => (items.set position last).dropLast

variable (pendingProps : List PendingPropose)

/-- `queue_propose_wait`: past the cap the waiter is refused. -/
def queueProposeWait (wait : PendingPropose) : Option (List PendingPropose) :=
  if pendingProps.length < maxPendingProposes then some (pendingProps ++ [wait]) else none

/-- `resolve_propose_wait`: the remaining waiters and the call that is answered, if any. -/
def resolveProposeWait (ctx : List UInt8) : List PendingPropose × Option Nat :=
  if ctx = [] then (pendingProps, none)
  else
    match pendingProps.findIdx? (fun wait => wait.ctx = ctx) with
    | none => (pendingProps, none)
    | some position =>
      (swapRemove pendingProps position, pendingProps[position]?.map (·.call))

section

variable {ι : Type} [DecidableEq ι]

def Cluster.setNode (cluster : Cluster ι) (node : ι) (value : Node) : Cluster ι :=
  { cluster with nodes := Function.update cluster.nodes node value }

/-- Answer a call; only the first answer counts. -/
def ProposeCall.settle (outcome : Except CatgaRaftError Nat) (call : ProposeCall ι) :
    ProposeCall ι :=
  if call.outcome.isNone then { call with outcome := some outcome } else call

variable (cluster : Cluster ι) (call : Nat)

def Cluster.settle (outcome : Except CatgaRaftError Nat) : Cluster ι :=
  { cluster with calls := cluster.calls.modify call (ProposeCall.settle outcome) }

def Cluster.setStage (stage : Stage) : Cluster ι :=
  { cluster with calls := cluster.calls.modify call fun value => { value with stage } }

variable (node : ι)

/-- The first statement of `propose_attributed`: draw a context. -/
def drawContext (data : List UInt8) (cluster : Cluster ι) : Cluster ι :=
  let current := cluster.nodes node
  { cluster.setNode node { current with readCtx := current.readCtx + 1 } with
    calls := cluster.calls ++
      [{ node, incarnation := current.incarnation, ctx := toLeBytes current.readCtx, data,
         stage := .drawn, outcome := none }] }

/-- `propose_attributed` sends its registration to the owner loop. -/
def registerWait (id : Nat) (cluster : Cluster ι) : Option (Cluster ι) := do
  let call ← cluster.calls[id]?
  let node := cluster.nodes call.node
  if call.stage = .drawn ∧ call.outcome.isNone ∧ call.incarnation = node.incarnation then
    some ((cluster.setStage id .registered).setNode call.node
      { node with registrations := node.registrations ++ [{ ctx := call.ctx, call := id }] })
  else none

/-- `propose_with_context`: the pipeline accepts the proposal or refuses it. -/
def proposeWithContext (id : Nat) (refused : Option CatgaRaftError) (cluster : Cluster ι) :
    Option (Cluster ι) := do
  let call ← cluster.calls[id]?
  if call.stage = .registered ∧ call.outcome.isNone ∧
      call.incarnation = (cluster.nodes call.node).incarnation then
    match refused with
    | none => some (cluster.setStage id .proposed)
    | some error => some (cluster.settle id (.error error))
  else none

def receiveRegistration (cluster : Cluster ι) : Option (Cluster ι) :=
  let current := cluster.nodes node
  match current.registrations with
  | [] => none
  | wait :: rest =>
    match queueProposeWait current.pendingProps wait with
    | some pendingProps =>
      some (cluster.setNode node { current with registrations := rest, pendingProps })
    | none =>
      some ((cluster.setNode node { current with registrations := rest }).settle wait.call
        (.error .timeout))

def Cluster.append (cluster : Cluster ι) (entryType : EntryType) (data context : List UInt8)
    (origin : Option Nat) : Cluster ι :=
  { cluster with log := cluster.log ++
      [{ entry := { entryType, term := 0, index := cluster.log.length + 1, data, context },
         origin }] }

/-- raft-rs commits a proposal of a call; a forwarded proposal keeps its context. -/
def commitCall (id : Nat) (cluster : Cluster ι) : Option (Cluster ι) := do
  let call ← cluster.calls[id]?
  if call.stage = .proposed then
    some (cluster.append .entryNormal call.data call.ctx (some id))
  else none

/-- raft-rs commits something else: a fire-and-forget proposal, whose context is empty, a leader's
empty entry, or a membership change. -/
def commitOther (entryType : EntryType) (data context : List UInt8) (cluster : Cluster ι) :
    Option (Cluster ι) :=
  if entryType = .entryNormal ∧ context ≠ [] then none
  else some (cluster.append entryType data context none)

/-- `apply_committed` on one node handles its next committed entry. -/
def applyCommitted (cluster : Cluster ι) : Option (Cluster ι) := do
  let current := cluster.nodes node
  let committed ← cluster.log[current.handled]?
  let handled := current.handled + 1
  match committed.entry.entryType with
  | .entryNormal =>
    let (pendingProps, answered) :=
      resolveProposeWait current.pendingProps committed.entry.context
    let advanced := cluster.setNode node { current with pendingProps, handled }
    match answered with
    | none => some advanced
    | some call => some (advanced.settle call (.ok committed.entry.index))
  | .entryConfChange | .entryConfChangeV2 =>
    some (cluster.setNode node { current with handled })

/-- `expire_pending_proposes` drains the stale prefix; each waiter in it times out. -/
def expirePendingProposes (stale : Nat) (cluster : Cluster ι) : Cluster ι :=
  let current := cluster.nodes node
  (current.pendingProps.take stale).foldl (fun cluster wait =>
    cluster.settle wait.call (.error .timeout))
    (cluster.setNode node { current with pendingProps := current.pendingProps.drop stale })

/-- `read_index` draws from the same counter. -/
def readIndex (cluster : Cluster ι) : Cluster ι :=
  let current := cluster.nodes node
  cluster.setNode node { current with readCtx := current.readCtx + 1 }

variable (handled : Nat) (cluster : Cluster ι)

/-- A snapshot makes the owner loop skip committed entries. -/
def installSnapshot : Option (Cluster ι) :=
  let current := cluster.nodes node
  if current.handled ≤ handled ∧ handled ≤ cluster.log.length then
    some (cluster.setNode node { current with handled })
  else none

/-- A new process starts on the node and handles the log from some earlier point on. -/
def restart : Option (Cluster ι) :=
  if handled ≤ cluster.log.length then
    some (cluster.setNode node
      (Node.start ((cluster.nodes node).incarnation + 1) handled))
  else none

/-- A step of the cluster. -/
inductive Label (ι : Type) where
  | draw (node : ι) (data : List UInt8)
  | register (call : Nat)
  | propose (call : Nat) (refused : Option CatgaRaftError)
  | giveUp (call : Nat)
  | receive (node : ι)
  | commitCall (call : Nat)
  | commitOther (entryType : EntryType) (data context : List UInt8)
  | handle (node : ι)
  | expire (node : ι) (stale : Nat)
  | readIndex (node : ι)
  | install (node : ι) (handled : Nat)
  | restart (node : ι) (handled : Nat)

def step : Label ι → Cluster ι → Option (Cluster ι)
  | .draw node data, cluster => some (drawContext node data cluster)
  | .register call, cluster => registerWait call cluster
  | .propose call refused, cluster => proposeWithContext call refused cluster
  | .giveUp call, cluster => some (cluster.settle call (.error .timeout))
  | .receive node, cluster => receiveRegistration node cluster
  | .commitCall call, cluster => commitCall call cluster
  | .commitOther entryType data context, cluster => commitOther entryType data context cluster
  | .handle node, cluster => applyCommitted node cluster
  | .expire node stale, cluster => some (expirePendingProposes node stale cluster)
  | .readIndex node, cluster => some (readIndex node cluster)
  | .install node handled, cluster => installSnapshot node handled cluster
  | .restart node handled, cluster => restart node handled cluster

end

section

variable {ι : Type} [DecidableEq ι] (cluster : Cluster ι)

def Cluster.outcomeOf (id : Nat) : Option (Except CatgaRaftError Nat) :=
  cluster.calls[id]?.bind (·.outcome)

def Cluster.contextOf (id : Nat) : Option (List UInt8) := cluster.calls[id]?.map (·.ctx)

/-- A call that returned `Ok index` proposed the entry committed at `index`. -/
def Attributed : Prop :=
  ∀ id index, cluster.outcomeOf id = some (.ok index) →
    ∃ committed, cluster.log[index - 1]? = some committed ∧ committed.entry.index = index ∧
      committed.origin = some id

/-- A call draws a context that no earlier call of the cluster has drawn. -/
def FreshContext : Label ι → Cluster ι → Prop
  | .draw node _, cluster =>
    ∀ call ∈ cluster.calls, call.ctx ≠ toLeBytes (cluster.nodes node).readCtx
  | _, _ => True

instance : ∀ (label : Label ι) (cluster : Cluster ι), Decidable (FreshContext label cluster) := by
  rintro ⟨⟩ cluster <;> dsimp only [FreshContext] <;> infer_instance

end

section

variable {ι : Type} (cluster : Cluster ι)

@[simp] lemma contextOf_settle (call : Nat) (outcome : Except CatgaRaftError Nat) (id : Nat) :
    (cluster.settle call outcome).contextOf id = cluster.contextOf id := by
  simp only [contextOf, settle, getElem?_modify, Option.map_eq_map, Option.map_map]
  congr 1
  funext value
  simp only [Function.comp_apply, ProposeCall.settle]
  split_ifs <;> rfl

variable (call : Nat) (stage : Stage) (id : Nat)

@[simp] lemma contextOf_setStage :
    (cluster.setStage call stage).contextOf id = cluster.contextOf id := by
  simp only [contextOf, setStage, getElem?_modify, Option.map_eq_map,
    Option.map_map]
  congr 1
  funext value
  simp only [Function.comp_apply]
  split_ifs <;> rfl

@[simp] lemma outcomeOf_setStage :
    (cluster.setStage call stage).outcomeOf id = cluster.outcomeOf id := by
  simp only [outcomeOf, setStage, getElem?_modify, Option.map_eq_map,
    Option.bind_map]
  congr 1
  funext value
  simp only [Function.comp_apply]
  split_ifs <;> rfl

lemma outcomeOf_settle {call id outcome answer}
    (answered : (cluster.settle call outcome).outcomeOf id = some answer) :
    cluster.outcomeOf id = some answer ∨ (id = call ∧ answer = outcome) := by
  simp only [outcomeOf, settle, getElem?_modify, Option.map_eq_map,
    Option.bind_map] at answered ⊢
  obtain ⟨value, value_eq, value_outcome⟩ := Option.bind_eq_some_iff.mp answered
  simp only [Function.comp_apply, ProposeCall.settle] at value_outcome
  split_ifs at value_outcome with same open_call
  · exact .inr ⟨same.symm, (Option.some.inj value_outcome).symm⟩
  · exact .inl (by simp [value_eq, value_outcome])
  · exact .inl (by simp [value_eq, value_outcome])

variable [DecidableEq ι]

@[simp] lemma contextOf_setNode (node : ι) (value : Node) (id : Nat) :
    (cluster.setNode node value).contextOf id = cluster.contextOf id := rfl

end

lemma mem_of_mem_swapRemove {α : Type} {items position} {item : α}
    (mem : item ∈ swapRemove items position) : item ∈ items := by
  unfold swapRemove at mem
  split at mem
  · cases mem
  · rename_i last last_eq
    rcases mem_or_eq_of_mem_set (dropLast_subset _ mem) with mem | rfl
    · exact mem
    · exact mem_of_getLast? last_eq

variable {pendingProps : List PendingPropose} {ctx : List UInt8}

lemma mem_of_mem_resolveProposeWait {wait}
    (mem : wait ∈ (resolveProposeWait pendingProps ctx).1) : wait ∈ pendingProps := by
  unfold resolveProposeWait at mem
  split at mem
  · exact mem
  · split at mem
    · exact mem
    · exact mem_of_mem_swapRemove mem

lemma resolveProposeWait_answers {call}
    (answered : (resolveProposeWait pendingProps ctx).2 = some call) :
    ctx ≠ [] ∧ { ctx, call } ∈ pendingProps := by
  unfold resolveProposeWait at answered
  split at answered
  · cases answered
  · rename_i nonempty
    refine ⟨nonempty, ?_⟩
    split at answered
    · cases answered
    · rename_i position found
      obtain ⟨wait, wait_eq, rfl⟩ := map_eq_some_iff.mp answered
      obtain ⟨inside, matches_ctx, -⟩ := findIdx?_eq_some_iff_getElem.mp found
      have wait_get : pendingProps[position] = wait := by
        rw [getElem?_eq_getElem inside] at wait_eq
        exact Option.some.inj wait_eq
      have ctx_eq : wait.ctx = ctx := by simpa [wait_get] using matches_ctx
      rw [← ctx_eq, ← wait_get]
      exact getElem_mem inside

/-- What holds while every call draws a fresh context. -/
structure Invariant {ι : Type} [DecidableEq ι] (cluster : Cluster ι) : Prop where
  distinct : ∀ first second ctx, cluster.contextOf first = some ctx →
    cluster.contextOf second = some ctx → first = second
  registered : ∀ node, ∀ wait ∈ (cluster.nodes node).registrations,
    cluster.contextOf wait.call = some wait.ctx
  pending : ∀ node, ∀ wait ∈ (cluster.nodes node).pendingProps,
    cluster.contextOf wait.call = some wait.ctx
  log_index : ∀ position committed, cluster.log[position]? = some committed →
    committed.entry.index = position + 1
  log_origin : ∀ committed ∈ cluster.log, committed.entry.entryType = .entryNormal →
    committed.entry.context ≠ [] →
      ∃ id, committed.origin = some id ∧ cluster.contextOf id = some committed.entry.context
  attributed : Attributed cluster

namespace Invariant

variable {ι : Type} [DecidableEq ι] {before after : Cluster ι}

lemma init : Invariant (init ι) where
  distinct := by simp [contextOf]
  registered := by simp [Node.start]
  pending := by simp [Node.start]
  log_index := by simp
  log_origin := by simp
  attributed := by simp [Attributed, outcomeOf]

variable (invariant : Invariant before) {node : ι}
include invariant

lemma update (contexts : ∀ id, after.contextOf id = before.contextOf id)
    (log_eq : after.log = before.log)
    (registered : ∀ node, ∀ wait ∈ (after.nodes node).registrations,
      before.contextOf wait.call = some wait.ctx)
    (pending : ∀ node, ∀ wait ∈ (after.nodes node).pendingProps,
      before.contextOf wait.call = some wait.ctx)
    (answers : ∀ id index, after.outcomeOf id = some (.ok index) →
      before.outcomeOf id = some (.ok index) ∨
        ∃ committed, before.log[index - 1]? = some committed ∧ committed.entry.index = index ∧
          committed.origin = some id) : Invariant after where
  distinct := by simpa [contexts] using invariant.distinct
  registered := by simpa [contexts] using registered
  pending := by simpa [contexts] using pending
  log_index := by simpa [log_eq] using invariant.log_index
  log_origin := by simpa [log_eq, contexts] using invariant.log_origin
  attributed := by
    intro id index answered
    rw [log_eq]
    rcases answers id index answered with earlier | found
    · exact invariant.attributed id index earlier
    · exact found

lemma settle_error (call : Nat) (error) :
    Invariant (before.settle call (.error error)) := by
  refine invariant.update (by simp) rfl invariant.registered invariant.pending ?_
  intro id index answered
  rcases outcomeOf_settle before answered with earlier | ⟨-, contradictory⟩
  · exact .inl earlier
  · cases contradictory

lemma setNode (node : ι) (value : Node)
    (registered : ∀ wait ∈ value.registrations, before.contextOf wait.call = some wait.ctx)
    (pending : ∀ wait ∈ value.pendingProps, before.contextOf wait.call = some wait.ctx) :
    Invariant (before.setNode node value) := by
  refine invariant.update (by simp) rfl ?_ ?_ (fun id index answered => .inl answered)
  · intro other wait mem
    rcases eq_or_ne other node with rfl | ne
    · exact registered wait (by simpa [Cluster.setNode] using mem)
    · exact invariant.registered other wait (by simpa [Cluster.setNode, ne] using mem)
  · intro other wait mem
    rcases eq_or_ne other node with rfl | ne
    · exact pending wait (by simpa [Cluster.setNode] using mem)
    · exact invariant.pending other wait (by simpa [Cluster.setNode, ne] using mem)

lemma setStage (call : Nat) (stage) : Invariant (before.setStage call stage) :=
  invariant.update (by simp) rfl invariant.registered invariant.pending
    (fun id index answered => .inl (by simpa using answered))

lemma add (call) (unanswered : call.outcome = none)
    (fresh : ∀ other ∈ before.calls, other.ctx ≠ call.ctx) :
    Invariant { before with calls := before.calls ++ [call] } := by
  have kept : ∀ id ctx, before.contextOf id = some ctx →
      contextOf { before with calls := before.calls ++ [call] } id = some ctx := by
    intro id ctx held
    obtain ⟨other, found, rfl⟩ := map_eq_some_iff.mp held
    obtain ⟨inside, -⟩ := List.getElem?_eq_some_iff.mp found
    simp [contextOf, getElem?_append_left inside, found]
  constructor
  case distinct =>
    intro first second ctx first_eq second_eq
    obtain ⟨one, one_at, rfl⟩ := map_eq_some_iff.mp first_eq
    obtain ⟨two, two_at, same⟩ := map_eq_some_iff.mp second_eq
    obtain ⟨rfl, rfl⟩ | one_old := Machine.getElem?_concat_cases one_at
    · obtain ⟨rfl, -⟩ | two_old := Machine.getElem?_concat_cases two_at
      · rfl
      · exact absurd same (fresh two (mem_of_getElem? two_old))
    · obtain ⟨-, rfl⟩ | two_old := Machine.getElem?_concat_cases two_at
      · exact absurd same.symm (fresh one (mem_of_getElem? one_old))
      · exact invariant.distinct first second one.ctx (by simp [contextOf, one_old])
          (by simp [contextOf, two_old, same])
  case registered =>
    exact fun other wait mem => kept _ _ (invariant.registered other wait mem)
  case pending => exact fun other wait mem => kept _ _ (invariant.pending other wait mem)
  case log_index => exact invariant.log_index
  case log_origin =>
    intro committed mem normal nonempty
    obtain ⟨id, origin_eq, held⟩ := invariant.log_origin committed mem normal nonempty
    exact ⟨id, origin_eq, kept _ _ held⟩
  case attributed =>
    intro id index answered
    obtain ⟨other, found, outcome_eq⟩ := bind_eq_some_iff.mp answered
    obtain ⟨-, rfl⟩ | found := Machine.getElem?_concat_cases found
    · cases unanswered.symm.trans outcome_eq
    · exact invariant.attributed id index (by simp [outcomeOf, found, outcome_eq])

lemma draw (data : List UInt8) (fresh : FreshContext (.draw node data) before) :
    Invariant (drawContext node data before) := by
  have added := invariant.add ⟨node, (before.nodes node).incarnation,
    toLeBytes (before.nodes node).readCtx, data, .drawn, none⟩ rfl fresh
  exact added.setNode node _ (added.registered node) (added.pending node)

lemma append (entryType) (data context : List UInt8) (origin : Option Nat)
    (traced : entryType = .entryNormal → context ≠ [] →
      ∃ id, origin = some id ∧ before.contextOf id = some context) :
    Invariant (before.append entryType data context origin) where
  __ := invariant
  log_index := by
    intro position committed found
    obtain ⟨rfl, rfl⟩ | found := Machine.getElem?_concat_cases found
    · rfl
    · exact invariant.log_index position committed found
  log_origin := by
    intro committed mem
    rcases mem_append.mp mem with mem | mem
    · exact invariant.log_origin committed mem
    · rw [mem_singleton.mp mem]
      exact traced
  attributed := by
    intro id index answered
    obtain ⟨committed, found, index_eq, origin_eq⟩ := invariant.attributed id index answered
    refine ⟨committed, ?_, index_eq, origin_eq⟩
    exact (List.getElem?_append_left (List.getElem?_eq_some_iff.mp found).1).trans found

lemma register {id} (taken : registerWait id before = some after) : Invariant after := by
  obtain ⟨call, call_eq, rest⟩ := bind_eq_some_iff.mp taken
  have context_eq : before.contextOf id = some call.ctx := by simp [contextOf, call_eq]
  dsimp only at rest
  split at rest <;> cases rest
  refine (invariant.setStage id .registered).setNode _ _ ?_ ?_
  · intro wait mem
    rw [contextOf_setStage]
    rcases mem_append.mp mem with mem | mem
    · exact invariant.registered call.node wait mem
    · rw [mem_singleton.mp mem]
      exact context_eq
  · intro wait mem
    rw [contextOf_setStage]
    exact invariant.pending call.node wait mem

lemma propose {id refused}
    (taken : proposeWithContext id refused before = some after) : Invariant after := by
  obtain ⟨call, -, rest⟩ := bind_eq_some_iff.mp taken
  split at rest
  · split at rest <;> cases rest
    · exact invariant.setStage id .proposed
    · exact invariant.settle_error id _
  · cases rest

lemma receive (taken : receiveRegistration node before = some after) : Invariant after := by
  simp only [receiveRegistration] at taken
  split at taken
  · cases taken
  · rename_i wait rest regs_eq
    have rest_known : ∀ other ∈ rest, before.contextOf other.call = some other.ctx :=
      fun other mem => invariant.registered node other (by simp [regs_eq, mem])
    split at taken <;> cases taken
    · rename_i pendingProps queued
      refine invariant.setNode node _ rest_known ?_
      simp only [queueProposeWait] at queued
      split at queued <;> cases queued
      intro other mem
      rcases mem_append.mp mem with mem | mem
      · exact invariant.pending node other mem
      · rw [mem_singleton.mp mem]
        exact invariant.registered node wait (by simp [regs_eq])
    · have dropped := invariant.setNode node { before.nodes node with registrations := rest }
        rest_known (invariant.pending node)
      exact dropped.settle_error wait.call .timeout

/-- The answered call and the entry's origin drew the same context, so they are the same call. -/
lemma handle (taken : applyCommitted node before = some after) : Invariant after := by
  obtain ⟨committed, committed_eq, rest⟩ := bind_eq_some_iff.mp taken
  have index_eq := invariant.log_index _ _ committed_eq
  split at rest
  · rename_i normal
    rcases resolved : resolveProposeWait (before.nodes node).pendingProps
      committed.entry.context with ⟨pendingProps, answered⟩
    have remaining : ∀ wait ∈ pendingProps, before.contextOf wait.call = some wait.ctx :=
      fun wait mem =>
        invariant.pending node wait (mem_of_mem_resolveProposeWait (by rw [resolved]; exact mem))
    have advanced := invariant.setNode node
      { before.nodes node with pendingProps, handled := (before.nodes node).handled + 1 }
      (invariant.registered node) remaining
    simp only [resolved] at rest
    cases answered with
    | none =>
      cases rest
      exact advanced
    | some =>
      cases rest
      refine advanced.update (by simp) rfl advanced.registered advanced.pending ?_
      intro id index settled
      rcases outcomeOf_settle _ settled with earlier | ⟨rfl, ok_eq⟩
      · exact .inl earlier
      · obtain ⟨nonempty, waiting⟩ := resolveProposeWait_answers (congrArg Prod.snd resolved)
        obtain ⟨origin, origin_eq, origin_ctx⟩ :=
          invariant.log_origin committed (mem_of_getElem? committed_eq) normal nonempty
        have same : id = origin :=
          invariant.distinct _ _ _ (invariant.pending node _ waiting) origin_ctx
        have index_of : index = committed.entry.index := by simpa using ok_eq
        refine .inr ⟨committed, ?_, index_of.symm, same ▸ origin_eq⟩
        rw [index_of, index_eq]
        exact committed_eq
  all_goals
    cases rest
    exact invariant.setNode node _ (invariant.registered node) (invariant.pending node)

lemma expire (node : ι) (stale : Nat) : Invariant (expirePendingProposes node stale before) := by
  have settled : ∀ (waits : List PendingPropose) (cluster : Cluster ι), Invariant cluster →
      Invariant (waits.foldl (fun cluster wait =>
        cluster.settle wait.call (.error .timeout)) cluster) := by
    intro waits
    induction waits with
    | nil => exact fun _ holds => holds
    | cons wait waits ih => exact fun cluster holds => ih _ (holds.settle_error wait.call _)
  refine settled _ _ (invariant.setNode node _ (invariant.registered node) ?_)
  exact fun wait mem => invariant.pending node wait (mem_of_mem_drop mem)

lemma step {label} (fresh : FreshContext label before)
    (taken : Attribution.step label before = some after) : Invariant after := by
  cases label with
  | draw node data =>
    cases taken
    exact invariant.draw data fresh
  | register => exact invariant.register taken
  | propose => exact invariant.propose taken
  | giveUp call =>
    cases taken
    exact invariant.settle_error call .timeout
  | receive => exact invariant.receive taken
  | commitCall id =>
    obtain ⟨call, call_eq, rest⟩ := bind_eq_some_iff.mp taken
    split at rest <;> cases rest
    refine invariant.append _ _ _ _ (fun _ _ => ⟨id, rfl, ?_⟩)
    simp [contextOf, call_eq]
  | commitOther entryType data context =>
    simp only [Attribution.step, commitOther] at taken
    split at taken <;> cases taken
    rename_i plain
    refine invariant.append _ _ _ _ ?_
    exact fun normal nonempty => absurd ⟨normal, nonempty⟩ plain
  | handle => exact invariant.handle taken
  | expire node stale =>
    cases taken
    exact invariant.expire node stale
  | readIndex node =>
    cases taken
    exact invariant.setNode node _ (invariant.registered node) (invariant.pending node)
  | install node =>
    simp only [Attribution.step, installSnapshot] at taken
    split at taken <;> cases taken
    exact invariant.setNode node _ (invariant.registered node) (invariant.pending node)
  | restart node =>
    simp only [Attribution.step, restart] at taken
    split at taken <;> cases taken
    exact invariant.setNode node _ (by simp [Node.start]) (by simp [Node.start])

end Invariant

/-- In every run in which each call draws a context of its own, every answer is attributed to the
entry of the call it answers. -/
theorem attributed_of_freshContext {ι : Type} [DecidableEq ι] {labels : List (Label ι)}
    {finish : Cluster ι} (run : Runs step FreshContext (Cluster.init ι) labels finish) :
    Attributed finish := by
  have invariant : Invariant finish :=
    run.invariant Invariant.init fun holds admitted taken => holds.step admitted taken
  exact invariant.attributed

/-- A read on the second node moves its counter, so that both nodes' calls are answered right. -/
theorem attributed_two_nodes :
    ∃ finish, Runs step FreshContext (Cluster.init Bool)
      [.readIndex true, .draw false [10], .draw true [20], .register 0, .register 1,
        .receive false, .receive true, .propose 0 none, .propose 1 none, .commitCall 1,
        .commitCall 0, .handle false, .handle false, .handle true] finish ∧
      (finish.outcomeOf 0 = some (.ok 2) ∧ finish.outcomeOf 1 = some (.ok 1)) ∧
        Attributed finish :=
  Runs.exists_and_of_execWhile (by decide) fun run _ => attributed_of_freshContext run

/-- Both nodes draw context 1; the entry of the second node's call answers the first node's. -/
theorem answered_by_foreign_entry :
    ∃ finish, Runs step (fun _ _ => True) (Cluster.init Bool)
      [.draw false [10], .register 0, .receive false, .propose 0 none, .draw true [20],
        .register 1, .propose 1 none, .commitCall 1, .handle false] finish ∧
      ¬Attributed finish := by
  refine Runs.exists_of_test (fun cluster => cluster.outcomeOf 0 = some (.ok 1) ∧
    cluster.log.map (·.origin) = [some 1]) (by decide) fun _ reached attributed => ?_
  obtain ⟨answered, origin⟩ := reached
  obtain ⟨committed, found, -, origin_eq⟩ := attributed 0 1 answered
  have mem := mem_map_of_mem (f := (·.origin)) (mem_of_getElem? found)
  rw [origin, origin_eq] at mem
  simp at mem

end Catga.Raft.Attribution
