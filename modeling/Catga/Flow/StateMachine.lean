import Catga.Error
import Catga.Foundation.Threads
import Mathlib.Data.List.Induction

/-!
# State machines over a versioned store

An executor reads the snapshot of an instance, lets the machine handle an event on a copy of it, and
writes the copy if the version is still the one it has read.  However the calls on one instance are
interleaved, its snapshot is what the handled events make of it one after the other.  The exit
action of a state also runs when an event is handled without leaving it.
-/

namespace Catga.StateMachine

open Threads Transition List

variable {σ κ ε : Type}

/-- A transition of a state. -/
structure Transition (σ κ ε : Type) where
  isExact : Bool
  /-- Whether it is for the type of an event, or for one of its categories. -/
  selects : ε → Bool
  applies : σ → ε → CatgaResult Bool
  target : Option κ
  execute : σ → ε → CatgaResult σ

structure StateDefinition (σ κ ε : Type) where
  onEnter : Option (σ → CatgaResult σ)
  onExit : Option (σ → CatgaResult σ)
  transitions : List (Transition σ κ ε)

structure InitialStateFactory (σ κ ε : Type) where
  creates : ε → Bool
  initialState : κ
  create : ε → String → CatgaResult σ

/-- `MachineDefinition`, with the accessors of `StateMachineState`. -/
structure MachineDefinition (σ κ ε : Type) where
  initial : κ
  states : κ → Option (StateDefinition σ κ ε)
  initialFactories : List (InitialStateFactory σ κ ε)
  defaultInitialFactory : Option σ
  currentState : σ → κ
  setCurrentState : κ → σ → σ

structure StateMachineResult (κ : Type) where
  previous : κ
  current : κ
  handled : Bool

/-- The first transition of a kind that applies. -/
def select (state : σ) (event : ε) (exactly : Bool) :
    List (Transition σ κ ε) → CatgaResult (Option (Transition σ κ ε))
  | [] => pure none
  | transition :: rest => do
    if transition.isExact = exactly ∧ transition.selects event = true then
      if ← transition.applies state event then
        return some transition
    select state event exactly rest

/-- `StateAction::execute`, where there is an action. -/
def perform (action : Option (σ → CatgaResult σ)) (state : σ) : CatgaResult σ :=
  action.elim (pure state) fun action => action state

namespace MachineDefinition

variable (machine : MachineDefinition σ κ ε)

/-- What `handle_erased` does once it has selected a transition: the state it leaves. -/
def follow (definition : StateDefinition σ κ ε) (transition : Transition σ κ ε) (state : σ)
    (event : ε) : CatgaResult σ := do
  let left ← perform definition.onExit state
  let moved ← transition.execute left event
  match transition.target with
  | none => pure moved
  | some target =>
    let placed := machine.setCurrentState target moved
    perform ((machine.states (machine.currentState placed)).bind (·.onEnter)) placed

/-- `handle_erased`, with the state it leaves. -/
def handleErased (state : σ) (event : ε) : CatgaResult (StateMachineResult κ × σ) := do
  let previous := machine.currentState state
  let some definition := machine.states previous | return (⟨previous, previous, false⟩, state)
  let selected ← match ← select state event true definition.transitions with
    | some transition => pure (some transition)
    | none => select state event false definition.transitions
  let some transition := selected | return (⟨previous, previous, false⟩, state)
  let entered ← machine.follow definition transition state event
  return (⟨previous, machine.currentState entered, true⟩, entered)

def createInitialErased (instanceId : String) (event : ε) : CatgaResult (Option σ) :=
  match machine.initialFactories.find? (·.creates event) with
  | some factory => do
    let state ← factory.create event instanceId
    return some (machine.setCurrentState factory.initialState state)
  | none => pure (machine.defaultInitialFactory.map (machine.setCurrentState machine.initial))

end MachineDefinition

/-- `StateMachineSnapshot` of the instance, without its times. -/
structure StateMachineSnapshot (σ : Type) where
  state : σ
  version : Nat
deriving DecidableEq

/-- The version after the one that was read. -/
def following (seen : Option Nat) : Nat := (seen.map (· + 1)).getD 0

def StateMachineSnapshot.nextVersion (snapshot : StateMachineSnapshot σ) (state : σ) :
    CatgaResult (StateMachineSnapshot σ) :=
  if snapshot.version + 1 < 2 ^ 63 then pure ⟨state, snapshot.version + 1⟩
  else .error ⟨.conflict, "state-machine snapshot version cannot advance beyond i64::MAX"⟩

inductive Request (σ ε : Type) where
  | initializing (state : σ)
  | handle (event : ε)

inductive Reply (κ : Type) where
  | initialized (created : Bool)
  | result (result : StateMachineResult κ)

/-- Where a call stands. -/
inductive Phase (σ κ : Type) where
  | ready
  | writing (next : StateMachineSnapshot σ) (result : StateMachineResult κ)
  | returned (reply : CatgaResult (Reply κ))

structure Call (σ κ ε : Type) where
  request : Request σ ε
  seen : Option Nat
  phase : Phase σ κ

/-- The stored snapshot, and the requests that were written, in order. -/
structure Shared (σ ε : Type) where
  stored : Option (StateMachineSnapshot σ)
  applied : List (Request σ ε)

inductive Choice where
  | go
  | fail (error : CatgaError)

namespace MachineDefinition

variable (machine : MachineDefinition σ κ ε) (instanceId : String)

/-- The state that an event is handled on: a copy of the stored one, or an initial state. -/
def base (event : ε) : Option (StateMachineSnapshot σ) → CatgaResult σ
  | some snapshot => pure snapshot.state
  | none => do
    let some state ← machine.createInitialErased instanceId event
      | throw ⟨.notFound, s!"state-machine instance '{instanceId}' does not exist"⟩
    return state

/-- `handle_erased` of the executor between the read and the write. -/
def plan (event : ε) (stored : Option (StateMachineSnapshot σ)) :
    CatgaResult (Option (StateMachineSnapshot σ) × StateMachineResult κ) := do
  let state ← machine.base instanceId event stored
  let (result, state) ← machine.handleErased state event
  if result.handled then
    let next ← stored.elim (pure ⟨state, 0⟩) (·.nextVersion state)
    return (some next, result)
  return (none, result)

/-- The answer to a write that comes too late. -/
def conflict (seen : Option Nat) : CatgaError :=
  ⟨.conflict, match seen with
    | none => s!"state-machine instance '{instanceId}' was created concurrently"
    | some _ => s!"state-machine instance '{instanceId}' changed while handling its event"⟩

def act : Choice → Call σ κ ε → Shared σ ε → Option (Shared σ ε × Call σ κ ε)
  | .go, call, shared =>
    match call.phase, call.request with
    | .ready, .initializing state =>
      match shared.stored with
      | none => some (⟨some ⟨state, 0⟩, shared.applied ++ [call.request]⟩,
          { call with phase := .returned (.ok (.initialized true)) })
      | some _ => some (shared, { call with phase := .returned (.ok (.initialized false)) })
    | .ready, .handle event =>
      some (shared, { call with
        seen := shared.stored.map (·.version)
        phase := match machine.plan instanceId event shared.stored with
          | .ok (some next, result) => .writing next result
          | .ok (none, result) => .returned (.ok (.result result))
          | .error error => .returned (.error error) })
    | .writing next result, _ =>
      if shared.stored.map (·.version) = call.seen then
        some (⟨some next, shared.applied ++ [call.request]⟩,
          { call with phase := .returned (.ok (.result result)) })
      else some (shared, { call with phase := .returned (.error (conflict instanceId call.seen)) })
    | .returned _, _ => none
  | .fail error, call, shared =>
    match call.phase with
    | .returned _ => none
    | _ => some (shared, { call with phase := .returned (.error error) })

def executors : Machine (Shared σ ε) (Call σ κ ε) Choice Empty (Request σ ε) where
  act := machine.act instanceId
  env := fun event => nomatch event
  enter := fun request _ => ⟨request, none, .ready⟩

def handled (state : σ) (event : ε) : Option σ :=
  (machine.handleErased state event).toOption.bind fun (result, next) =>
    if result.handled then some next else none

def apply (stored : Option (StateMachineSnapshot σ)) : Request σ ε → Option (StateMachineSnapshot σ)
  | .initializing state => stored.elim (some ⟨state, 0⟩) fun _ => none
  | .handle event => do
    let state ← (machine.base instanceId event stored).toOption
    return ⟨← machine.handled state event, following (stored.map (·.version))⟩

def replay (requests : List (Request σ ε)) : Option (Option (StateMachineSnapshot σ)) :=
  requests.foldlM (fun stored request => (machine.apply instanceId stored request).map some) none

variable {machine} {instanceId} {stored : Option (StateMachineSnapshot σ)}
  {next : StateMachineSnapshot σ} {requests : List (Request σ ε)} {request : Request σ ε}

lemma apply_of_plan {event result}
    {written}
    (planned : machine.plan instanceId event stored = .ok (written, result)) :
    result.handled = written.isSome ∧
      ∀ next ∈ written, machine.apply instanceId stored (.handle event) = some next := by
  obtain ⟨state, based, planned⟩ := bind_eq_ok.mp planned
  obtain ⟨⟨reply, state⟩, handling, planned⟩ := bind_eq_ok.mp planned
  dsimp only at planned
  split_ifs at planned with accepted
  · have applied : machine.apply instanceId stored (.handle event) =
        some ⟨state, following (stored.map (·.version))⟩ := by
      simp [apply, handled, based, handling, accepted, Except.toOption]
    cases stored with
    | none =>
      cases planned
      exact ⟨accepted, fun next same => by cases same; exact applied⟩
    | some =>
      simp only [Option.elim_some, StateMachineSnapshot.nextVersion] at planned
      split_ifs at planned <;> cases planned
      exact ⟨accepted, fun next same => by cases same; exact applied⟩
  · cases planned
    exact ⟨Bool.eq_false_iff.mpr accepted, fun next same => by cases same⟩

lemma version_of_apply (applied : machine.apply instanceId stored request = some next) :
    next.version = following (stored.map (·.version)) := by
  cases request with
  | initializing => cases stored <;> cases applied; rfl
  | handle =>
    simp only [apply, Option.bind_eq_bind, Option.bind_eq_some_iff] at applied
    obtain ⟨state, -, after, -, same⟩ := applied
    cases same
    rfl

variable (replayed : machine.replay instanceId requests = some stored)
include replayed

lemma replay_concat (applied : machine.apply instanceId stored request = some next) :
    machine.replay instanceId (requests ++ [request]) = some (some next) := by
  simp only [replay] at replayed ⊢
  rw [foldlM_append, replayed]
  simp [applied]

lemma length_of_replay : requests.length = following (stored.map (·.version)) := by
  induction requests using List.reverseRecOn generalizing stored with
  | nil =>
    cases replayed
    rfl
  | append_singleton requests request ih =>
    simp only [replay] at replayed ih
    rw [foldlM_append] at replayed
    obtain ⟨before, earlier, last⟩ := Option.bind_eq_some_iff.mp replayed
    simp at last
    obtain ⟨next, applied, rfl⟩ := last
    rw [length_append, ih earlier, ← version_of_apply applied]
    rfl

end MachineDefinition

open MachineDefinition

namespace Call

def succeeded (call : Call σ κ ε) : Bool :=
  match call.phase with
  | .returned (.ok (.initialized created)) => created
  | .returned (.ok (.result result)) => result.handled
  | _ => false

/-- A call that has written a request and says so, and the version it has made. -/
def Wrote (place : Nat) (request : Request σ ε) (call : Call σ κ ε) : Prop :=
  call.succeeded = true ∧ following call.seen = place ∧ call.request = request

/-- What holds of a call: the snapshot it is to write follows the one it has read, and what it has
written is at its place. -/
structure Sound (machine : MachineDefinition σ κ ε) (instanceId : String)
    (applied : List (Request σ ε)) (call : Call σ κ ε) : Prop where
  fresh : call.phase = .ready → call.seen = none
  plans : ∀ {next result}, call.phase = .writing next result → result.handled = true ∧
    ∃ earlier stored, earlier <+: applied ∧ machine.replay instanceId earlier = some stored ∧
      stored.map (·.version) = call.seen ∧ machine.apply instanceId stored call.request = some next
  written : call.succeeded = true → applied[following call.seen]? = some call.request

variable {machine : MachineDefinition σ κ ε} {instanceId : String} {call next : Call σ κ ε}
  {shared after : Shared σ ε} {applied : List (Request σ ε)}

lemma Sound.of_returned {reply} (returned : call.phase = .returned reply)
    (failed : call.succeeded = false) : call.Sound machine instanceId applied where
  fresh := fun ready => by cases returned.symm.trans ready
  plans := fun writing => by cases returned.symm.trans writing
  written := fun succeeded => by cases failed.symm.trans succeeded

lemma Sound.grows {applied longer}
    (sound : call.Sound machine instanceId applied) (grows : applied <+: longer) :
    call.Sound machine instanceId longer where
  fresh := sound.fresh
  plans := by
    intro next result writing
    obtain ⟨handled, earlier, stored, shorter, rest⟩ := sound.plans writing
    exact ⟨handled, earlier, stored, shorter.trans grows, rest⟩
  written := by
    intro succeeded
    obtain ⟨more, rfl⟩ := grows
    have found := sound.written succeeded
    rwa [List.getElem?_append_left (List.getElem?_eq_some_iff.mp found).1]

lemma act_handle {event seen}
    (replayed : machine.replay instanceId shared.applied = some shared.stored)
    (acted : machine.act instanceId .go ⟨.handle event, seen, .ready⟩ shared = some (after, next)) :
    next.request = .handle event ∧ after = shared ∧ next.succeeded = false ∧
      next.Sound machine instanceId shared.applied := by
  cases acted
  refine ⟨rfl, rfl, ?_⟩
  cases planned : machine.plan instanceId event shared.stored with
  | error => exact ⟨rfl, .of_returned rfl rfl⟩
  | ok answer =>
    obtain ⟨written, result⟩ := answer
    obtain ⟨handled, applies⟩ := apply_of_plan planned
    cases written with
    | none => exact ⟨handled, .of_returned rfl handled⟩
    | some =>
      refine ⟨rfl, ⟨nofun, ?_, nofun⟩⟩
      intro next result writing
      cases writing
      exact ⟨handled, _, _, prefix_refl _, replayed, rfl, applies _ rfl⟩

/-- What an action of a call does: it leaves the store alone and has not succeeded, or it writes. -/
lemma act_cases {choice} (acted : machine.act instanceId choice call shared = some (after, next))
    (replayed : machine.replay instanceId shared.applied = some shared.stored)
    (sound : call.Sound machine instanceId shared.applied) :
    call.succeeded = false ∧ next.request = call.request ∧
      (after = shared ∧ next.succeeded = false ∧ next.Sound machine instanceId shared.applied ∨
        ∃ snapshot, machine.apply instanceId shared.stored call.request = some snapshot ∧
          after = ⟨some snapshot, shared.applied ++ [call.request]⟩ ∧ next.succeeded = true ∧
          next.seen = shared.stored.map (·.version)) := by
  obtain ⟨request, seen, phase⟩ := call
  cases choice with
  | fail =>
    cases phase <;> cases acted <;> exact ⟨rfl, rfl, .inl ⟨rfl, rfl, .of_returned rfl rfl⟩⟩
  | go =>
    cases phase with
    | returned => cases acted
    | ready =>
      cases request with
      | handle =>
        obtain ⟨request, quiet⟩ := act_handle replayed acted
        exact ⟨rfl, request, .inl quiet⟩
      | initializing =>
        obtain rfl : seen = none := sound.fresh rfl
        obtain ⟨stored, applied⟩ := shared
        cases stored <;> cases acted
        · exact ⟨rfl, rfl, .inr ⟨_, rfl, rfl, rfl, rfl⟩⟩
        · exact ⟨rfl, rfl, .inl ⟨rfl, rfl, .of_returned rfl rfl⟩⟩
    | writing snapshot =>
      simp only [MachineDefinition.act] at acted
      obtain ⟨handled, earlier, stored, shorter, before, version, applies⟩ := sound.plans rfl
      split_ifs at acted with current <;> cases acted
      · -- the version says how many requests there were, so the snapshot is the one that was read
        have length : earlier.length = shared.applied.length := by
          rw [length_of_replay before, version, ← current, ← length_of_replay replayed]
        obtain rfl := shorter.eq_of_length length
        cases before.symm.trans replayed
        exact ⟨rfl, rfl, .inr ⟨_, applies, rfl, handled, current.symm⟩⟩
      · exact ⟨rfl, rfl, .inl ⟨rfl, rfl, .of_returned rfl rfl⟩⟩

end Call

section

open Call

variable {machine : MachineDefinition σ κ ε} {instanceId : String}

/-- The snapshot is that of the requests written, and no two of them have made one version. -/
def outline (machine : MachineDefinition σ κ ε) (instanceId : String) :
    Machine.Outline (Shared σ ε) (Call σ κ ε) where
  shared := fun shared => machine.replay instanceId shared.applied = some shared.stored
  thread := fun shared call => call.Sound machine instanceId shared.applied
  pair := fun one two => one.succeeded = true → two.succeeded = true → one.seen ≠ two.seen

lemma outline_valid : (outline machine instanceId).Valid (machine.executors instanceId)
    fun _ _ => True where
  own := by
    intro system index choice call next shared holds _ here acted
    obtain ⟨-, request, ⟨rfl, -, sound⟩ | ⟨snapshot, applies, rfl, succeeded, seen⟩⟩ :=
      act_cases acted holds.shared (holds.thread here)
    · exact ⟨holds.shared, sound⟩
    · refine ⟨replay_concat holds.shared applies, fun ready => ?_, fun writing => ?_, fun _ => ?_⟩
      · simp [Call.succeeded, ready] at succeeded
      · simp [Call.succeeded, writing] at succeeded
      · rw [seen, ← length_of_replay holds.shared, request]
        exact List.getElem?_concat_length
  other := by
    intro system index rival choice call next bystander shared holds _ here acted _ there
    have sound := holds.thread there
    obtain ⟨-, -, ⟨rfl, failed, -⟩ | ⟨snapshot, -, rfl, -, seen⟩⟩ :=
      act_cases acted holds.shared (holds.thread here)
    · refine ⟨sound, fun succeeded => ?_, fun _ succeeded => ?_⟩ <;>
        cases failed.symm.trans succeeded
    · have differ : bystander.succeeded = true → next.seen ≠ bystander.seen := by
        intro succeeded same
        have inside := (List.getElem?_eq_some_iff.mp (sound.written succeeded)).1
        rw [← same, seen, ← length_of_replay holds.shared] at inside
        exact lt_irrefl _ inside
      exact ⟨sound.grows (prefix_append _ _), fun _ => differ,
        fun succeeded _ => (differ succeeded).symm⟩
  env := fun {_ event} => nomatch event
  enter := by
    intro system request holds _
    refine ⟨⟨fun _ => rfl, nofun, nofun⟩, fun _ => ⟨nofun, fun _ => nofun⟩⟩

/-- Every request that was written is that of a call that says so. -/
def Covered (system : System (Shared σ ε) (Call σ κ ε)) : Prop :=
  ∀ place request, system.shared.applied[place]? = some request →
    ∃ call ∈ system.threads, call.Wrote place request

lemma covered_step {label}
    {system after}
    (holds : (outline machine instanceId).Holds system) (covered : Covered system)
    (taken : (machine.executors instanceId).step label system = some after) : Covered after := by
  cases label with
  | env event => cases event
  | spawn request =>
    cases taken
    exact fun place request found =>
      (covered place request found).imp fun _ wrote => ⟨mem_append_left _ wrote.1, wrote.2⟩
  | act index =>
    obtain ⟨call, shared, next, here, acted, rfl⟩ := Machine.step_act taken
    obtain ⟨unwritten, same, outcome⟩ := act_cases acted holds.shared (holds.thread here)
    have kept : ∀ (place : Nat) (request : Request σ ε),
        system.shared.applied[place]? = some request →
          ∃ other ∈ system.threads.set index next, other.Wrote place request := by
      intro place request found
      obtain ⟨other, member, wrote⟩ := covered place request found
      refine ⟨other, Machine.mem_set_of_ne here member ?_ next, wrote⟩
      rintro rfl
      cases unwritten.symm.trans wrote.1
    obtain ⟨rfl, -⟩ | ⟨snapshot, -, rfl, succeeded, seen⟩ := outcome
    · exact kept
    · intro place request found
      obtain ⟨rfl, rfl⟩ | earlier := Machine.getElem?_concat_cases found
      · refine ⟨next, mem_set (List.getElem?_eq_some_iff.mp here).1 _, succeeded, ?_, same⟩
        rw [seen, ← length_of_replay holds.shared]
      · exact kept place request earlier

/-- The stored snapshot is the result of the requests of exactly the calls that report success, in
the order of the versions they made; no two of these have read one version, or both no instance; and
an action after which its call has not succeeded changes nothing. -/
theorem executors_linearizable (machine : MachineDefinition σ κ ε) (instanceId : String)
    (labels : List (Label Choice Empty (Request σ ε)))
    (system : System (Shared σ ε) (Call σ κ ε))
    (run : Runs (machine.executors instanceId).step (fun _ _ => True) ⟨⟨none, []⟩, []⟩ labels
      system) :
    machine.replay instanceId system.shared.applied = some system.shared.stored ∧
    system.shared.applied.length = following (system.shared.stored.map (·.version)) ∧
    (∀ place request, system.shared.applied[place]? = some request ↔
      ∃ call ∈ system.threads, call.Wrote place request) ∧
    (∀ (first second : Nat) (one two : Call σ κ ε), first ≠ second →
      system.threads[first]? = some one → system.threads[second]? = some two →
      one.succeeded = true → two.succeeded = true → one.seen ≠ two.seen) ∧
    ∀ (index : Nat) (choice : Choice) (after : System (Shared σ ε) (Call σ κ ε))
      (call : Call σ κ ε),
      (machine.executors instanceId).step (.act index choice) system = some after →
      after.threads[index]? = some call → call.succeeded = false →
      after.shared.stored = system.shared.stored := by
  obtain ⟨holds, covered⟩ : (outline machine instanceId).Holds system ∧ Covered system := by
    induction run with
    | nil =>
      exact ⟨⟨rfl, (by cases ·), fun _ => (by cases ·)⟩, fun _ _ => (by cases ·)⟩
    | snoc _ admitted taken ih =>
      exact ⟨outline_valid.step ih.1 admitted taken, covered_step ih.1 ih.2 taken⟩
  refine ⟨holds.shared, length_of_replay holds.shared, fun place request =>
    ⟨covered place request, ?_⟩, fun _ _ _ _ differ here there => holds.pair differ here there, ?_⟩
  · rintro ⟨call, member, succeeded, rfl, rfl⟩
    obtain ⟨index, here⟩ := mem_iff_getElem?.mp member
    exact (holds.thread here).written succeeded
  · intro index choice after call taken here failed
    obtain ⟨before, shared, next, there, acted, rfl⟩ := Machine.step_act taken
    obtain ⟨-, -, ⟨rfl, -⟩ | ⟨_, -, -, succeeded, -⟩⟩ :=
      act_cases acted holds.shared (holds.thread there)
    · rfl
    · obtain ⟨-, rfl⟩ | ⟨differ, -⟩ := Machine.getElem?_set_cases here
      · cases failed.symm.trans succeeded
      · exact absurd rfl differ

/-- Counts its events, the first of which takes it to the second state. -/
def counter : MachineDefinition (Nat × Bool) Bool Unit where
  initial := false
  states := fun _ => some ⟨none, none, [⟨true, fun _ => true, fun _ _ => .ok true, some true,
    fun state _ => .ok (state.1 + 1, state.2)⟩]⟩
  initialFactories := []
  defaultInitialFactory := some (0, false)
  currentState := fun state => state.2
  setCurrentState := fun target state => (state.1, target)

/-- Two calls find no instance and one of them creates it; a third one follows. -/
theorem counter_linearizable :
    ∃ labels system, Runs (counter.executors "c").step (fun _ _ => True) ⟨⟨none, []⟩, []⟩ labels
        system ∧
      (system.shared.stored = some ⟨(2, true), 1⟩ ∧
        system.threads.map (·.succeeded) = [true, false, true]) ∧
      counter.replay "c" system.shared.applied = some system.shared.stored := by
  refine ⟨[.spawn (.handle ()), .spawn (.handle ()), .act 0 .go, .act 1 .go, .act 0 .go, .act 1 .go,
    .spawn (.handle ()), .act 2 .go, .act 2 .go],
    Runs.exists_and_of_execWhile (by decide) fun run _ => ?_⟩
  exact (executors_linearizable counter "c" _ _ run).1

end

/-- An action that has run, with the state it belongs to. -/
inductive Mark (κ : Type) where
  | exit (state : κ)
  | enter (state : κ)
deriving DecidableEq

/-- Note that an action has run. -/
def note (mark : Mark κ) (action : σ → CatgaResult σ) (state : σ × List (Mark κ)) :
    CatgaResult (σ × List (Mark κ)) := do
  let after ← action state.1
  return (after, state.2 ++ [mark])

/-- A transition beside the notes. -/
def Transition.noting (transition : Transition σ κ ε) : Transition (σ × List (Mark κ)) κ ε :=
  { transition with
    applies := fun state => transition.applies state.1
    execute := fun state event => do
      let moved ← transition.execute state.1 event
      return (moved, state.2) }

/-- An event that was handled, the states before and after it, and the actions it has run. -/
structure Handled (σ κ ε : Type) where
  before : σ
  event : ε
  marks : List (Mark κ)
  after : σ
deriving DecidableEq

namespace MachineDefinition

variable (machine : MachineDefinition σ κ ε)

/-- The machine whose actions note that they have run. -/
def noting : MachineDefinition (σ × List (Mark κ)) κ ε where
  initial := machine.initial
  states := fun name => (machine.states name).map fun definition =>
    ⟨definition.onEnter.map (note (.enter name)), definition.onExit.map (note (.exit name)),
      definition.transitions.map .noting⟩
  initialFactories := []
  defaultInitialFactory := none
  currentState := fun state => machine.currentState state.1
  setCurrentState := fun target state => (machine.setCurrentState target state.1, state.2)

/-- The events one after the other, as long as they are handled. -/
def handleAll : List ε → σ → CatgaResult (List (Handled σ κ ε))
  | [], _ => pure []
  | event :: events, state => do
    let (_, after, marks) ← machine.noting.handleErased (state, []) event
    let later ← handleAll events after
    return ⟨state, event, marks, after⟩ :: later

/-- The transition that an event takes: one for its type before one for a category. -/
def chosen (state : σ) (event : ε) : CatgaResult (Option (Transition σ κ ε)) :=
  match machine.states (machine.currentState state) with
  | none => pure none
  | some definition => do
    match ← select state event true definition.transitions with
    | some transition => pure (some transition)
    | none => select state event false definition.transitions

/-- The exit action of a state, if it has one. -/
def exits (name : κ) : List (Mark κ) :=
  if ((machine.states name).bind (·.onExit)).isSome then [.exit name] else []

/-- The entry action of a state, if it has one. -/
def enters (name : κ) : List (Mark κ) :=
  if ((machine.states name).bind (·.onEnter)).isSome then [.enter name] else []

/-- An event runs the exit action of the state before it and the entry action of the state after
it, if it takes a transition with a target, and otherwise none. -/
def Paired (handled : Handled σ κ ε) : Prop :=
  ∀ chosen, machine.chosen handled.before handled.event = .ok chosen →
    handled.marks = match chosen.bind (·.target) with
      | none => []
      | some _ => machine.exits (machine.currentState handled.before) ++
          machine.enters (machine.currentState handled.after)

/-- An event that takes a transition without a target does so in a state without an exit action. -/
def Leaves (handled : Handled σ κ ε) : Prop :=
  ∀ transition, machine.chosen handled.before handled.event = .ok (some transition) →
    transition.target = none → machine.exits (machine.currentState handled.before) = []

/-- The accessor reads what was set, and an entry action does not set it. -/
structure Lawful : Prop where
  reads : ∀ target state, machine.currentState (machine.setCurrentState target state) = target
  keeps : ∀ name definition action, machine.states name = some definition →
    definition.onEnter = some action → ∀ state after, action state = .ok after →
      machine.currentState after = machine.currentState state

variable {machine} {state after : σ} {marks later : List (Mark κ)} {mark : Mark κ} {event : ε}

lemma Lawful.perform_onEnter {name : κ} (lawful : machine.Lawful)
    (ran : perform ((machine.states name).bind (·.onEnter)) state = .ok after) :
    machine.currentState after = machine.currentState state := by
  rcases known : machine.states name with _ | definition
  · rw [known] at ran
    cases ran
    rfl
  · rcases entry : definition.onEnter with _ | action
    · simp only [known, Option.bind_some, entry] at ran
      cases ran
      rfl
    · simp only [known, Option.bind_some, entry] at ran
      exact lawful.keeps name definition action known entry state after ran

lemma perform_note {action : Option (σ → CatgaResult σ)}
    (ran : perform (action.map (note mark)) (state, marks) = .ok (after, later)) :
    perform action state = .ok after ∧
      later = marks ++ if action.isSome then [mark] else [] := by
  cases action with
  | none =>
    cases ran
    exact ⟨rfl, (append_nil _).symm⟩
  | some =>
    obtain ⟨_, acted, same⟩ := bind_eq_ok.mp ran
    cases same
    exact ⟨acted, rfl⟩

lemma select_noting {exactly} (transitions : List (Transition σ κ ε)) :
    select (state, marks) event exactly (transitions.map .noting) =
      (Option.map Transition.noting) <$> select state event exactly transitions := by
  induction transitions with
  | nil => rfl
  | cons first rest ih =>
    simp only [select, map_cons, ih]
    by_cases matching : first.isExact = exactly ∧ first.selects event = true
    · have same : first.noting.isExact = exactly ∧ first.noting.selects event = true := matching
      rw [if_pos matching, if_pos same]
      simp only [Transition.noting]
      cases first.applies state event with
      | error => rfl
      | ok applies => cases applies <;> rfl
    · have same : ¬(first.noting.isExact = exactly ∧ first.noting.selects event = true) := matching
      rw [if_neg matching, if_neg same]

lemma onEnter_noting (name : κ) : (machine.noting.states name).bind (·.onEnter) =
    ((machine.states name).bind (·.onEnter)).map (note (.enter name)) := by
  simp only [noting]
  cases machine.states name <;> rfl

/-- The exit action of the state runs, and the entry action of the target if there is one. -/
lemma follow_noting {name : κ} {definition : StateDefinition σ κ ε}
    {transition : Transition σ κ ε} (lawful : machine.Lawful)
    (known : machine.states (machine.currentState state) = some definition)
    (followed : machine.noting.follow ⟨definition.onEnter.map (note (.enter name)),
      definition.onExit.map (note (.exit (machine.currentState state))),
      definition.transitions.map .noting⟩ transition.noting (state, []) event =
        .ok (after, marks)) :
    marks = machine.exits (machine.currentState state) ++
        transition.target.elim [] machine.enters ∧
      ∀ target ∈ transition.target, machine.currentState after = target := by
  obtain ⟨⟨left, _⟩, exiting, followed⟩ := bind_eq_ok.mp followed
  obtain ⟨moved, executed, followed⟩ := bind_eq_ok.mp followed
  obtain ⟨_, executed, same⟩ := bind_eq_ok.mp executed
  cases same
  obtain ⟨-, rfl⟩ := perform_note exiting
  have left_eq :
      (if definition.onExit.isSome then [Mark.exit (machine.currentState state)] else []) =
      machine.exits (machine.currentState state) := by simp [exits, known]
  cases targeted : transition.target with
  | none =>
    simp only [Transition.noting, targeted] at followed
    cases followed
    simp [left_eq]
  | some target =>
    simp only [Transition.noting, targeted, onEnter_noting] at followed
    obtain ⟨entered, rfl⟩ := perform_note followed
    have arrived : ∀ state marks, machine.noting.currentState
        (machine.noting.setCurrentState target (state, marks)) = target :=
      fun state _ => lawful.reads target state
    rw [arrived]
    refine ⟨by simp [left_eq, enters], fun _ same => ?_⟩
    cases same
    rw [lawful.perform_onEnter entered, lawful.reads]

/-- An event that takes a transition runs the exit action, and the entry action of the target. -/
lemma handleErased_noting {result} (lawful : machine.Lawful)
    (handled : machine.noting.handleErased (state, []) event = .ok (result, (after, marks))) :
    machine.chosen state event = .ok none ∧ marks = [] ∨
      ∃ transition, machine.chosen state event = .ok (some transition) ∧
        marks = machine.exits (machine.currentState state) ++
          transition.target.elim [] machine.enters ∧
        ∀ target ∈ transition.target, machine.currentState after = target := by
  simp only [handleErased] at handled
  cases known : machine.states (machine.currentState state) with
  | none =>
    simp only [noting, known, Option.map_none] at handled
    cases handled
    exact .inl ⟨by simp [chosen, known]; rfl, rfl⟩
  | some definition =>
    have noted : machine.noting.states (machine.noting.currentState (state, [])) = some _ :=
      congrArg (Option.map _) known
    simp only [noted, select_noting] at handled
    simp only [chosen, known]
    rcases exactly : select state event true definition.transitions with error | _ | transition
    · rw [exactly] at handled
      cases handled
    · rcases broadly : select state event false definition.transitions with error | _ | transition
      all_goals
        rw [exactly] at handled
        obtain ⟨_, same, handled⟩ := bind_eq_ok.mp handled
        cases same
        rw [broadly] at handled
      · cases handled
      · cases handled
        exact .inl ⟨rfl, rfl⟩
      · obtain ⟨_, same, handled⟩ := bind_eq_ok.mp handled
        cases same
        obtain ⟨_, followed, same⟩ := bind_eq_ok.mp handled
        cases same
        exact .inr ⟨transition, rfl, follow_noting lawful known followed⟩
    · rw [exactly] at handled
      obtain ⟨_, same, handled⟩ := bind_eq_ok.mp handled
      cases same
      obtain ⟨_, same, handled⟩ := bind_eq_ok.mp handled
      cases same
      obtain ⟨_, followed, same⟩ := bind_eq_ok.mp handled
      cases same
      exact .inr ⟨transition, rfl, follow_noting lawful known followed⟩

lemma paired_iff {result} (lawful : machine.Lawful)
    (handled : machine.noting.handleErased (state, []) event = .ok (result, (after, marks))) :
    machine.Paired ⟨state, event, marks, after⟩ ↔ machine.Leaves ⟨state, event, marks, after⟩ := by
  obtain ⟨chosen, rfl⟩ | ⟨transition, chosen, rfl, arrived⟩ := handleErased_noting lawful handled
  · simp [Paired, Leaves, chosen]
  · cases targeted : transition.target with
    | none => simp [Paired, Leaves, chosen, targeted]
    | some target => simp [Paired, Leaves, chosen, targeted, arrived target targeted]

/-- Every event runs the exit action of the state before it and the entry action of the state after
it, just when none takes a transition without a target in a state with an exit action. -/
theorem actions_in_pairs (machine : MachineDefinition σ κ ε) (lawful : machine.Lawful)
    (events : List ε) (initial : σ) (run : List (Handled σ κ ε))
    (handled : machine.handleAll events initial = .ok run) :
    run.map (·.event) = events ∧
      ((∀ event ∈ run, machine.Paired event) ↔ ∀ event ∈ run, machine.Leaves event) := by
  induction events generalizing initial run with
  | nil =>
    cases handled
    simp
  | cons event events ih =>
    obtain ⟨⟨result, after, marks⟩, first, rest⟩ := bind_eq_ok.mp handled
    obtain ⟨later, tail, same⟩ := bind_eq_ok.mp rest
    cases same
    obtain ⟨listed, pairs⟩ := ih after later tail
    refine ⟨congrArg (event :: ·) listed, ?_⟩
    rw [forall_mem_cons, forall_mem_cons, paired_iff lawful first, pairs]

end MachineDefinition

/-- A lamp with entry actions, and an exit action at its first state. -/
def lamp : MachineDefinition Bool Bool Bool where
  initial := false
  states := fun name => some ⟨some pure, if name then none else some pure,
    [⟨true, id, fun _ _ => pure true, some !name, fun state _ => pure state⟩,
      ⟨true, not, fun _ _ => pure true, none, fun state _ => pure state⟩]⟩
  initialFactories := []
  defaultInitialFactory := some false
  currentState := id
  setCurrentState := fun target _ => target

theorem lamp_in_pairs :
    lamp.handleAll [true, false] false =
      .ok [⟨false, true, [.exit false, .enter true], true⟩, ⟨true, false, [], true⟩] ∧
    ∀ event ∈ [⟨false, true, [.exit false, .enter true], true⟩, ⟨true, false, [], true⟩],
      lamp.Paired event := by
  have lawful : lamp.Lawful := by
    refine ⟨fun _ _ => rfl, ?_⟩
    rintro name _ action ⟨⟩ ⟨⟩ state _ ⟨⟩
    rfl
  refine ⟨rfl, (lamp.actions_in_pairs lawful [true, false] false _ rfl).2.mpr ?_⟩
  rintro event (_ | ⟨_, _ | ⟨_, ⟨⟩⟩⟩) transition chosen stays
  · cases chosen
    cases stays
  · rfl

/-- An event that is handled without leaving the state runs its exit action. -/
theorem exit_without_leaving :
    lamp.handleAll [false] false = .ok [⟨false, false, [.exit false], false⟩] ∧
      ¬lamp.Paired ⟨false, false, [.exit false], false⟩ := by
  refine ⟨rfl, fun paired => ?_⟩
  cases paired _ rfl

end Catga.StateMachine
