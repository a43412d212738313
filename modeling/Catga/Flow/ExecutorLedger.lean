import Catga.Flow.Executor
import Catga.Foundation.History
import Catga.Foundation.Table
import Catga.Foundation.Threads

/-!
# Flow executors over one store

Any number of executors work over one linearizable store of flow states, beside a history of claims
and results.  Every claim and every result installs the next version, heartbeats keep it.  This
module says what a step can do to the store, and that the store and the history keep fitting
together.
-/

namespace Catga.Flow.Executor

open History List

/-- What the store holds under each flow identity. -/
abbrev Flows := String → Option FlowState

/-- How the store serves one request.  It may lose an update to a physical write of the record, and
it may fail, with or without having done what was asked. -/
structure Service where
  now : Nat
  pick : Option String
  lost : Bool
  /-- The error it answers, and whether the request takes effect all the same. -/
  fault : Option (CatgaError × Bool)

namespace Flows

def put (flows : Flows) (state : FlowState) : Flows := Function.update flows state.id (some state)

variable (flows : Flows) (service : Service)

def serve : Request → Option (Response × Option FlowState)
  | .create state =>
    match flows state.id with
    | none => some (.flag true, some state)
    | some _ => some (.flag false, none)
  | .get id => some (.found (flows id), none)
  | .update expectedVersion next =>
    match flows next.id with
    | none => some (.flag false, none)
    | some current =>
      if service.lost then some (.flag false, none)
      else if current.version = expectedVersion ∧
          FlowState.isNextVersion expectedVersion next.version then
        some (.flag true, some next)
      else some (.flag false, none)
  | .tryClaim flowType owner staleAfter =>
    match service.pick with
    | none => some (.found none, none)
    | some id => do
        let current ← flows id
        if current.flowType = flowType ∧ current.status = .running ∧
            isStale current.heartbeat service.now staleAfter then
          match (current.claimedBy owner service.now).nextVersion with
          | .ok next => some (.found (some next), some next)
          | .error error => some (.failed error, none)
        else none
  | .heartbeat id owner version =>
    match flows id with
    | none => some (.flag false, none)
    | some current =>
      if current.owner = some owner ∧ current.version = version then
        some (.flag true, some (current.heartbeatedAt service.now))
      else some (.flag false, none)

/-- The same, where a request may fail. -/
def answer (request : Request) : Option (Response × Option FlowState) := do
  let (response, written) ← flows.serve service request
  match service.fault with
  | none => some (response, written)
  | some (error, applied) => some (.failed error, if applied then written else none)

end Flows

/-- What calls are judged by. -/
inductive Event where
  | claimed (call : Nat) (id : String) (version : Nat)
  | ended (call : Nat) (id : String) (result : FlowResult)

def Event.id : Event → String
  | .claimed _ id _ => id
  | .ended _ id _ => id

def lastClaim (id : String) (history : List Event) : Option (Nat × Nat) :=
  (history.filterMap fun event => match event with
    | .claimed call own version => if own = id then some (call, version) else none
    | .ended _ _ _ => none).getLast?

/-- What a written state means in the history. -/
def Call.events (call : Call) (index : Nat) : Option FlowState → List Event
  | none => []
  | some state =>
    match call.phase with
    | .creating _ | .claiming _ _ _ | .sweeping => [.claimed index state.id state.version]
    | .persisting _ _ _ result => [.ended index state.id result]
    | _ => []

/-- The store and the calls. -/
structure World where
  flows : Flows
  calls : List Call
  history : List Event

def World.initial : World := { flows := fun _ => none, calls := [], history := [] }

inductive Label where
  | start (executor : FlowExecutor) (now : Nat) (task : Task)
  | proceed (index now : Nat) (progress : Progress)
  | serve (index : Nat) (service : Service)

def World.step : Label → World → Option World
  | .start executor now task, world =>
    some { world with calls := world.calls ++ [Call.enter executor now task] }
  | .proceed index now progress, world => do
      let call ← world.calls[index]?
      let next ← call.proceed now progress
      some { world with calls := world.calls.set index next }
  | .serve index service, world => do
      let call ← world.calls[index]?
      let request ← call.request
      let (response, written) ← world.flows.answer service request
      let next ← call.respond response
      some
        { flows := (written.map world.flows.put).getD world.flows
          calls := world.calls.set index next
          history := world.history ++ call.events index written }

def anySchedule (_ : Label) (_ : World) : Prop := True
deriving Decidable

/-- What one step of a call does to the store and the history. -/
inductive Effect (index : Nat) (flows : Flows) (history : List Event) : Flows → List Event → Prop
  | unchanged : Effect index flows history flows history
  | renewed {id owner current} (now : Nat) :
      flows id = some current → current.owner = some owner →
      Effect index flows history (flows.put (current.heartbeatedAt now)) history
  | created {state} : flows state.id = none → state.status.isTerminal = false →
      Effect index flows history (flows.put state)
        (history ++ [.claimed index state.id state.version])
  | taken {current next} : flows next.id = some current → current.status.isTerminal = false →
      next.status.isTerminal = false → next.version = current.version + 1 →
      Effect index flows history (flows.put next)
        (history ++ [.claimed index next.id next.version])
  | concluded {state current next result} :
      flows next.id = some current → current.version = state.version →
      .claimed index next.id state.version ∈ history → Concludes state next result →
      Effect index flows history (flows.put next) (history ++ [.ended index next.id result])

/-- Each result is stored by the call that claimed the flow last, and is the end of the flow. -/
def Fenced (history : List Event) : Prop :=
  ∀ before index id result after, history = before ++ .ended index id result :: after →
    (∃ version, lastClaim id before = some (index, version)) ∧ ∀ event ∈ after, event.id ≠ id

/-- How the store and the history fit together. -/
structure Ledger (flows : Flows) (history : List Event) : Prop where
  keyed : ∀ {id state}, flows id = some state → state.id = id
  unowned : ∀ {id state}, flows id = some state → state.status.isTerminal = true →
    state.owner = none
  absent : ∀ {id}, flows id = none → ∀ event ∈ history, event.id ≠ id
  unfinished : ∀ {id state}, flows id = some state → state.status.isTerminal = false →
    (∃ index, lastClaim id history = some (index, state.version)) ∧
      ∀ index result, .ended index id result ∉ history
  finished : ∀ {id state index version}, flows id = some state → state.status.isTerminal = true →
    .claimed index id version ∈ history → version < state.version
  bounded : ∀ {id state index version}, flows id = some state →
    .claimed index id version ∈ history → version ≤ state.version
  unique : ∀ {id version first second}, .claimed first id version ∈ history →
    .claimed second id version ∈ history → first = second
  fenced : Fenced history

section

variable {history : List Event} {id : String}

lemma lastClaim_concat_claimed (call : Nat) (own : String) (version : Nat) :
    lastClaim id (history ++ [.claimed call own version]) =
      if own = id then some (call, version) else lastClaim id history := by
  simp only [lastClaim, filterMap_append, filterMap_cons, filterMap_nil]
  split <;> simp_all

lemma lastClaim_append_of_ne {events} (others : ∀ event ∈ events, event.id ≠ id) :
    lastClaim id (history ++ events) = lastClaim id history := by
  rw [lastClaim, filterMap_append, (filterMap_eq_nil_iff (l := events)).mpr, append_nil, lastClaim]
  intro event listed
  cases event with
  | claimed => exact if_neg (others _ listed)
  | ended => rfl

variable {version : Nat}

lemma mem_of_lastClaim {call} (last : lastClaim id history = some (call, version)) :
    .claimed call id version ∈ history := by
  obtain ⟨event, listed, matched⟩ := mem_filterMap.mp (mem_of_getLast? last)
  cases event with
  | claimed own other own_version =>
    simp only at matched
    split at matched <;> cases matched
    rename_i same
    exact same ▸ listed
  | ended => cases matched

lemma Fenced.concat (fenced : Fenced history) {event}
    (unfinished : ∀ call result, .ended call event.id result ∉ history)
    (last : ∀ call id result, event = .ended call id result →
      ∃ version, lastClaim id history = some (call, version)) :
    Fenced (history ++ [event]) := by
  intro before call own result after split
  obtain ⟨rfl, rfl, same⟩ | ⟨rest, rfl, earlier⟩ := concat_eq_append_cons split
  · exact ⟨last call own result same.symm, fun event listed => absurd listed not_mem_nil⟩
  · obtain ⟨claimant, rest_clear⟩ := fenced before call own result rest earlier
    refine ⟨claimant, ?_⟩
    rw [forall_mem_append, forall_mem_singleton]
    refine ⟨rest_clear, ?_⟩
    rintro rfl
    exact unfinished call result (earlier ▸ mem_append_right before mem_cons_self)

end

section

variable {flows : Flows} {history : List Event} {index : Nat}

variable {state next : FlowState} {after : Flows} {later : List Event} {id : String}
  {current : FlowState}

@[simp] lemma Flows.put_self (flows : Flows) (state) :
    flows.put state state.id = some state := Function.update_self ..

lemma Flows.put_of_ne (flows : Flows) (other : id ≠ state.id) : flows.put state id = flows id :=
  Function.update_of_ne other ..

lemma Flows.put_eq_some {held} (found : flows.put state id = some held) :
    (id = state.id ∧ held = state) ∨ (id ≠ state.id ∧ flows id = some held) := by
  obtain ⟨rfl, ⟨⟩⟩ | elsewhere := Foundation.update_eq_some found
  · exact .inl ⟨rfl, rfl⟩
  · exact .inr elsewhere

lemma Flows.put_eq_none (absent : flows.put state id = none) : id ≠ state.id ∧ flows id = none :=
  Foundation.update_some_eq_none absent

/-- A flow only moves to later versions, or keeps version and phase; what has ended stays. -/
def Advances (flows after : Flows) : Prop :=
  ∀ id state, flows id = some state → ∃ next, after id = some next ∧
    (state.status.isTerminal = true → next = state) ∧
    (state.version < next.version ∨ (next.version = state.version ∧ next.status = state.status))

lemma Advances.refl (flows) : Advances flows flows :=
  fun _ state held => ⟨state, held, fun _ => rfl, .inr ⟨rfl, rfl⟩⟩

lemma Advances.put
    (moves : ∀ current, flows next.id = some current →
      (current.status.isTerminal = true → next = current) ∧
      (current.version < next.version ∨
        (next.version = current.version ∧ next.status = current.status))) :
    Advances flows (flows.put next) := by
  intro id state held
  by_cases same : id = next.id
  · subst same
    exact ⟨next, flows.put_self next, moves state held⟩
  · exact ⟨state, (flows.put_of_ne same).trans held, fun _ => rfl, .inr ⟨rfl, rfl⟩⟩

section

variable (ledger : Ledger flows history)
include ledger

lemma Ledger.lastClaim_eq {version} (held : flows id = some state)
    (at_version : state.version = version) (claimed : .claimed index id version ∈ history) :
    state.status.isTerminal = false ∧ lastClaim id history = some (index, version) := by
  subst at_version
  cases ended : state.status.isTerminal with
  | true => exact absurd (ledger.finished held ended claimed) (lt_irrefl _)
  | false =>
    obtain ⟨⟨last, last_claim⟩, -⟩ := ledger.unfinished held ended
    have same := ledger.unique (mem_of_lastClaim last_claim) claimed
    exact ⟨rfl, same ▸ last_claim⟩

lemma Effect.advances (effect : Effect index flows history after later) :
    Advances flows after := by
  cases effect with
  | unchanged => exact .refl flows
  | @renewed id owner current now held owned =>
    refine .put fun other other_held => ?_
    have keyed := ledger.keyed held
    have same : flows id = some other := keyed ▸ other_held
    rw [held] at same
    cases same
    refine ⟨fun ended => ?_, .inr ⟨rfl, rfl⟩⟩
    rw [ledger.unowned held ended] at owned
    cases owned
  | created absent =>
    refine .put fun current held => ?_
    rw [absent] at held
    cases held
  | @taken current next held unfinished running advanced =>
    refine .put fun other other_held => ?_
    rw [held] at other_held
    cases other_held
    refine ⟨fun ended => ?_, .inl (by omega)⟩
    rw [ended] at unfinished
    cases unfinished
  | @concluded state current next result held at_version claimed concludes =>
    refine .put fun other other_held => ?_
    rw [held] at other_held
    cases other_held
    have unfinished := (ledger.lastClaim_eq held at_version claimed).1
    refine ⟨fun ended => ?_, .inl ?_⟩
    · rw [ended] at unfinished
      cases unfinished
    · rw [concludes.version, at_version]
      exact Nat.lt_succ_self _

/-- A flow is written, with events about it: what the ledger says of the other flows is kept. -/
lemma Ledger.put {events} (own : ∀ event ∈ events, event.id = next.id)
    (unowned : next.status.isTerminal = true → next.owner = none)
    (unfinished : next.status.isTerminal = false →
      (∃ index, lastClaim next.id (history ++ events) = some (index, next.version)) ∧
        ∀ index result, .ended index next.id result ∉ history ++ events)
    (bounded : ∀ {index version}, .claimed index next.id version ∈ history ++ events →
      version ≤ next.version ∧ (next.status.isTerminal = true → version < next.version))
    (unique : ∀ {version first second}, .claimed first next.id version ∈ history ++ events →
      .claimed second next.id version ∈ history ++ events → first = second)
    (fenced : Fenced (history ++ events)) : Ledger (flows.put next) (history ++ events) := by
  have apart : ∀ {event}, event.id ≠ next.id → event ∈ history ++ events → event ∈ history :=
    fun other listed => (mem_append.mp listed).resolve_right fun new => other (own _ new)
  exact
    { keyed := fun found => by
        obtain ⟨rfl, rfl⟩ | ⟨-, held⟩ := Flows.put_eq_some found
        · rfl
        · exact ledger.keyed held
      unowned := fun found ended => by
        obtain ⟨rfl, rfl⟩ | ⟨-, held⟩ := Flows.put_eq_some found
        · exact unowned ended
        · exact ledger.unowned held ended
      absent := fun absent event listed => by
        obtain ⟨other, nothing⟩ := Flows.put_eq_none absent
        rcases mem_append.mp listed with earlier | new
        · exact ledger.absent nothing event earlier
        · exact own event new ▸ other.symm
      unfinished := fun found running => by
        obtain ⟨rfl, rfl⟩ | ⟨other, held⟩ := Flows.put_eq_some found
        · exact unfinished running
        · obtain ⟨last, none_ended⟩ := ledger.unfinished held running
          rw [lastClaim_append_of_ne fun event new => own event new ▸ other.symm]
          exact ⟨last, fun call result listed => none_ended call result (apart other listed)⟩
      finished := fun found ended claimed => by
        obtain ⟨rfl, rfl⟩ | ⟨other, held⟩ := Flows.put_eq_some found
        · exact (bounded claimed).2 ended
        · exact ledger.finished held ended (apart other claimed)
      bounded := fun found claimed => by
        obtain ⟨rfl, rfl⟩ | ⟨other, held⟩ := Flows.put_eq_some found
        · exact (bounded claimed).1
        · exact ledger.bounded held (apart other claimed)
      unique := fun {id version first second} one two => by
        by_cases same : id = next.id
        · subst same
          exact unique one two
        · exact ledger.unique (apart same one) (apart same two)
      fenced }

lemma Ledger.renewed (held : flows id = some current) (now : Nat) :
    Ledger (flows.put (current.heartbeatedAt now)) history := by
  obtain rfl : current.id = id := ledger.keyed held
  have unowned := ledger.unowned held
  have unfinished := ledger.unfinished held
  have written : Ledger (flows.put (current.heartbeatedAt now)) (history ++ []) := by
    refine ledger.put nofun unowned ?_ ?_ ?_ ?_ <;> rw [append_nil]
    · exact unfinished
    · intro call version claimed
      have bounded := ledger.bounded held claimed
      have finished := (ledger.finished held · claimed)
      exact ⟨bounded, finished⟩
    · exact ledger.unique
    · exact ledger.fenced
  rwa [append_nil] at written

lemma Ledger.claimed (running : next.status.isTerminal = false)
    (above : ∀ call version, .claimed call next.id version ∈ history → version < next.version)
    (unfinished : ∀ call result, .ended call next.id result ∉ history) :
    Ledger (flows.put next) (history ++ [.claimed index next.id next.version]) := by
  have lasting : next.status.isTerminal ≠ true := by simp [running]
  refine ledger.put (by simp [Event.id]) (absurd · lasting) (fun _ => ⟨⟨index, ?_⟩, ?_⟩) ?_ ?_
    (ledger.fenced.concat unfinished nofun)
  · rw [lastClaim_concat_claimed, if_pos rfl]
  · exact fun call result listed => unfinished call result (by simpa using listed)
  · intro call version claimed
    refine ⟨?_, (absurd · lasting)⟩
    rcases mem_concat claimed with earlier | same
    · exact le_of_lt (above _ _ earlier)
    · cases same
      exact le_rfl
  · intro version one two first second
    rcases mem_concat first with earlier | same
    · rcases mem_concat second with earlier' | same'
      · exact ledger.unique earlier earlier'
      · cases same'
        exact absurd (above _ _ earlier) (lt_irrefl _)
    · cases same
      rcases mem_concat second with earlier' | same'
      · exact absurd (above _ _ earlier') (lt_irrefl _)
      · cases same'
        rfl

lemma Ledger.ended {result} (held : flows next.id = some current)
    (at_version : current.version = state.version)
    (claimed : .claimed index next.id state.version ∈ history)
    (concludes : Concludes state next result) :
    Ledger (flows.put next) (history ++ [.ended index next.id result]) := by
  obtain ⟨unfinished, last⟩ := ledger.lastClaim_eq held at_version claimed
  obtain ⟨-, none_ended⟩ := ledger.unfinished held unfinished
  -- the history of claims is the same
  have earlier : ∀ {call own version}, .claimed call own version ∈
      history ++ [.ended index next.id result] → .claimed call own version ∈ history := by
    intro call own version listed
    refine (mem_concat listed).resolve_right fun same => ?_
    cases same
  refine ledger.put (by simp [Event.id]) (fun _ => concludes.unowned) (fun running => ?_) ?_
    (fun first second => ledger.unique (earlier first) (earlier second))
    (ledger.fenced.concat none_ended fun | _, _, _, rfl => ⟨_, last⟩)
  · rw [concludes.terminal] at running
    cases running
  · intro call version listed
    have bound := ledger.bounded held (earlier listed)
    rw [concludes.version]
    omega

end

lemma Effect.ledger (effect : Effect index flows history after later)
    (ledger : Ledger flows history) : Ledger after later := by
  cases effect with
  | unchanged => exact ledger
  | renewed now held => exact ledger.renewed held now
  | created absent running =>
    have nothing := ledger.absent absent
    refine ledger.claimed running (fun call version listed => ?_) fun call result listed => ?_ <;>
      exact absurd rfl (nothing _ listed)
  | @taken current next held unfinished running advanced =>
    obtain ⟨-, none_ended⟩ := ledger.unfinished held unfinished
    refine ledger.claimed running (fun call version listed => ?_) none_ended
    have bound := ledger.bounded held listed
    omega
  | concluded held at_version claimed concludes =>
    exact ledger.ended held at_version claimed concludes

lemma Effect.extends (effect : Effect index flows history after later) :
    ∀ event ∈ history, event ∈ later := by
  intro event listed
  cases effect with
  | unchanged => exact listed
  | renewed => exact listed
  | created => exact mem_append_left _ listed
  | taken => exact mem_append_left _ listed
  | concluded => exact mem_append_left _ listed

end

end Catga.Flow.Executor
