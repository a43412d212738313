import Catga.Flow.Executor
import Catga.Foundation.History
import Catga.Foundation.Table
import Catga.Foundation.Threads

/-!
# Takeovers in the in-memory flow store

The in-memory store replaces a flow's record by exchanging pointers.  Heartbeats and sweeps exchange
the very record they have judged.  An executor that takes over the flow it was asked to execute does
not: it judges the heartbeat of a record it has read, and later replaces whatever record has the
same version, although heartbeats keep the version.
-/

namespace Catga.Flow.MemoryFlows

open Transition Executor List Option Call

/-- A record; every write has a new stamp. -/
structure Slot where
  state : FlowState
  stamp : Nat

/-- Where a request stands. -/
inductive Op where
  | idle
  | updating (loaded : Slot)
  /-- `try_claim` looks at the records, with the time it has read. -/
  | sweeping (now : Nat)
  | picked (now : Nat) (loaded : Slot)
  | claiming (now : Nat) (loaded : Slot) (next : FlowState)
  | beating (loaded : Slot)
  | renewing (loaded : Slot) (next : FlowState)

/-- A call of an executor with its current request. -/
structure Agent where
  call : Call
  op : Op

/-- What takeovers are judged by. -/
inductive Event where
  /-- A creation, claim or heartbeat of an owner that read the clock at `read` and was stored. -/
  | beat (id owner : String) (read stored : Nat)
  | takeover (id : String) (previous : Option String) (staleAfter stored : Nat)
deriving DecidableEq

def Event.id : Event → String
  | .beat id _ _ _ => id
  | .takeover id _ _ _ => id

/-- The store, the clock, every call made so far, and what has happened. -/
structure World where
  slots : String → Option Slot
  nextStamp : Nat
  clock : Nat
  agents : List Agent
  history : List Event

open World

namespace World

def initial (clock : Nat) : World :=
  { slots := fun _ => none, nextStamp := 0, clock, agents := [], history := [] }

variable (world : World) (index : Nat) (call : Call)

def goOn (op : Op) : World := { world with agents := world.agents.set index ⟨call, op⟩ }

def reply (response : Response) : Option World :=
  (call.respond response).map fun next => world.goOn index next .idle

section

variable (world : World)

def write (state : FlowState) (events : List Event) : World :=
  { world with
    slots := Function.update world.slots state.id (some ⟨state, world.nextStamp⟩)
    nextStamp := world.nextStamp + 1
    history := world.history ++ events }

def holds (loaded : Slot) : Bool :=
  decide ((world.slots loaded.state.id).map Slot.stamp = some loaded.stamp)

/-- A takeover, with the heartbeat it begins with. -/
def takeover (executor : FlowExecutor) (loaded : Slot) (next : FlowState) : List Event :=
  [.takeover next.id loaded.state.owner executor.staleAfter world.clock,
    .beat next.id executor.owner next.heartbeat world.clock]

def updateEvents (call : Call) (loaded : Slot) (next : FlowState) : List Event :=
  match call.phase with
  | .claiming _ _ _ => world.takeover call.executor loaded next
  | _ => []

end

def create (state : FlowState) : Option World :=
  match state.validate with
  | .error error => world.reply index call (.failed error)
  | .ok () =>
    match world.slots state.id with
    | none =>
      (world.write state [.beat state.id call.executor.owner state.heartbeat world.clock]).reply
        index call (.flag true)
    | some _ => world.reply index call (.flag false)

def get (id : String) : Option World :=
  match world.slots id with
  | none => world.reply index call (.found none)
  | some slot =>
    match slot.state.validate with
    | .error error => world.reply index call (.failed error)
    | .ok () => world.reply index call (.found (some slot.state))

/-- The checks of `update` and the load of its loop. -/
def beginUpdate (expectedVersion : Nat) (next : FlowState) : Option World :=
  match next.validate with
  | .error error => world.reply index call (.failed error)
  | .ok () =>
    if FlowState.isNextVersion expectedVersion next.version then
      match world.slots next.id with
      | none => world.reply index call (.flag false)
      | some loaded =>
        if loaded.state.version = expectedVersion then
          some (world.goOn index call (.updating loaded))
        else world.reply index call (.flag false)
    else world.reply index call (.flag false)

def finishUpdate (next : FlowState) (loaded : Slot) : Option World :=
  if world.holds loaded then
    (world.write next (world.updateEvents call loaded next)).reply index call (.flag true)
  else some (world.goOn index call .idle)

/-- The next record of `try_claim`, or its end. -/
def visit (flowType : String) (staleAfter now : Nat) : Option String → Option World
  | none => world.reply index call (.found none)
  | some id => do
      let loaded ← world.slots id
      match loaded.state.validate with
      | .error error => world.reply index call (.failed error)
      | .ok () =>
        if loaded.state.flowType = flowType ∧ loaded.state.status = .running ∧
            isStale loaded.state.heartbeat now staleAfter then
          some (world.goOn index call (.picked now loaded))
        else some world

def stampClaim (owner : String) (now : Nat) (loaded : Slot) : Option World :=
  match (loaded.state.claimedBy owner world.clock).nextVersion with
  | .error error => world.reply index call (.failed error)
  | .ok next => some (world.goOn index call (.claiming now loaded next))

def finishClaim (now : Nat) (loaded : Slot) (next : FlowState) : Option World :=
  if world.holds loaded then
    (world.write next (world.takeover call.executor loaded next)).reply index call
      (.found (some next))
  else some (world.goOn index call (.sweeping now))

/-- The load of `heartbeat` and its check. -/
def beginBeat (id owner : String) (version : Nat) : Option World :=
  match world.slots id with
  | none => world.reply index call (.flag false)
  | some loaded =>
    if loaded.state.owner = some owner ∧ loaded.state.version = version then
      some (world.goOn index call (.beating loaded))
    else world.reply index call (.flag false)

def finishBeat (loaded : Slot) (next : FlowState) : Option World :=
  if world.holds loaded then
    (world.write next [.beat next.id call.executor.owner next.heartbeat world.clock]).reply index
      call (.flag true)
  else some (world.goOn index call .idle)

/-- One atomic action of a request. -/
def serve (pick : Option String) : Request → Op → Option World
  | .create state, .idle => world.create index call state
  | .get id, .idle => world.get index call id
  | .update expectedVersion next, .idle => world.beginUpdate index call expectedVersion next
  | .update _ next, .updating loaded => world.finishUpdate index call next loaded
  | .tryClaim _ _ _, .idle => some (world.goOn index call (.sweeping world.clock))
  | .tryClaim flowType _ staleAfter, .sweeping now =>
    world.visit index call flowType staleAfter now pick
  | .tryClaim _ owner _, .picked now loaded => world.stampClaim index call owner now loaded
  | .tryClaim _ _ _, .claiming now loaded next => world.finishClaim index call now loaded next
  | .heartbeat id owner version, .idle => world.beginBeat index call id owner version
  | .heartbeat _ _ _, .beating loaded =>
    some (world.goOn index call (.renewing loaded (loaded.state.heartbeatedAt world.clock)))
  | .heartbeat _ _ _, .renewing loaded next => world.finishBeat index call loaded next
  | _, _ => none

end World

inductive Label where
  | tick (amount : Nat)
  | start (executor : FlowExecutor) (task : Task)
  | proceed (index : Nat) (progress : Progress)
  /-- The request of a call takes its next action; a sweep looks at `pick`. -/
  | serve (index : Nat) (pick : Option String)

def World.step : Label → World → Option World
  | .tick amount, world => some { world with clock := world.clock + amount }
  | .start executor task, world =>
    some { world with
      agents := world.agents ++ [⟨enter executor world.clock task, .idle⟩] }
  | .proceed index progress, world => do
      let agent ← world.agents[index]?
      let next ← agent.call.proceed world.clock progress
      some (world.goOn index next .idle)
  | .serve index pick, world => do
      let agent ← world.agents[index]?
      let request ← agent.call.request
      world.serve index agent.call pick request agent.op

abbrev Timing := Nat → Nat → Nat

/-- No takeover finds a beat of the previous owner in the interval of its executor's patience, with
the times of beats told by `timing`. -/
def OnlyStale (timing : Timing) (history : List Event) : Prop :=
  ∀ before id previous staleAfter time after,
    history = before ++ .takeover id previous staleAfter time :: after →
    ∀ owner read stored, .beat id owner read stored ∈ before → previous = some owner →
      ¬(time < timing read stored + staleAfter ∧ timing read stored ≤ time)

/-- Where an executor takes over the flow it was asked to execute, the record it replaces is the one
it has read. -/
def calm : Label → World → Bool
  | .serve index _, world =>
    match world.agents[index]? with
    | some ⟨⟨_, _, .claiming _ current _⟩, .updating loaded⟩ => decide (loaded.state = current)
    | _ => true
  | _, _ => true

def whenRead : Timing := fun read _ => read

def whenStored : Timing := fun _ stored => stored

/-- Where a creation, a claim or a heartbeat is stored, its time is not after the heartbeat it
records. -/
def punctual (timing : Timing) : Label → World → Bool
  | .serve index _, world =>
    match world.agents[index]? with
    | some ⟨⟨_, _, .creating state⟩, .idle⟩
    | some ⟨⟨_, _, .claiming _ _ state⟩, .updating _⟩
    | some ⟨_, .claiming _ _ state⟩
    | some ⟨_, .renewing _ state⟩ => decide (timing state.heartbeat world.clock ≤ state.heartbeat)
    | _ => true
  | _, _ => true

lemma punctual_whenRead (label world) : punctual whenRead label world = true := by
  cases label with
  | serve =>
    simp only [punctual]
    split
    all_goals simp [whenRead]
  | _ => rfl

/-- What holds of a call at some time: a record it wants to take over was unfinished and, once it is
judged, stale. -/
def Timely (clock : Nat) (call : Call) : Prop :=
  match call.phase with
  | .creating state => state.status.isTerminal = false ∧ state.heartbeat ≤ clock
  | .deciding _ current => current.status.isTerminal = false
  | .stamping _ current =>
    current.status.isTerminal = false ∧ current.heartbeat + call.executor.staleAfter ≤ clock
  | .claiming _ current claimed =>
    current.status.isTerminal = false ∧ current.heartbeat + call.executor.staleAfter ≤ clock ∧
      claimed.status.isTerminal = false ∧ current.heartbeat ≤ claimed.heartbeat ∧
      claimed.heartbeat ≤ clock ∧ claimed.id = current.id
  | .persisting _ _ next _ => next.status.isTerminal = true ∧ next.owner = none
  | _ => True

variable {response : Response}

section

variable {clock later : Nat} {call next : Call}

lemma Timely.mono (timely : Timely clock call) (le : clock ≤ later) : Timely later call := by
  obtain ⟨executor, purpose, phase⟩ := call
  cases phase with
  | creating | stamping => exact ⟨timely.1, le_trans timely.2 le⟩
  | deciding => exact timely
  | claiming =>
    obtain ⟨unfinished, stale, running, fresh, read, same_id⟩ := timely
    exact ⟨unfinished, le_trans stale le, running, fresh, le_trans read le, same_id⟩
  | persisting => exact timely
  | _ => trivial

lemma timely_persist (state current : FlowState) (result) :
    Timely clock (call.persist state current result) := by
  simp only [persist]
  cases concluded : terminalState current result with
  | error => trivial
  | ok =>
    have concludes := terminalState_eq_ok concluded
    exact ⟨concludes.terminal, concludes.unowned⟩

lemma timely_sweep (flowType : String) (maxClaims recovered : Nat) :
    Timely clock (call.sweep flowType maxClaims recovered) := by
  simp only [sweep]
  split <;> trivial

lemma timely_conclude (outcome : CatgaResult FlowResult) :
    Timely clock (call.conclude outcome) := by
  simp only [conclude]
  split
  · trivial
  · exact timely_sweep ..
  · trivial

lemma timely_load (initial : FlowState) (state) :
    Timely clock (call.load initial state) := by
  cases state with
  | none => trivial
  | some current =>
    simp only [load]
    split
    · trivial
    · split
      · trivial
      · cases settled : settledResult current with
        | some => trivial
        | none => exact settledResult_eq_none settled

lemma timely_observe (state result) (observed : Option FlowState) :
    Timely clock (call.observe state result observed) := by
  cases observed with
  | none => trivial
  | some =>
    simp only [observe]
    split
    · trivial
    · split
      · split
        · exact timely_conclude ..
        · trivial
      · split
        · exact timely_persist ..
        · trivial

lemma timely_respond (responded : call.respond response = some next) : Timely clock next := by
  obtain ⟨executor, purpose, phase⟩ := call
  cases response with
  | failed =>
    cases phase with
    | returned => cases responded
    | _ =>
      cases responded
      trivial
  | flag value =>
    cases phase with
    | creating | claiming | beating =>
      cases responded
      cases value <;> trivial
    | persisting =>
      cases responded
      cases value with
      | false => trivial
      | true => exact timely_conclude ..
    | probing =>
      cases responded
      trivial
    | _ => cases responded
  | found state =>
    cases phase with
    | loading =>
      cases responded
      exact timely_load ..
    | reloading =>
      cases responded
      cases state with
      | none => trivial
      | some =>
        simp only [reload]
        split
        · trivial
        · split <;> trivial
    | observing =>
      cases responded
      exact timely_observe ..
    | sweeping =>
      cases responded
      cases state with
      | none => cases purpose <;> trivial
      | some =>
        simp only [claimed]
        split <;> trivial
    | _ => cases responded

lemma Timely.proceed {progress} (timely : Timely clock call)
    (moved : call.proceed clock progress = some next) : Timely clock next := by
  obtain ⟨executor, purpose, phase⟩ := call
  cases phase with
  | deciding initial current =>
    cases progress with
    | proceed =>
      cases moved
      split_ifs with stale
      · exact ⟨timely, isStale_iff.mp stale⟩
      · trivial
    | _ => cases moved
  | stamping initial current =>
    cases progress with
    | proceed =>
      cases moved
      obtain ⟨unfinished, stale⟩ := timely
      cases stamped : (current.claimedBy executor.owner clock).nextVersion with
      | error => trivial
      | ok =>
        obtain ⟨-, rfl⟩ := FlowState.nextVersion_eq_ok.mp stamped
        exact ⟨unfinished, stale, unfinished, le_trans (Nat.le_add_right _ _) stale, le_rfl, rfl⟩
    | _ => cases moved
  | working =>
    cases progress with
    | proceed => cases moved
    | finish =>
      cases moved
      exact timely_persist ..
    | beat =>
      simp only [proceed] at moved
      split at moved <;> cases moved
      trivial
    | cancel =>
      simp only [proceed] at moved
      split at moved <;> cases moved
      trivial
  | _ => cases moved

lemma timely_enter (executor task) :
    Timely clock (enter executor clock task) := by
  cases task with
  | execute =>
    simp only [enter]
    split
    · exact ⟨rfl, le_rfl⟩
    · trivial
  | recoverStale => exact timely_sweep ..
  | heartbeat => trivial

end

variable {timing : Timing} {id : String}

/-- How the store and the history fit together. -/
structure Ledger (timing : Timing) (world : World) : Prop where
  keyed : ∀ {id slot}, world.slots id = some slot → slot.state.id = id
  issued : ∀ {id slot}, world.slots id = some slot → slot.stamp < world.nextStamp
  unowned : ∀ {id slot}, world.slots id = some slot → slot.state.status.isTerminal = true →
    slot.state.owner = none
  absent : ∀ {id}, world.slots id = none → ∀ event ∈ world.history, event.id ≠ id
  latest : ∀ {id slot}, world.slots id = some slot → slot.state.status.isTerminal = false →
    slot.state.heartbeat ≤ world.clock ∧
      ∀ {owner read stored}, .beat id owner read stored ∈ world.history →
        timing read stored ≤ slot.state.heartbeat
  respected : OnlyStale timing world.history

/-- What a request may write, and what that means in the history. -/
inductive Writes (timing : Timing) (world : World) : FlowState → List Event → Prop
  | created {state} (owner : String) : world.slots state.id = none →
      state.status.isTerminal = false → state.heartbeat ≤ world.clock →
      timing state.heartbeat world.clock ≤ state.heartbeat →
      Writes timing world state [.beat state.id owner state.heartbeat world.clock]
  | taken {loaded next} (executor : FlowExecutor) :
      world.slots next.id = some loaded → loaded.state.status.isTerminal = false →
      loaded.state.heartbeat + executor.staleAfter ≤ world.clock →
      next.status.isTerminal = false → loaded.state.heartbeat ≤ next.heartbeat →
      next.heartbeat ≤ world.clock → timing next.heartbeat world.clock ≤ next.heartbeat →
      Writes timing world next (world.takeover executor loaded next)
  | renewed {loaded read} (owner : String) :
      world.slots loaded.state.id = some loaded → loaded.state.owner ≠ none →
      loaded.state.heartbeat ≤ read → read ≤ world.clock → timing read world.clock ≤ read →
      Writes timing world (loaded.state.heartbeatedAt read)
        [.beat loaded.state.id owner read world.clock]
  | concluded {next} : next.status.isTerminal = true → next.owner = none →
      Writes timing world next []

section

variable {world : World} {next : FlowState} {events : List Event} {history : List Event}

lemma OnlyStale.concat {event} (onlyStale : OnlyStale timing history)
    (respects : ∀ id previous staleAfter time, event = .takeover id previous staleAfter time →
      ∀ owner read stored, .beat id owner read stored ∈ history → previous = some owner →
        ¬(time < timing read stored + staleAfter ∧ timing read stored ≤ time)) :
    OnlyStale timing (history ++ [event]) := by
  intro before id previous staleAfter time after split
  obtain ⟨-, rfl, same⟩ | ⟨rest, -, earlier⟩ := History.concat_eq_append_cons split
  · exact respects id previous staleAfter time same.symm
  · exact onlyStale before id previous staleAfter time rest earlier

lemma OnlyStale.concat_beat (onlyStale : OnlyStale timing history) (id owner : String)
    (read stored : Nat) : OnlyStale timing (history ++ [.beat id owner read stored]) :=
  onlyStale.concat fun _ _ _ _ impossible => by cases impossible

lemma World.write_eq_some {slot} (found : (world.write next events).slots id = some slot) :
    (id = next.id ∧ slot = ⟨next, world.nextStamp⟩) ∨
      (id ≠ next.id ∧ world.slots id = some slot) := by
  obtain ⟨rfl, ⟨⟩⟩ | elsewhere := Foundation.update_eq_some found
  · exact .inl ⟨rfl, rfl⟩
  · exact .inr elsewhere

structure Writes.Fits (timing : Timing) (world : World) (next : FlowState) (events : List Event) :
    Prop where
  own : ∀ event ∈ events, event.id = next.id
  unowned : next.status.isTerminal = true → next.owner = none
  latest : next.status.isTerminal = false → next.heartbeat ≤ world.clock ∧
    ∀ {owner read stored}, .beat next.id owner read stored ∈ world.history ++ events →
      timing read stored ≤ next.heartbeat
  respected : OnlyStale timing (world.history ++ events)

lemma Writes.fits (writes : Writes timing world next events) (ledger : Ledger timing world) :
    Writes.Fits timing world next events := by
  cases writes with
  | created owner absent running read on_time =>
    have nothing := ledger.absent absent
    refine ⟨by simp [Event.id], fun ended => ?_, fun _ => ⟨read, fun listed => ?_⟩,
      ledger.respected.concat_beat _ _ _ _⟩
    · rw [running] at ended
      cases ended
    · rcases mem_append.mp listed with earlier | same
      · exact absurd rfl (nothing _ earlier)
      · cases mem_singleton.mp same
        exact on_time
  | @taken loaded _ executor held unfinished stale running later read on_time =>
    obtain ⟨-, beats⟩ := ledger.latest held unfinished
    refine ⟨by simp [takeover, Event.id], fun ended => ?_, fun _ => ⟨read, fun listed => ?_⟩, ?_⟩
    · rw [running] at ended
      cases ended
    · rcases mem_append.mp listed with earlier | same
      · exact le_trans (beats earlier) later
      · simp only [takeover, mem_cons, reduceCtorEq, not_mem_nil, or_false,
          false_or] at same
        cases same
        exact on_time
    · have claimed : OnlyStale timing (world.history ++
          [.takeover next.id loaded.state.owner executor.staleAfter world.clock]) := by
        refine ledger.respected.concat ?_
        rintro id previous staleAfter time ⟨⟩ owner reading stored listed -
        have bound := beats listed
        omega
      have appended := claimed.concat_beat next.id executor.owner next.heartbeat world.clock
      rwa [append_assoc] at appended
  | @renewed loaded read owner held owned later bound on_time =>
    refine ⟨by simp [Event.id, FlowState.heartbeatedAt], fun ended => ?_,
      fun running => ⟨bound, fun listed => ?_⟩, ledger.respected.concat_beat _ _ _ _⟩
    · exact absurd (ledger.unowned held ended) owned
    · obtain ⟨-, beats⟩ := ledger.latest held running
      rcases mem_append.mp listed with earlier | same
      · exact le_trans (beats earlier) later
      · cases mem_singleton.mp same
        exact on_time
  | concluded ended unowned =>
    refine ⟨by simp, fun _ => unowned, fun running => ?_, ?_⟩
    · rw [ended] at running
      cases running
    · rw [append_nil]
      exact ledger.respected

lemma Ledger.write (ledger : Ledger timing world) (writes : Writes timing world next events) :
    Ledger timing (world.write next events) := by
  have fits := writes.fits ledger
  exact
    { keyed := fun found => by
        obtain ⟨rfl, rfl⟩ | ⟨-, held⟩ := write_eq_some found
        · rfl
        · exact ledger.keyed held
      issued := fun found => by
        obtain ⟨rfl, rfl⟩ | ⟨-, held⟩ := write_eq_some found
        · exact Nat.lt_succ_self _
        · exact Nat.lt_succ_of_lt (ledger.issued held)
      unowned := fun found ended => by
        obtain ⟨rfl, rfl⟩ | ⟨-, held⟩ := write_eq_some found
        · exact fits.unowned ended
        · exact ledger.unowned held ended
      absent := fun absent event listed => by
        obtain ⟨other, nothing⟩ := Foundation.update_some_eq_none absent
        rcases mem_append.mp listed with earlier | new
        · exact ledger.absent nothing event earlier
        · rw [fits.own event new]
          exact other.symm
      latest := fun found running => by
        obtain ⟨rfl, rfl⟩ | ⟨other, held⟩ := write_eq_some found
        · exact fits.latest running
        · obtain ⟨read, beats⟩ := ledger.latest held running
          refine ⟨read, fun listed => ?_⟩
          rcases mem_append.mp listed with earlier | new
          · exact beats earlier
          · exact absurd (fits.own _ new) other
      respected := fits.respected }

end

/-- A record that was loaded: where its pointer is still in place, the record is. -/
structure Loaded (world : World) (loaded : Slot) : Prop where
  issued : loaded.stamp < world.nextStamp
  same : ∀ slot, world.slots loaded.state.id = some slot → slot.stamp = loaded.stamp → slot = loaded

def Op.Sound (world : World) (executor : FlowExecutor) : Op → Prop
  | .idle => True
  | .updating loaded => Loaded world loaded
  | .sweeping now => now ≤ world.clock
  | .picked now loaded =>
    Loaded world loaded ∧ now ≤ world.clock ∧ loaded.state.status.isTerminal = false ∧
      loaded.state.heartbeat + executor.staleAfter ≤ world.clock
  | .claiming now loaded next =>
    Loaded world loaded ∧ now ≤ world.clock ∧ loaded.state.status.isTerminal = false ∧
      loaded.state.heartbeat + executor.staleAfter ≤ world.clock ∧ next.id = loaded.state.id ∧
      next.status.isTerminal = false ∧ loaded.state.heartbeat ≤ next.heartbeat ∧
      next.heartbeat ≤ world.clock
  | .beating loaded =>
    Loaded world loaded ∧ loaded.state.owner ≠ none ∧ loaded.state.heartbeat ≤ world.clock
  | .renewing loaded next =>
    Loaded world loaded ∧ loaded.state.owner ≠ none ∧
      ∃ read, next = loaded.state.heartbeatedAt read ∧ loaded.state.heartbeat ≤ read ∧
        read ≤ world.clock

def Agent.Sound (world : World) (agent : Agent) : Prop :=
  Timely world.clock agent.call ∧ agent.op.Sound world agent.call.executor

/-- What holds of every state. -/
structure World.Sound (timing : Timing) (world : World) : Prop where
  ledger : Ledger timing world
  agents : ∀ {index : Nat} {agent : Agent}, world.agents[index]? = some agent → agent.Sound world

section

variable {world after : World} {index : Nat} {call : Call}

lemma Ledger.loaded (ledger : Ledger timing world) {slot}
    (held : world.slots id = some slot) : Loaded world slot where
  issued := ledger.issued held
  same := fun other other_held _ => by
    rw [ledger.keyed held, held] at other_held
    exact (Option.some.inj other_held).symm

variable {loaded : Slot} {next : FlowState} {executor : FlowExecutor} {expectedVersion : Nat}

lemma Loaded.write (genuine : Loaded world loaded) (next : FlowState) (events : List Event) :
    Loaded (world.write next events) loaded where
  issued := Nat.lt_succ_of_lt genuine.issued
  same := fun slot found stamp => by
    obtain ⟨-, rfl⟩ | ⟨-, held⟩ := write_eq_some found
    · exact absurd (stamp ▸ genuine.issued) (lt_irrefl _)
    · exact genuine.same slot held stamp

lemma Loaded.held (genuine : Loaded world loaded) (in_place : world.holds loaded = true) :
    world.slots loaded.state.id = some loaded := by
  simp only [holds, decide_eq_true_eq] at in_place
  obtain ⟨slot, held, stamp⟩ := map_eq_some_iff.mp in_place
  rw [held, genuine.same slot held stamp]

/-- The store is the same, and no time is lost. -/
structure Rests (world after : World) : Prop where
  slots : after.slots = world.slots
  nextStamp : after.nextStamp = world.nextStamp
  history : after.history = world.history
  clock : world.clock ≤ after.clock

lemma Ledger.rests (ledger : Ledger timing world) (rests : Rests world after) :
    Ledger timing after where
  keyed := fun held => ledger.keyed (rests.slots ▸ held)
  issued := fun held => rests.nextStamp ▸ ledger.issued (rests.slots ▸ held)
  unowned := fun held => ledger.unowned (rests.slots ▸ held)
  absent := fun held => rests.history ▸ ledger.absent (rests.slots ▸ held)
  latest := fun held running => by
    obtain ⟨read, beats⟩ := ledger.latest (rests.slots ▸ held) running
    exact ⟨le_trans read rests.clock, fun listed => beats (rests.history ▸ listed)⟩
  respected := rests.history ▸ ledger.respected

lemma Loaded.rests (genuine : Loaded world loaded) (rests : Rests world after) :
    Loaded after loaded where
  issued := rests.nextStamp ▸ genuine.issued
  same := fun slot held => genuine.same slot (rests.slots ▸ held)

lemma Op.Sound.mono {op : Op} (sound : op.Sound world executor)
    (genuine : ∀ loaded, Loaded world loaded → Loaded after loaded) (le : world.clock ≤ after.clock)
    : op.Sound after executor := by
  cases op with
  | idle => trivial
  | updating => exact genuine _ sound
  | sweeping => exact le_trans sound le
  | picked =>
    obtain ⟨loaded, now, unfinished, stale⟩ := sound
    exact ⟨genuine _ loaded, le_trans now le, unfinished, le_trans stale le⟩
  | claiming =>
    obtain ⟨loaded, now, unfinished, stale, same_id, running, later, read⟩ := sound
    exact ⟨genuine _ loaded, le_trans now le, unfinished, le_trans stale le, same_id,
      running, later, le_trans read le⟩
  | beating =>
    obtain ⟨loaded, owned, read⟩ := sound
    exact ⟨genuine _ loaded, owned, le_trans read le⟩
  | renewing =>
    obtain ⟨loaded, owned, reading, stamped, later, read⟩ := sound
    exact ⟨genuine _ loaded, owned, reading, stamped, later, le_trans read le⟩

lemma Agent.Sound.rests {agent : Agent} (sound : agent.Sound world) (rests : Rests world after) :
    agent.Sound after :=
  ⟨sound.1.mono rests.clock, sound.2.mono (fun _ genuine => genuine.rests rests) rests.clock⟩

lemma World.Sound.write {events : List Event} (sound : world.Sound timing)
    (writes : Writes timing world next events) : (world.write next events).Sound timing where
  ledger := sound.ledger.write writes
  agents := fun found => by
    obtain ⟨timely, op_sound⟩ := sound.agents found
    exact ⟨timely, op_sound.mono (fun _ genuine => genuine.write next events) le_rfl⟩

lemma rests_goOn (world) (index : Nat) (call) (op : Op) :
    Rests world (world.goOn index call op) := ⟨rfl, rfl, rfl, le_rfl⟩

section

variable (sound : world.Sound timing)
include sound

lemma World.Sound.goOn {op : Op} (timely : Timely world.clock call)
    (op_sound : op.Sound world call.executor) : (world.goOn index call op).Sound timing where
  ledger := sound.ledger.rests (rests_goOn world index call op)
  agents := fun found => by
    have rests := rests_goOn world index call op
    obtain ⟨-, rfl⟩ | ⟨-, found⟩ := Threads.Machine.getElem?_set_cases found
    · exact (show Agent.Sound world ⟨call, op⟩ from ⟨timely, op_sound⟩).rests rests
    · exact (sound.agents found).rests rests

lemma World.Sound.reply (replied : world.reply index call response = some after) :
    after.Sound timing := by
  obtain ⟨next, responded, rfl⟩ := map_eq_some_iff.mp replied
  exact sound.goOn (timely_respond responded) trivial

lemma World.Sound.create {state}
    (timely : state.status.isTerminal = false ∧ state.heartbeat ≤ world.clock)
    (on_time : timing state.heartbeat world.clock ≤ state.heartbeat)
    (taken : world.create index call state = some after) : after.Sound timing := by
  simp only [World.create] at taken
  split at taken
  · exact sound.reply taken
  · split at taken
    · rename_i absent
      exact (sound.write
        (.created call.executor.owner absent timely.1 timely.2 on_time)).reply taken
    · exact sound.reply taken

lemma World.Sound.get (taken : world.get index call id = some after) : after.Sound timing := by
  simp only [World.get] at taken
  split at taken
  · exact sound.reply taken
  · split at taken <;> exact sound.reply taken

lemma World.Sound.beginUpdate (timely : Timely world.clock call)
    (taken : world.beginUpdate index call expectedVersion next = some after) :
    after.Sound timing := by
  simp only [World.beginUpdate] at taken
  split at taken
  · exact sound.reply taken
  · split at taken
    · split at taken
      · exact sound.reply taken
      · rename_i loaded held
        split at taken
        · cases taken
          exact sound.goOn timely (sound.ledger.loaded held)
        · exact sound.reply taken
    · exact sound.reply taken

end

variable {now : Nat} (sound : world.Sound timing) {pick : Option String}
include sound

section

variable (timely : Timely world.clock call)
include timely

lemma World.Sound.visit {flowType} (read : now ≤ world.clock)
    (taken : world.visit index call flowType call.executor.staleAfter now pick = some after) :
    after.Sound timing := by
  cases pick with
  | none => exact sound.reply taken
  | some id =>
    obtain ⟨loaded, held, visited⟩ := bind_eq_some_iff.mp taken
    split at visited
    · exact sound.reply visited
    · split at visited <;> cases visited
      · rename_i stale
        have unfinished : loaded.state.status.isTerminal = false := by
          rw [stale.2.1]
          rfl
        have old := isStale_iff.mp stale.2.2
        exact sound.goOn timely
          ⟨sound.ledger.loaded held, read, unfinished, le_trans old read⟩
      · exact sound

lemma World.Sound.stampClaim (picked : (Op.picked now loaded).Sound world call.executor)
    (taken : world.stampClaim index call call.executor.owner now loaded = some after) :
    after.Sound timing := by
  obtain ⟨genuine, read, unfinished, stale⟩ := picked
  simp only [World.stampClaim] at taken
  split at taken
  · exact sound.reply taken
  · rename_i next stamped
    cases taken
    obtain ⟨-, rfl⟩ := FlowState.nextVersion_eq_ok.mp stamped
    exact sound.goOn timely ⟨genuine, read, unfinished, stale, rfl, unfinished,
      le_trans (Nat.le_add_right _ _) stale, le_rfl⟩

lemma World.Sound.finishClaim (claiming : (Op.claiming now loaded next).Sound world call.executor)
    (on_time : timing next.heartbeat world.clock ≤ next.heartbeat)
    (taken : world.finishClaim index call now loaded next = some after) : after.Sound timing := by
  obtain ⟨genuine, read, unfinished, stale, same_id, running, later, bound⟩ := claiming
  simp only [World.finishClaim] at taken
  split_ifs at taken with in_place
  · have held := genuine.held in_place
    rw [← same_id] at held
    exact (sound.write
      (.taken call.executor held unfinished stale running later bound on_time)).reply taken
  · cases taken
    exact sound.goOn timely read

lemma World.Sound.beginBeat {id owner version}
    (taken : world.beginBeat index call id owner version = some after) : after.Sound timing := by
  simp only [World.beginBeat] at taken
  split at taken
  · exact sound.reply taken
  · rename_i loaded held
    split_ifs at taken with owned
    · cases taken
      have has_owner : loaded.state.owner ≠ none := by
        rw [owned.1]
        exact some_ne_none owner
      have running : loaded.state.status.isTerminal = false := by
        cases ended : loaded.state.status.isTerminal with
        | false => rfl
        | true => exact absurd (sound.ledger.unowned held ended) has_owner
      exact sound.goOn timely ⟨sound.ledger.loaded held, has_owner,
        (sound.ledger.latest held running).1⟩
    · exact sound.reply taken

lemma World.Sound.finishBeat (renewing : (Op.renewing loaded next).Sound world call.executor)
    (on_time : timing next.heartbeat world.clock ≤ next.heartbeat)
    (taken : world.finishBeat index call loaded next = some after) : after.Sound timing := by
  obtain ⟨genuine, owned, read, rfl, later, bound⟩ := renewing
  simp only [finishBeat] at taken
  split_ifs at taken with in_place
  · have held := genuine.held in_place
    exact (sound.write (.renewed call.executor.owner held owned later bound on_time)).reply taken
  · cases taken
    exact sound.goOn timely trivial

end

lemma World.Sound.finishUpdate {purpose phase}
    (timely : Timely world.clock ⟨executor, purpose, phase⟩)
    (requested : request ⟨executor, purpose, phase⟩ = some (.update expectedVersion next))
    (genuine : Loaded world loaded)
    (calmly : ∀ initial current, phase = .claiming initial current next → loaded.state = current ∧
      timing next.heartbeat world.clock ≤ next.heartbeat)
    (taken : world.finishUpdate index ⟨executor, purpose, phase⟩ next loaded = some after) :
    after.Sound timing := by
  simp only [World.finishUpdate] at taken
  split_ifs at taken with in_place
  · obtain ⟨initial, current, rfl, -⟩ | ⟨state, current, result, rfl, -⟩ :=
      request_update requested
    · obtain ⟨rfl, on_time⟩ := calmly initial current rfl
      obtain ⟨unfinished, stale, running, later, bound, same_id⟩ := timely
      have held := genuine.held in_place
      rw [← same_id] at held
      exact (sound.write (.taken executor held unfinished stale running later bound on_time)).reply
        taken
    · exact (sound.write (.concluded timely.1 timely.2)).reply taken
  · cases taken
    exact sound.goOn timely trivial

lemma World.Sound.serve {agent request}
    (here : world.agents[index]? = some agent) (requested : agent.call.request = some request)
    (calmly : calm (.serve index pick) world = true)
    (on_time : punctual timing (.serve index pick) world = true)
    (taken : world.serve index agent.call pick request agent.op = some after) :
    after.Sound timing := by
  obtain ⟨⟨executor, purpose, phase⟩, op⟩ := agent
  obtain ⟨timely, op_sound⟩ := sound.agents here
  simp only [calm, punctual, here] at calmly on_time
  cases request with
  | create =>
    obtain rfl := request_create requested
    cases op with
    | idle => exact sound.create timely (of_decide_eq_true on_time) taken
    | _ => cases taken
  | get =>
    cases op with
    | idle => exact sound.get taken
    | _ => cases taken
  | update =>
    cases op with
    | idle => exact sound.beginUpdate timely taken
    | updating =>
      refine sound.finishUpdate timely requested op_sound ?_ taken
      rintro initial current rfl
      exact ⟨of_decide_eq_true calmly, of_decide_eq_true on_time⟩
    | _ => cases taken
  | tryClaim =>
    obtain ⟨rfl, rfl, rfl, -⟩ := request_tryClaim requested
    cases op with
    | idle =>
      cases taken
      exact sound.goOn timely (Nat.le_refl world.clock)
    | sweeping => exact sound.visit timely op_sound taken
    | picked => exact sound.stampClaim timely op_sound taken
    | claiming =>
      exact sound.finishClaim timely op_sound (of_decide_eq_true on_time) taken
    | _ => cases taken
  | heartbeat =>
    obtain ⟨rfl, phases⟩ := request_heartbeat requested
    cases op with
    | idle => exact sound.beginBeat timely taken
    | beating =>
      cases taken
      obtain ⟨genuine, owned, read⟩ := op_sound
      exact sound.goOn timely ⟨genuine, owned, world.clock, rfl, read, Nat.le_refl world.clock⟩
    | renewing loaded next =>
      have recorded : timing next.heartbeat world.clock ≤ next.heartbeat := by
        obtain ⟨state, rfl, -⟩ | rfl := phases <;> exact of_decide_eq_true on_time
      exact sound.finishBeat timely op_sound recorded taken
    | _ => cases taken

end

lemma World.initial_sound (timing) (clock : Nat) : (initial clock).Sound timing where
  ledger :=
    { keyed := by rintro id slot ⟨⟩
      issued := by rintro id slot ⟨⟩
      unowned := by rintro id slot ⟨⟩
      absent := fun _ event listed => absurd listed not_mem_nil
      latest := by rintro id slot ⟨⟩
      respected := by
        intro before id previous staleAfter time after split
        exact absurd split.symm (by simp [initial]) }
  agents := fun found => by simp [initial] at found

lemma World.Sound.step {timing : Timing} {world after label}
    (sound : world.Sound timing) (calmly : calm label world = true)
    (on_time : punctual timing label world = true) (taken : step label world = some after) :
    after.Sound timing := by
  cases label with
  | tick amount =>
    cases taken
    have rests : Rests world { world with clock := world.clock + amount } :=
      ⟨rfl, rfl, rfl, Nat.le_add_right _ _⟩
    exact ⟨sound.ledger.rests rests, fun found => (sound.agents found).rests rests⟩
  | start executor task =>
    cases taken
    refine ⟨sound.ledger.rests ⟨rfl, rfl, rfl, le_rfl⟩, fun {index agent} found => ?_⟩
    have rests : Rests world { world with
        agents := world.agents ++ [⟨enter executor world.clock task, .idle⟩] } :=
      ⟨rfl, rfl, rfl, le_rfl⟩
    obtain ⟨-, rfl⟩ | found := Threads.Machine.getElem?_concat_cases found
    · exact ⟨timely_enter executor task, trivial⟩
    · exact (sound.agents found).rests rests
  | proceed =>
    obtain ⟨agent, here, moved⟩ := bind_eq_some_iff.mp taken
    obtain ⟨next, proceeded, returned⟩ := bind_eq_some_iff.mp moved
    cases returned
    exact sound.goOn ((sound.agents here).1.proceed proceeded) trivial
  | serve =>
    obtain ⟨agent, here, asked⟩ := bind_eq_some_iff.mp taken
    obtain ⟨request, requested, served⟩ := bind_eq_some_iff.mp asked
    exact sound.serve here requested calmly on_time served

/-- In every run in which executors take over the very record they have read, no takeover finds a
beat of the previous owner within its patience, by the clock readings of the beats; and if beats are
stored at the time they have read, by the times of storing. -/
theorem takeover_only_when_stale (clock : Nat) :
    (∀ labels world,
      Runs World.step (fun label world => calm label world = true)
        (World.initial clock) labels world →
      OnlyStale whenRead world.history) ∧
    ∀ labels world,
      Runs World.step (fun label world => calm label world = true ∧
        punctual whenStored label world = true) (World.initial clock) labels world →
      OnlyStale whenStored world.history := by
  constructor
  · intro labels world run
    have sound : world.Sound whenRead := run.invariant (World.initial_sound whenRead clock)
      fun before calmly taken => before.step calmly (punctual_whenRead _ _) taken
    exact sound.ledger.respected
  · intro labels world run
    have sound : world.Sound whenStored := run.invariant (World.initial_sound whenStored clock)
      fun before admitted taken => before.step admitted.1 admitted.2 taken
    exact sound.ledger.respected

/-- The first executor creates the flow and falls silent, the second takes it over. -/
def silentOwner : List Label :=
  [.start ⟨"a", 10⟩ (.execute "f" "order" [] false), .serve 0 none, .tick 10,
    .start ⟨"b", 10⟩ (.execute "f" "order" [] false), .serve 1 none, .serve 1 none,
    .proceed 1 .proceed, .proceed 1 .proceed, .serve 1 none, .serve 1 none]

/-- The same, but the first executor records a heartbeat after the second has judged the flow. -/
def beatingOwner : List Label :=
  [.start ⟨"a", 10⟩ (.execute "f" "order" [] false), .serve 0 none, .tick 10,
    .start ⟨"b", 10⟩ (.execute "f" "order" [] false), .serve 1 none, .serve 1 none,
    .proceed 1 .proceed,
    .start ⟨"a", 10⟩ (.heartbeat "f" 0), .serve 2 none, .serve 2 none, .serve 2 none,
    .proceed 1 .proceed, .serve 1 none, .serve 1 none]

/-- The first executor reads the clock and creates the flow much later. -/
def lateOwner : List Label :=
  [.start ⟨"a", 10⟩ (.execute "f" "order" [] false), .tick 10, .serve 0 none,
    .start ⟨"b", 10⟩ (.execute "f" "order" [] false), .serve 1 none, .serve 1 none,
    .proceed 1 .proceed, .proceed 1 .proceed, .serve 1 none, .serve 1 none]

/-- A flow whose owner is silent is taken over, and the owner's claim is old. -/
theorem silent_owner_replaced : ∃ world,
    Runs World.step (fun label world => calm label world = true ∧
      punctual whenStored label world = true) (World.initial 0) silentOwner world ∧
    .takeover "f" (some "a") 10 10 ∈ world.history ∧ OnlyStale whenRead world.history ∧
    OnlyStale whenStored world.history := by
  refine Runs.exists_and_of_execWhile (by decide) fun {world} run _ => ?_
  exact ⟨(takeover_only_when_stale 0).1 silentOwner world (run.mono fun admitted => admitted.1),
    (takeover_only_when_stale 0).2 silentOwner world run⟩

/-- A flow is taken over at time 10 although its owner recorded a heartbeat at 10; and, with the
very record that was read, one is taken over at the time at which its owner's claim was stored. -/
theorem beating_owner_replaced :
    (∃ world, Runs World.step (fun _ _ => True) (World.initial 0) beatingOwner world ∧
      ¬OnlyStale whenRead world.history) ∧
    ∃ world, Runs World.step (fun label world => calm label world = true) (World.initial 0)
      lateOwner world ∧ ¬OnlyStale whenStored world.history := by
  constructor
  · refine Runs.exists_of_test (fun world => world.history =
      [.beat "f" "a" 0 0, .beat "f" "a" 10 10, .takeover "f" (some "a") 10 10,
        .beat "f" "b" 10 10]) (by decide) fun _ history_eq onlyStale => ?_
    exact onlyStale [.beat "f" "a" 0 0, .beat "f" "a" 10 10] "f" (some "a") 10 10 _ history_eq
      "a" 10 10 (by decide) rfl (by decide)
  · refine Runs.exists_of_test (fun world => world.history =
      [.beat "f" "a" 0 10, .takeover "f" (some "a") 10 10, .beat "f" "b" 10 10]) (by decide)
      fun _ history_eq onlyStale => ?_
    exact onlyStale [.beat "f" "a" 0 10] "f" (some "a") 10 10 _ history_eq "a" 0 10 (by decide) rfl
      (by decide)

end Catga.Flow.MemoryFlows
