import Catga.Flow.Machine

/-!
# Reconciliation of delayed suspensions

A flow interrupted between its delayed suspension and the registration of its schedule is an
orphan.  `reconcile_delayed_suspensions` looks for orphans in one bounded query that always begins
at the first entry of the map, and rescheduling a flow does not take it out of the query's filter,
so every call with the same bounds looks at the same window.
-/

namespace Catga.Flow

open List Option

variable {store : Store} {flowId : String} {continuation : FlowContinuation} {runtime : FlowRuntime}

def FlowContinuation.Orphan (continuation : FlowContinuation) : Prop :=
  continuation.state.status = .suspended ∧ continuation.resumeAt.isSome ∧
    continuation.scheduleId = none
deriving Decidable

namespace MemorySuspendedFlows

def isMatch (flowType : String) (continuation : FlowContinuation) : Bool :=
  decide (continuation.state.status = .suspended) && continuation.state.flowType == flowType

/-- `query` over a map that is iterated in `order`: the identities of the first `maxResults`
matches among the first `maxScan` entries. -/
def query (order : List String) (store : Store) (flowType : String)
    (maxResults maxScan : Nat) : CatgaResult (List String) := do
  checkLimits maxResults maxScan
  return ((((order.take maxScan).filterMap store).filter (isMatch flowType)).take
    maxResults).map (·.state.id)

end MemorySuspendedFlows

open MemorySuspendedFlows

section

variable {σ : Type*}

/-- A scheduler that always succeeds: its next state and the identity it returns. -/
abbrev Schedule (σ : Type*) := σ → String → String → Nat → σ × ScheduleId

variable (schedule : Schedule σ)

/-- `persist_delayed_schedule_identity`; whether the identity was recorded. -/
def persistDelayedScheduleIdentity (now : Nat) (scheduler : σ)
    (store : Store) (continuation : FlowContinuation) : (σ × Store) × CatgaResult Bool :=
  match continuation.resumeAt with
  | none => ((scheduler, store), .ok false)
  | some resumeAt =>
    let (next, scheduleId) :=
      schedule scheduler continuation.state.id continuation.stepName resumeAt
    match (continuation.revised now id).map (·.withScheduleId scheduleId now) with
    | .error error => ((next, store), .error error)
    | .ok scheduled =>
      match store.update continuation.state.version scheduled with
      | .error error => ((next, store), .error error)
      | .ok none => ((next, store), .ok false)
      | .ok (some updated) => ((next, updated), .ok true)

/-- The body of the loop of `reconcile_delayed_suspensions`. -/
def reconcileFlow (flowType : String) (now : Nat) (scheduler : σ)
    (store : Store) (flowId : String) : (σ × Store) × CatgaResult Bool :=
  match store.get flowId with
  | .error error => ((scheduler, store), .error error)
  | .ok none => ((scheduler, store), .ok false)
  | .ok (some continuation) =>
    if FlowRuntime.passedOver flowType continuation then ((scheduler, store), .ok false)
    else persistDelayedScheduleIdentity schedule now scheduler store continuation

/-- The loop of `reconcile_delayed_suspensions`. -/
def sweep (schedule : Schedule σ) (flowType : String) (now : Nat) :
    List String → Nat → σ × Store → (σ × Store) × CatgaResult Nat
  | [], reconciled, state => (state, .ok reconciled)
  | flowId :: rest, reconciled, state =>
    match reconcileFlow schedule flowType now state.1 state.2 flowId with
    | (next, .error error) => (next, .error error)
    | (next, .ok recorded) =>
      sweep schedule flowType now rest (if recorded then reconciled + 1 else reconciled) next

/-- `reconcile_delayed_suspensions` on the in-memory store. -/
def reconcileDelayedSuspensions (runtime : FlowRuntime)
    (order : List String) (maxResults maxScan now : Nat) (state : σ × Store) :
    (σ × Store) × CatgaResult Nat :=
  match query order state.2 runtime.definition.name maxResults maxScan with
  | .error error => (state, .error error)
  | .ok summaries => sweep schedule runtime.definition.name now summaries 0 state

/-- The state after a number of calls with the same bounds, each at its own time; an error leaves
what the call had done. -/
def calls (schedule : Schedule σ) (runtime : FlowRuntime) (order : List String)
    (maxResults maxScan : Nat) (clock : Nat → Nat) (state : σ × Store) : Nat → σ × Store
  | 0 => state
  | count + 1 =>
    (reconcileDelayedSuspensions schedule runtime order maxResults maxScan (clock count)
      (calls schedule runtime order maxResults maxScan clock state count)).1

end

/-- Where a reconciliation stands after its visit to a flow. -/
def afterVisit (rest : List String) (reconciled : Nat) : CatgaResult Bool → Task
  | .error error => .fails error
  | .ok recorded => .reconcileRead rest (if recorded then reconciled + 1 else reconciled)

/-- The two operations of the machine at a flow it does not pass over are, with nobody else in
between, `persist_delayed_schedule_identity`. -/
theorem schedule_identify_eq {schedule : Schedule MemoryFlowScheduler} {world : World}
    {now reconciled resumeAt next scheduleId} {rest : List String}
    (due : continuation.resumeAt = some resumeAt)
    (drawn : schedule world.scheduler continuation.state.id continuation.stepName resumeAt =
      (next, scheduleId))
    (serves : world.scheduler.scheduleResume continuation.state.id continuation.stepName resumeAt =
      (next, .ok scheduleId)) :
    let visit := persistDelayedScheduleIdentity schedule now world.scheduler world.store
      continuation
    ((runtime.act now world .go (.schedule continuation (some (rest, reconciled)))).bind
        fun (middle, task) => runtime.act now middle .go task).map
        (fun (after, task) => ((after.scheduler, after.store), task)) =
      some (visit.1, afterVisit rest reconciled visit.2) := by
  have registers : runtime.act now world .go (.schedule continuation (some (rest, reconciled))) =
      some ({ world with scheduler := next },
        .identify continuation scheduleId (some (rest, reconciled))) := by
    simp [FlowRuntime.act, FlowRuntime.schedule, due, serves]
  rw [registers, bind_some]
  simp only [FlowRuntime.act, FlowRuntime.read, FlowRuntime.write, Write.update, Write.perform,
    Write.commit, map_some, Bool.false_eq_true, if_false, persistDelayedScheduleIdentity, due,
    drawn]
  cases (continuation.revised now id).map (·.withScheduleId scheduleId now) with
  | error => rfl
  | ok revision =>
    dsimp only
    rcases world.store.update continuation.state.version revision with _ | (_ | _) <;> rfl

/-- A visit to this flow does not end the call: the flow can be read, and an orphan of this flow
type has a next version. -/
def passable (flowType : String) (store : Store) (flowId : String) : Bool :=
  match store flowId with
  | none => true
  | some continuation =>
    decide (continuation.validate = .ok ()) &&
      (decide (¬(continuation.Orphan ∧ continuation.state.flowType = flowType)) ||
        decide (continuation.state.version < maxVersion))

section

variable (order : List String) (store : Store) (runtime : FlowRuntime) (maxResults maxScan : Nat)

/-- The window of a call: the flows its query returns. -/
def window : List String :=
  match query order store runtime.definition.name maxResults maxScan with
  | .error _ => []
  | .ok summaries => summaries

/-- The part of the window that a call visits. -/
def reached : List String :=
  (window order store runtime maxResults maxScan).takeWhile
    (passable runtime.definition.name store)

end

/-- A continuation with a registered schedule in place of the same one without. -/
structure Scheduled (before after : FlowContinuation) : Prop where
  below : before.state.version < maxVersion
  registered : after.scheduleId ≠ none
  id : after.state.id = before.state.id
  status : after.state.status = before.state.status
  flowType : after.state.flowType = before.state.flowType
  valid : after.validate = before.validate

/-- What one call does to the store: it registers the orphans it visits and leaves the rest. -/
structure Registers (flowType : String) (visited : List String) (store after : Store) : Prop where
  untouched : ∀ flowId ∉ visited, after flowId = store flowId
  registered : ∀ flowId ∈ visited, ∀ continuation, after flowId = some continuation →
    continuation.state.flowType = flowType → ¬continuation.Orphan
  scheduled : ∀ flowId, after flowId = store flowId ∨ ∃ before next,
    store flowId = some before ∧ after flowId = some next ∧ Scheduled before next

namespace Registers

variable {flowType : String} {visited : List String} {store middle after : Store}

lemma none_visited : Registers flowType [] store store where
  untouched _ _ := rfl
  registered _ member := by cases member
  scheduled _ := .inl rfl

lemma skipped (settled : ∀ continuation, store flowId = some continuation →
    continuation.state.flowType = flowType → ¬continuation.Orphan) :
    Registers flowType [flowId] store store where
  untouched _ _ := rfl
  registered other member := by
    rw [mem_singleton.mp member]
    exact settled
  scheduled _ := .inl rfl

section

variable (registers : Registers flowType visited store after)
include registers

lemma keyed (keyed : store.Keyed) : after.Keyed := by
  intro flowId continuation held
  rcases registers.scheduled flowId with same | ⟨before, next, before_held, next_held, scheduled⟩
  · exact keyed flowId continuation (same ▸ held)
  · cases next_held.symm.trans held
    rw [scheduled.id]
    exact keyed flowId before before_held

lemma passable_eq : passable flowType after = passable flowType store := by
  funext flowId
  unfold passable
  rcases registers.scheduled flowId with same | ⟨before, next, before_held, next_held, scheduled⟩
  · rw [same]
  · have settled : ¬next.Orphan := fun orphan => scheduled.registered orphan.2.2
    rw [before_held, next_held]
    simp [scheduled.valid, settled, scheduled.below]

lemma query_eq (order : List String) (name : String) (maxResults maxScan : Nat) :
    query order after name maxResults maxScan =
      query order store name maxResults maxScan := by
  have summary_eq : ∀ flowId, ((after flowId).filter (isMatch name)).map
      (·.state.id) = ((store flowId).filter (isMatch name)).map
        (·.state.id) := by
    intro flowId
    rcases registers.scheduled flowId with same | ⟨before, next, before_held, next_held, scheduled⟩
    · rw [same]
    · have match_eq : isMatch name next =
          isMatch name before := by
        simp [isMatch, scheduled.status, scheduled.flowType]
      rw [before_held, next_held, filter_some, filter_some, match_eq]
      split
      · rw [map_some, map_some, scheduled.id]
      · rfl
  unfold query
  simp [filter_filterMap, map_filterMap, summary_eq]

end

lemma cons (first : Registers flowType [flowId] store middle)
    (rest : Registers flowType visited middle after) :
    Registers flowType (flowId :: visited) store after := by
  constructor
  case untouched =>
    intro other unvisited
    rw [mem_cons, not_or] at unvisited
    rw [rest.untouched other unvisited.2]
    exact first.untouched other (by simpa using unvisited.1)
  case registered =>
    intro other member continuation held same_type
    by_cases later : other ∈ visited
    · exact rest.registered other later continuation held same_type
    · rw [rest.untouched other later] at held
      have same : other = flowId := (mem_cons.mp member).resolve_right later
      exact first.registered other (mem_singleton.mpr same) continuation held same_type
  case scheduled =>
    intro other
    rcases rest.scheduled other with same | ⟨before, next, before_held, next_held, scheduled⟩
    · rw [same]
      exact first.scheduled other
    · rcases first.scheduled other with same | ⟨origin, between, origin_held, held, earlier⟩
      · exact .inr ⟨before, next, same ▸ before_held, next_held, scheduled⟩
      · cases held.symm.trans before_held
        exact .inr ⟨origin, next, origin_held, next_held,
          { below := earlier.below
            registered := scheduled.registered
            id := scheduled.id.trans earlier.id
            status := scheduled.status.trans earlier.status
            flowType := scheduled.flowType.trans earlier.flowType
            valid := scheduled.valid.trans earlier.valid }⟩

end Registers

lemma Store.update_of_current {current next}
    (found : store next.state.id = some current) (below : current.state.version < maxVersion)
    (version : next.state.version = current.state.version + 1) (valid : next.validate = .ok ()) :
    store.update current.state.version next = .ok (some (store.put next)) := by
  unfold Store.update
  rw [if_pos (FlowState.isNextVersion_iff.mpr ⟨below, version⟩), valid, found]
  simp only [bind, Except.bind, if_true]
  rfl

section

variable {σ : Type*} {schedule : Schedule σ} {flowType : String} {now : Nat}

lemma persistDelayedScheduleIdentity_spec (keyed : store.Keyed) (scheduler : σ)
    (held : store flowId = some continuation) (valid : continuation.validate = .ok ())
    (orphan : continuation.Orphan) (below : continuation.state.version < maxVersion) :
    ∃ next after,
      persistDelayedScheduleIdentity schedule now scheduler store continuation =
        ((next, after), .ok true) ∧ Registers flowType [flowId] store after := by
  obtain ⟨resumeAt, due⟩ := isSome_iff_exists.mp orphan.2.1
  have id_eq := keyed flowId continuation held
  rcases drawn : schedule scheduler continuation.state.id continuation.stepName resumeAt with
    ⟨next, scheduleId⟩
  let scheduled : FlowContinuation := { continuation with
    state := { continuation.state with version := continuation.state.version + 1 }
    scheduleId := some scheduleId, updatedAt := now }
  have built : (continuation.revised now id).map (·.withScheduleId scheduleId now) =
      .ok scheduled := by
    have versioned : (id continuation.state).nextVersion = .ok { continuation.state with
        version := continuation.state.version + 1 } :=
      FlowState.nextVersion_eq_ok.mpr ⟨below, rfl⟩
    unfold FlowContinuation.revised
    rw [versioned]
    rfl
  have updated : store.update continuation.state.version scheduled =
      .ok (some (store.put scheduled)) :=
    Store.update_of_current (show store continuation.state.id = _ by rw [id_eq, held])
      below rfl valid
  refine ⟨next, store.put scheduled, ?_, ?_⟩
  · unfold persistDelayedScheduleIdentity
    simp [due, drawn, built, updated]
  · have put_eq : store.put scheduled = Function.update store flowId (some scheduled) := by
      rw [Store.put, show scheduled.state.id = flowId from id_eq]
    rw [put_eq]
    constructor
    case untouched =>
      intro other unvisited
      exact Function.update_of_ne (by simpa using unvisited) _ _
    case registered =>
      intro other member found after_held _ still
      rw [mem_singleton.mp member, Function.update_self] at after_held
      cases after_held
      exact absurd still.2.2 (by simp [scheduled])
    case scheduled =>
      intro other
      by_cases same : other = flowId
      · subst same
        exact .inr ⟨continuation, scheduled, held, Function.update_self .., below,
          by simp [scheduled], rfl, rfl, rfl, rfl⟩
      · exact .inl (Function.update_of_ne same _ _)

lemma persistDelayedScheduleIdentity_exhausted (scheduler : σ) (store : Store)
    (delayed : continuation.resumeAt.isSome)
    (exhausted : ¬continuation.state.version < maxVersion) :
    ∃ next error, persistDelayedScheduleIdentity schedule now scheduler store continuation =
      ((next, store), .error error) := by
  obtain ⟨resumeAt, due⟩ := isSome_iff_exists.mp delayed
  rcases drawn : schedule scheduler continuation.state.id continuation.stepName resumeAt with
    ⟨next, scheduleId⟩
  have refused : (continuation.revised now id).map (·.withScheduleId scheduleId now) =
      .error ⟨.conflict, "flow state version cannot advance beyond i64::MAX"⟩ := by
    have versioned : (id continuation.state).nextVersion =
        .error ⟨.conflict, "flow state version cannot advance beyond i64::MAX"⟩ := if_neg exhausted
    unfold FlowContinuation.revised
    rw [versioned]
    rfl
  unfold persistDelayedScheduleIdentity
  simp only [due, drawn, refused]
  exact ⟨_, _, rfl⟩

variable (schedule : Schedule σ)

/-- The body of the loop: a flow that can be visited is no orphan afterwards, any other one ends the
call. -/
lemma reconcileFlow_spec (flowType : String) (now : Nat)
    (keyed : store.Keyed) (scheduler : σ) (flowId : String) :
    (passable flowType store flowId = true → ∃ next after recorded,
      reconcileFlow schedule flowType now scheduler store flowId = ((next, after), .ok recorded) ∧
        Registers flowType [flowId] store after) ∧
    (passable flowType store flowId = false → ∃ next error,
      reconcileFlow schedule flowType now scheduler store flowId =
        ((next, store), .error error)) := by
  cases held : store flowId with
  | none =>
    have read : store.get flowId = .ok none := by rw [Store.get, held]
    refine ⟨fun _ => ⟨scheduler, store, false, by rw [reconcileFlow, read], ?_⟩, fun stuck => ?_⟩
    · exact Registers.skipped fun continuation found => by rw [held] at found; cases found
    · simp only [passable, held] at stuck
      cases stuck
  | some continuation =>
    simp only [passable, held]
    cases valid : continuation.validate with
    | error error =>
      have read : store.get flowId = .error error := by
        rw [Store.get, held]
        simp [valid]
      refine ⟨fun passes => by simp at passes, fun _ => ⟨scheduler, error, ?_⟩⟩
      rw [reconcileFlow, read]
    | ok =>
      have read : store.get flowId = .ok (some continuation) := by
        rw [Store.get, held]
        simp only [valid, bind, Except.bind]
        rfl
      by_cases orphan : continuation.Orphan ∧ continuation.state.flowType = flowType
      · obtain ⟨⟨suspended, delayed, unscheduled⟩, same_type⟩ := orphan
        have visited : reconcileFlow schedule flowType now scheduler store flowId =
            persistDelayedScheduleIdentity schedule now scheduler store continuation := by
          rw [reconcileFlow, read]
          simp [FlowRuntime.passedOver, suspended, same_type, unscheduled,
            isSome_iff_ne_none.mp delayed]
        rw [visited]
        by_cases below : continuation.state.version < maxVersion
        · refine ⟨fun _ => ?_, fun stuck => by simp [below] at stuck⟩
          obtain ⟨next, after, recorded, registers⟩ :=
            persistDelayedScheduleIdentity_spec keyed scheduler held valid
              ⟨suspended, delayed, unscheduled⟩ below
          exact ⟨next, after, true, recorded, registers⟩
        · refine ⟨fun passes => ?_, fun _ => ?_⟩
          · simp [below, same_type, FlowContinuation.Orphan, suspended, delayed,
              unscheduled] at passes
          · exact persistDelayedScheduleIdentity_exhausted scheduler store delayed below
      · have skipped : reconcileFlow schedule flowType now scheduler store flowId =
            ((scheduler, store), .ok false) := by
          rw [reconcileFlow, read]
          refine if_pos ?_
          by_contra searched
          simp only [FlowRuntime.passedOver, not_or, not_not, not_isSome_iff_eq_none,
            isNone_iff_eq_none] at searched
          exact orphan ⟨⟨searched.1, isSome_iff_ne_none.mpr searched.2.2.2,
            searched.2.2.1⟩, searched.2.1⟩
        refine ⟨fun _ => ⟨scheduler, store, false, skipped, ?_⟩, fun stuck => ?_⟩
        · refine Registers.skipped fun found after_held same_type still => ?_
          cases held.symm.trans after_held
          exact orphan ⟨still, same_type⟩
        · simp [orphan] at stuck

lemma sweep_spec (flowType : String) (now : Nat) (summaries : List String)
    (reconciled : Nat) (scheduler : σ) (keyed : store.Keyed) :
    ∃ next after result,
      sweep schedule flowType now summaries reconciled (scheduler, store) =
        ((next, after), result) ∧
        Registers flowType (summaries.takeWhile (passable flowType store)) store after := by
  induction summaries generalizing reconciled scheduler store with
  | nil => exact ⟨scheduler, store, .ok reconciled, rfl, Registers.none_visited⟩
  | cons flowId rest ih =>
    obtain ⟨visits, ends⟩ :=
      reconcileFlow_spec schedule flowType now keyed scheduler flowId
    cases passes : passable flowType store flowId with
    | true =>
      obtain ⟨next, middle, recorded, visited, first⟩ := visits passes
      obtain ⟨last, after, result, swept, registers⟩ :=
        ih (if recorded then reconciled + 1 else reconciled) next (first.keyed keyed)
      rw [first.passable_eq] at registers
      refine ⟨last, after, result, ?_, ?_⟩
      · rw [sweep, visited]
        exact swept
      · rw [takeWhile_cons_of_pos passes]
        exact first.cons registers
    | false =>
      obtain ⟨next, error, ended⟩ := ends passes
      refine ⟨next, store, .error error, by rw [sweep, ended], ?_⟩
      rw [takeWhile_cons_of_neg (by simp [passes])]
      exact Registers.none_visited

variable (runtime : FlowRuntime) (order : List String)

lemma reconcileDelayedSuspensions_spec (maxResults maxScan now : Nat) (scheduler : σ)
    (keyed : store.Keyed) :
    ∃ next after, (reconcileDelayedSuspensions schedule runtime order maxResults maxScan now
        (scheduler, store)).1 = (next, after) ∧
      Registers runtime.definition.name (reached order store runtime maxResults maxScan)
        store after := by
  unfold reconcileDelayedSuspensions reached window
  cases query order store runtime.definition.name maxResults maxScan with
  | error => exact ⟨scheduler, store, rfl, Registers.none_visited⟩
  | ok summaries =>
    obtain ⟨next, after, result, swept, registers⟩ :=
      sweep_spec schedule runtime.definition.name now summaries 0 scheduler keyed
    exact ⟨next, after, congrArg Prod.fst swept, registers⟩

/-- However many calls are made, they change nothing but what the first one reaches. -/
lemma calls_spec
    (maxResults maxScan : Nat) (clock : Nat → Nat) (scheduler : σ) (keyed : store.Keyed)
    (count : Nat) :
    ∃ next after,
      calls schedule runtime order maxResults maxScan clock (scheduler, store) count =
        (next, after) ∧ after.Keyed ∧
      reached order after runtime maxResults maxScan =
        reached order store runtime maxResults maxScan ∧
      (∀ flowId ∉ reached order store runtime maxResults maxScan, after flowId = store flowId) ∧
      (0 < count → ∀ flowId ∈ reached order store runtime maxResults maxScan,
        ∀ continuation, after flowId = some continuation →
          continuation.state.flowType = runtime.definition.name → ¬continuation.Orphan) := by
  induction count with
  | zero => exact ⟨scheduler, store, rfl, keyed, rfl, fun _ _ => rfl, fun none_made => by omega⟩
  | succ count ih =>
    obtain ⟨next, middle, made, middle_keyed, same, untouched, -⟩ := ih
    obtain ⟨last, after, called, registers⟩ := reconcileDelayedSuspensions_spec schedule
      runtime order maxResults maxScan (clock count) next middle_keyed
    have reached_eq : reached order after runtime maxResults maxScan =
        reached order middle runtime maxResults maxScan := by
      rw [reached, window, registers.query_eq, registers.passable_eq]
      rfl
    rw [same] at registers reached_eq
    refine ⟨last, after, by rw [calls, made, called], registers.keyed middle_keyed, reached_eq,
      fun flowId unreached => ?_, fun _ => registers.registered⟩
    rw [registers.untouched flowId unreached, untouched flowId unreached]

end

lemma flowType_of_reached {order maxResults maxScan} (keyed : store.Keyed)
    (member : flowId ∈ reached order store runtime maxResults maxScan)
    (held : store flowId = some continuation) :
    continuation.state.flowType = runtime.definition.name := by
  have windowed := takeWhile_subset _ member
  unfold window query at windowed
  cases limits : checkLimits maxResults maxScan with
  | error =>
    simp only [limits, bind, Except.bind] at windowed
    cases windowed
  | ok =>
    simp only [limits, bind, Except.bind] at windowed
    obtain ⟨found, taken, id_eq⟩ := mem_map.mp windowed
    obtain ⟨scanned, matches_query⟩ := mem_filter.mp (mem_of_mem_take taken)
    obtain ⟨key, -, found_held⟩ := mem_filterMap.mp scanned
    have key_eq : key = flowId := (keyed key found found_held).symm.trans id_eq
    rw [key_eq, held] at found_held
    cases found_held
    simp only [isMatch, Bool.and_eq_true, beq_iff_eq] at matches_query
    exact matches_query.2

/-- Repeated calls leave no orphan exactly when one call reaches every orphan: it lies in the window
of the query, behind no flow that is unreadable or an orphan at the last version. -/
theorem eventually_registered_iff {σ : Type*} (schedule : Schedule σ) (runtime : FlowRuntime)
    (order : List String) (maxResults maxScan : Nat) (clock : Nat → Nat) (scheduler : σ)
    {store : Store} (keyed : store.Keyed) :
    (∃ count, ∀ flowId continuation,
        (calls schedule runtime order maxResults maxScan clock (scheduler, store) count).2 flowId =
          some continuation → ¬continuation.Orphan) ↔
      ∀ flowId continuation, store flowId = some continuation → continuation.Orphan →
        flowId ∈ reached order store runtime maxResults maxScan := by
  constructor
  · rintro ⟨count, settled⟩ flowId continuation held orphan
    by_contra unreached
    obtain ⟨next, after, made, -, -, untouched, -⟩ :=
      calls_spec schedule runtime order maxResults maxScan clock scheduler keyed count
    rw [made] at settled
    exact settled flowId continuation ((untouched flowId unreached).trans held) orphan
  · intro all_reached
    obtain ⟨next, after, made, after_keyed, reached_eq, untouched, registered⟩ :=
      calls_spec schedule runtime order maxResults maxScan clock scheduler keyed 1
    refine ⟨1, fun flowId continuation held orphan => ?_⟩
    rw [made] at held
    by_cases member : flowId ∈ reached order store runtime maxResults maxScan
    · have same_type := flowType_of_reached after_keyed (reached_eq ▸ member) held
      exact registered Nat.one_pos flowId member continuation held same_type orphan
    · exact member (all_reached flowId continuation ((untouched flowId member).symm.trans held)
        orphan)

private def delayed (flowId : String) (scheduleId : Option ScheduleId) : FlowContinuation :=
  { FlowContinuation.new (FlowState.suspended (.new flowId "order" [] "node" 0)) "ship" 0 with
    resumeAt := some 10, scheduleId }

private def twoFlows : Store := fun flowId =>
  if flowId = "a" then some (delayed "a" (some ⟨0⟩))
  else if flowId = "b" then some (delayed "b" none)
  else none

private lemma twoFlows_cases (held : twoFlows flowId = some continuation) :
    flowId = "a" ∧ continuation = delayed "a" (some ⟨0⟩) ∨
      flowId = "b" ∧ continuation = delayed "b" none := by
  unfold twoFlows at held
  split_ifs at held with first second
  · exact .inl ⟨first, (Option.some.inj held).symm⟩
  · exact .inr ⟨second, (Option.some.inj held).symm⟩

private lemma keyed_twoFlows : twoFlows.Keyed := by
  intro flowId continuation held
  rcases twoFlows_cases held with ⟨rfl, rfl⟩ | ⟨rfl, rfl⟩ <;> rfl

private def orderRuntime : FlowRuntime :=
  { definition := { name := "order", steps := [], invalidStepNames := false }
    owner := "node", staleAfter := 1 }

private def counting : Schedule Nat := fun next _ _ _ => (next + 1, ⟨next⟩)

/-- With the orphan first in the map, a scan of one entry is enough. -/
theorem eventually_registered_within_window :
    ∃ count, ∀ flowId continuation,
      (calls counting orderRuntime ["b", "a"] 1 1 id (0, twoFlows) count).2 flowId =
        some continuation → ¬continuation.Orphan := by
  refine (eventually_registered_iff counting orderRuntime ["b", "a"] 1 1 id 0 keyed_twoFlows).mpr ?_
  intro flowId continuation held orphan
  rcases twoFlows_cases held with ⟨rfl, rfl⟩ | ⟨rfl, rfl⟩
  · exact absurd orphan (by decide)
  · decide

/-- With a registered flow before it in the map, the orphan is never found. -/
theorem orphan_beyond_window :
    twoFlows.Keyed ∧ ∀ count, ∃ continuation,
      (calls counting orderRuntime ["a", "b"] 1 1 id (0, twoFlows) count).2 "b" =
        some continuation ∧ continuation.Orphan := by
  refine ⟨keyed_twoFlows, fun count => ?_⟩
  obtain ⟨next, after, made, -, -, untouched, -⟩ :=
    calls_spec counting orderRuntime ["a", "b"] 1 1 id 0 keyed_twoFlows count
  refine ⟨delayed "b" none, ?_, by decide⟩
  rw [made]
  exact untouched "b" (by decide)

end Catga.Flow
