import Catga.Flow.ExecutorLedger

/-!
# Agreement of flow executors

What a call relies on in each of its phases, and that no step of another call spoils it.  So a
result is stored only by the call that claimed the flow last, nothing is written to a flow that has
one, and every call that returns a result returns the stored one.  Only the duration of the work is
not part of what is stored.
-/

namespace Catga.Flow.Executor

open Transition Call List Option World

variable {outcome : CatgaResult FlowResult} {labels : List Label} {later : World}

/-- The flow a call was made for, if it was made for one. -/
def Purpose.Concerns (purpose : Purpose) (id : String) : Prop :=
  ∀ own supervised, purpose = .execute own supervised → own = id

/-- A flow was seen unfinished: it still is at that version, or has moved on. -/
def Seen (flows : Flows) (current : FlowState) : Prop :=
  current.status.isTerminal = false ∧ ∃ state, flows current.id = some state ∧
    (current.version < state.version ∨
      (state.version = current.version ∧ state.status.isTerminal = false))

def Stored (flows : Flows) (id : String) (result : FlowResult) : Prop :=
  ∃ state, flows id = some state ∧ state.status.isTerminal = true ∧
    terminalResult state = some (.ok result.untimed)

def Call.Sound (flows : Flows) (history : List Event) (index : Nat) (call : Call) : Prop :=
  match call.phase with
  | .creating initial => initial.status.isTerminal = false ∧ call.purpose.Concerns initial.id
  | .loading initial => call.purpose.Concerns initial.id
  | .deciding initial current | .stamping initial current =>
    Seen flows current ∧ current.id = initial.id ∧ call.purpose.Concerns initial.id
  | .claiming initial current claimed =>
    Seen flows current ∧ current.id = initial.id ∧ call.purpose.Concerns initial.id ∧
      claimed.id = current.id ∧ claimed.version = current.version + 1 ∧
      claimed.status.isTerminal = false
  | .reloading id => call.purpose.Concerns id
  | .sweeping => ∀ id, call.purpose.Concerns id
  | .working state | .beating state =>
    .claimed index state.id state.version ∈ history ∧ call.purpose.Concerns state.id
  | .persisting state current next result =>
    .claimed index state.id state.version ∈ history ∧ call.purpose.Concerns state.id ∧
      current.id = state.id ∧ Concludes state next result
  | .observing state current _ =>
    .claimed index state.id state.version ∈ history ∧ call.purpose.Concerns state.id ∧
      current.id = state.id
  | .returned (.ok (.result result)) =>
    ∀ id supervised, call.purpose = .execute id supervised → Stored flows id result
  | .probing _ _ | .returned _ => True

section

variable {flows after : Flows} {history later : List Event} {index : Nat} {call : Call}
  {current : FlowState}

lemma Seen.advances (seen : Seen flows current) (advances : Advances flows after) :
    Seen after current := by
  obtain ⟨unfinished, state, held, behind⟩ := seen
  obtain ⟨next, next_held, -, moved⟩ := advances current.id state held
  refine ⟨unfinished, next, next_held, ?_⟩
  rcases moved with ahead | ⟨same, status⟩
  · exact .inl (by omega)
  · rw [same, status]
    exact behind

variable {id : String} {result : FlowResult} {state : FlowState} {next : Call} {service : Service}
  {request : Request} {response : Response} {written : Option FlowState}

lemma Stored.advances (stored : Stored flows id result) (advances : Advances flows after) :
    Stored after id result := by
  obtain ⟨state, held, ended, outcome⟩ := stored
  obtain ⟨next, next_held, kept, -⟩ := advances id state held
  obtain rfl := kept ended
  exact ⟨next, next_held, ended, outcome⟩

lemma Call.Sound.stable (sound : call.Sound flows history index) (advances : Advances flows after)
    (extended : ∀ event ∈ history, event ∈ later) : call.Sound after later index := by
  obtain ⟨executor, purpose, phase⟩ := call
  cases phase with
  | creating => exact sound
  | loading => exact sound
  | deciding | stamping | claiming => exact ⟨sound.1.advances advances, sound.2⟩
  | reloading => exact sound
  | sweeping => exact sound
  | working => exact ⟨extended _ sound.1, sound.2⟩
  | beating => exact ⟨extended _ sound.1, sound.2⟩
  | persisting => exact ⟨extended _ sound.1, sound.2⟩
  | observing => exact ⟨extended _ sound.1, sound.2⟩
  | probing => trivial
  | returned outcome =>
    cases outcome with
    | error => trivial
    | ok answer =>
      cases answer with
      | result =>
        exact fun id supervised made => (sound id supervised made).advances advances
      | recovered => trivial
      | beat => trivial

lemma stored_of_terminalResult (held : flows id = some state)
    (ended : state.status.isTerminal = true) (read : terminalResult state = some (.ok result)) :
    Stored flows id result := ⟨state, held, ended, (untimed_of_terminalResult read).symm ▸ read⟩

lemma Call.returned_sound (concerns : call.purpose.Concerns id)
    (stored : ∀ result, outcome = .ok result → Stored flows id result) :
    (call.goto (.returned (outcome.map .result))).Sound flows history index := by
  cases outcome with
  | error => trivial
  | ok result =>
    intro own supervised made
    rw [concerns own supervised made]
    exact stored result rfl

lemma Call.sweep_sound (flowType : String) (maxClaims recovered : Nat) :
    (call.sweep flowType maxClaims recovered).Sound flows history index := by
  simp only [Call.sweep]
  split
  · intro id own supervised made
    cases made
  · trivial

lemma Call.conclude_sound (concerns : call.purpose.Concerns id)
    (stored : ∀ result, outcome = .ok result → Stored flows id result) :
    (call.conclude outcome).Sound flows history index := by
  obtain ⟨executor, purpose, phase⟩ := call
  cases outcome with
  | error => trivial
  | ok =>
    cases purpose with
    | execute => exact returned_sound concerns stored
    | recoverStale => exact sweep_sound ..
    | heartbeat => exact returned_sound concerns stored

lemma Call.persist_sound (claimed : .claimed index state.id state.version ∈ history)
    (concerns : call.purpose.Concerns state.id) (same_id : current.id = state.id)
    (same_version : current.version = state.version) :
    (call.persist state current result).Sound flows history index := by
  simp only [Call.persist]
  cases concluded : terminalState current result with
  | error => trivial
  | ok =>
    have concludes := terminalState_eq_ok concluded
    exact ⟨claimed, concerns, same_id, { concludes with
        id := concludes.id.trans same_id
        version := same_version ▸ concludes.version }⟩

lemma Call.proceed_sound {now progress}
    (sound : call.Sound flows history index) (moved : call.proceed now progress = some next) :
    next.Sound flows history index := by
  obtain ⟨executor, purpose, phase⟩ := call
  cases phase with
  | deciding =>
    cases progress with
    | proceed =>
      cases moved
      split
      · exact sound
      · trivial
    | _ => cases moved
  | stamping initial current =>
    cases progress with
    | proceed =>
      cases moved
      cases stamped : (current.claimedBy executor.owner now).nextVersion with
      | error => trivial
      | ok =>
        obtain ⟨-, rfl⟩ := FlowState.nextVersion_eq_ok.mp stamped
        exact ⟨sound.1, sound.2.1, sound.2.2, rfl, rfl, sound.1.1⟩
    | _ => cases moved
  | working =>
    cases progress with
    | proceed => cases moved
    | finish =>
      cases moved
      exact persist_sound sound.1 sound.2 rfl rfl
    | beat =>
      simp only [Call.proceed] at moved
      split at moved <;> cases moved
      exact sound
    | cancel =>
      simp only [Call.proceed] at moved
      split at moved <;> cases moved
      trivial
  | _ => cases moved

lemma Call.settled_sound (held : flows id = some current) {settled}
    (concerns : call.purpose.Concerns id) (ended : settledResult current = some settled) :
    (call.goto (.returned (settled.map .result))).Sound flows history index := by
  obtain ⟨terminal, read⟩ := settledResult_eq_some ended
  refine returned_sound concerns ?_
  rintro result rfl
  exact stored_of_terminalResult held terminal read

lemma Call.load_sound {initial} (ledger : Ledger flows history)
    (concerns : call.purpose.Concerns initial.id) :
    (call.load initial (flows initial.id)).Sound flows history index := by
  cases held : flows initial.id with
  | none => trivial
  | some current =>
    simp only [Call.load]
    split
    · trivial
    · split
      · trivial
      · cases settled : Call.settledResult current with
        | some => exact settled_sound held concerns settled
        | none =>
          have unfinished := settledResult_eq_none settled
          have same_id := ledger.keyed held
          refine ⟨⟨unfinished, current, same_id ▸ held, .inr ⟨rfl, unfinished⟩⟩, same_id, concerns⟩

lemma Call.reload_sound (concerns : call.purpose.Concerns id) :
    (call.reload (flows id)).Sound flows history index := by
  cases held : flows id with
  | none => trivial
  | some current =>
    simp only [Call.reload]
    split
    · trivial
    · cases settled : Call.settledResult current with
      | some => exact settled_sound held concerns settled
      | none => trivial

lemma Call.observe_sound (ledger : Ledger flows history)
    (claimed : .claimed index state.id state.version ∈ history)
    (concerns : call.purpose.Concerns state.id) :
    (call.observe state result (flows state.id)).Sound flows history index := by
  cases held : flows state.id with
  | none => trivial
  | some observed =>
    simp only [Call.observe]
    split
    · trivial
    · split
      · rename_i ended
        cases read : terminalResult observed with
        | none => trivial
        | some =>
          refine conclude_sound concerns ?_
          rintro own rfl
          exact stored_of_terminalResult held ended read
      · split_ifs with retained
        · exact persist_sound claimed concerns (ledger.keyed held) retained.2.2
        · trivial

/-- What the store may answer and write. -/
inductive Served (flows : Flows) (service : Service) : Request → Response → Option FlowState → Prop
  | created {state : FlowState} : flows state.id = none →
      Served flows service (.create state) (.flag true) (some state)
  | occupied (state : FlowState) : Served flows service (.create state) (.flag false) none
  | got (id : String) : Served flows service (.get id) (.found (flows id)) none
  | updated {expectedVersion current next} : flows next.id = some current →
      current.version = expectedVersion →
      Served flows service (.update expectedVersion next) (.flag true) (some next)
  | kept (expectedVersion : Nat) (next : FlowState) :
      Served flows service (.update expectedVersion next) (.flag false) none
  | unclaimed (flowType owner : String) (staleAfter : Nat) :
      Served flows service (.tryClaim flowType owner staleAfter) (.found none) none
  | exhausted (flowType owner : String) (staleAfter : Nat) (error : CatgaError) :
      Served flows service (.tryClaim flowType owner staleAfter) (.failed error) none
  | claimed {flowType owner id staleAfter current next} :
      flows id = some current → current.status = .running →
      isStale current.heartbeat service.now staleAfter = true →
      (current.claimedBy owner service.now).nextVersion = .ok next →
      Served flows service (.tryClaim flowType owner staleAfter) (.found (some next)) (some next)
  | beat {id owner version current} : flows id = some current →
      current.owner = some owner → current.version = version →
      Served flows service (.heartbeat id owner version) (.flag true)
        (some (current.heartbeatedAt service.now))
  | missed (id owner : String) (version : Nat) :
      Served flows service (.heartbeat id owner version) (.flag false) none

lemma served_of_serve (answered : flows.serve service request = some (response, written)) :
    Served flows service request response written := by
  cases request with
  | create state =>
    simp only [Flows.serve] at answered
    split at answered <;> cases answered
    · rename_i absent
      exact .created absent
    · exact .occupied state
  | get id =>
    cases answered
    exact .got id
  | update expectedVersion next =>
    simp only [Flows.serve] at answered
    split at answered
    · cases answered
      exact .kept expectedVersion next
    · rename_i current held
      split at answered
      · cases answered
        exact .kept expectedVersion next
      · split at answered <;> cases answered
        · rename_i admitted
          exact .updated held admitted.1
        · exact .kept expectedVersion next
  | tryClaim flowType owner staleAfter =>
    simp only [Flows.serve] at answered
    split at answered
    · cases answered
      exact .unclaimed flowType owner staleAfter
    · obtain ⟨current, held, claimed⟩ := bind_eq_some_iff.mp answered
      split at claimed
      · rename_i stale
        split at claimed <;> cases claimed
        · rename_i next stamped
          exact .claimed held stale.2.1 stale.2.2 stamped
        · rename_i error _
          exact .exhausted flowType owner staleAfter error
      · cases claimed
  | heartbeat id owner version =>
    simp only [Flows.serve] at answered
    split at answered
    · cases answered
      exact .missed id owner version
    · rename_i current held
      split at answered <;> cases answered
      · rename_i owned
        exact .beat held owned.1 owned.2
      · exact .missed id owner version

/-- A request is served, or it fails, with or without its effect. -/
lemma served_of_answer (answered : flows.answer service request = some (response, written)) :
    ∃ own change, Served flows service request own change ∧
      ((response = own ∧ written = change) ∨
        (∃ error, response = .failed error) ∧ (written = change ∨ written = none)) := by
  obtain ⟨⟨own, change⟩, served, faulted⟩ := bind_eq_some_iff.mp answered
  refine ⟨own, change, served_of_serve served, ?_⟩
  cases fault : service.fault with
  | none =>
    simp only [fault] at faulted
    cases faulted
    exact .inl ⟨rfl, rfl⟩
  | some failure =>
    obtain ⟨error, applied⟩ := failure
    simp only [fault] at faulted
    cases faulted
    refine .inr ⟨⟨error, rfl⟩, ?_⟩
    cases applied with
    | true => exact .inl rfl
    | false => exact .inr rfl

lemma effect_of_served (ledger : Ledger flows history) (sound : call.Sound flows history index)
    (requested : call.request = some request)
    (served : Served flows service request response written) :
    Effect index flows history ((written.map flows.put).getD flows)
      (history ++ call.events index written) := by
  obtain ⟨executor, purpose, phase⟩ := call
  cases served with
  | created absent =>
    obtain rfl := request_create requested
    exact .created absent sound.1
  | @updated _ current next held at_version =>
    obtain ⟨initial, seen, rfl, rfl⟩ | ⟨state, base, result, rfl, rfl⟩ :=
      request_update requested
    · obtain ⟨⟨-, state, seen_held, behind⟩, -, -, same_id, advanced, running⟩ := sound
      rw [same_id, seen_held] at held
      cases held
      have unfinished := (behind.resolve_left (by omega)).2
      exact .taken (same_id ▸ seen_held) unfinished running (at_version ▸ advanced)
    · obtain ⟨claimed, -, -, concludes⟩ := sound
      exact .concluded held at_version (concludes.id ▸ claimed) concludes
  | @claimed _ _ id _ current next held running stale stamped =>
    obtain ⟨rfl, -, -, maxClaims, recovered, rfl⟩ := request_tryClaim requested
    obtain ⟨-, rfl⟩ := FlowState.nextVersion_eq_ok.mp stamped
    have same_id := ledger.keyed held
    have own_held : flows current.id = some current := same_id ▸ held
    have unfinished : current.status.isTerminal = false := by
      rw [running]
      rfl
    exact .taken own_held unfinished unfinished rfl
  | @beat id owner version current held owned at_version =>
    have events_eq : Call.events ⟨executor, purpose, phase⟩ index
        (some (current.heartbeatedAt service.now)) = [] := by
      obtain ⟨-, ⟨state, rfl, -⟩ | rfl⟩ := request_heartbeat requested <;> rfl
    rw [events_eq, append_nil]
    exact .renewed service.now held owned
  | _ =>
    simp only [Call.events, append_nil, map_none, getD_none]
    exact .unchanged

lemma Call.failed_sound {error}
    (responded : call.respond (.failed error) = some next) : next.Sound after later index := by
  obtain ⟨executor, purpose, phase⟩ := call
  cases phase with
  | returned => cases responded
  | _ =>
    cases responded
    trivial

section

variable (ledger : Ledger flows history) (sound : call.Sound flows history index)
  (requested : call.request = some request) (responded : call.respond response = some next)
include ledger sound requested responded

lemma Call.respond_sound (served : Served flows service request response written) :
    next.Sound ((written.map flows.put).getD flows)
      (history ++ call.events index written) index := by
  obtain ⟨executor, purpose, phase⟩ := call
  cases served with
  | created =>
    obtain rfl := request_create requested
    cases responded
    exact ⟨mem_append_right history mem_cons_self, sound.2⟩
  | occupied =>
    obtain rfl := request_create requested
    cases responded
    exact sound.2
  | got =>
    simp only [Call.events, append_nil, map_none, getD_none]
    obtain ⟨initial, rfl, rfl⟩ | rfl | ⟨state, current, result, rfl, rfl⟩ :=
      request_get requested
    · cases responded
      exact load_sound ledger sound
    · cases responded
      exact reload_sound sound
    · obtain ⟨claimed, concerns, same_id⟩ := sound
      cases responded
      rw [same_id]
      exact observe_sound ledger claimed concerns
  | @updated _ current next held at_version =>
    obtain ⟨initial, seen, rfl, rfl⟩ | ⟨state, base, result, rfl, rfl⟩ :=
      request_update requested
    · obtain ⟨-, seen_id, concerns, same_id, -, -⟩ := sound
      cases responded
      refine ⟨mem_append_right history mem_cons_self, ?_⟩
      rw [same_id, seen_id]
      exact concerns
    · obtain ⟨-, concerns, -, concludes⟩ := sound
      cases responded
      refine conclude_sound concerns ?_
      rintro own ⟨⟩
      exact ⟨next, concludes.id ▸ flows.put_self next, concludes.terminal, concludes.outcome⟩
  | kept expectedVersion state =>
    simp only [Call.events, append_nil, map_none, getD_none]
    obtain ⟨initial, seen, rfl, rfl⟩ | ⟨state, base, result, rfl, rfl⟩ :=
      request_update requested
    · cases responded
      exact sound.2.2.1
    · cases responded
      exact ⟨sound.1, sound.2.1, sound.2.2.1⟩
  | unclaimed =>
    obtain ⟨rfl, -, -, maxClaims, recovered, rfl⟩ := request_tryClaim requested
    cases responded
    trivial
  | exhausted => exact failed_sound responded
  | @claimed _ _ id _ current next held running stale stamped =>
    obtain ⟨rfl, -, -, maxClaims, recovered, rfl⟩ := request_tryClaim requested
    cases responded
    simp only [Call.claimed]
    split
    · trivial
    · exact ⟨mem_append_right history mem_cons_self, sound next.id⟩
  | beat =>
    obtain ⟨-, ⟨state, rfl, -⟩ | rfl⟩ := request_heartbeat requested
    · cases responded
      exact ⟨mem_append_left _ sound.1, sound.2⟩
    · cases responded
      trivial
  | missed =>
    obtain ⟨-, ⟨state, rfl, -⟩ | rfl⟩ := request_heartbeat requested
    all_goals
      cases responded
      trivial

lemma Call.serve_sound (answered : flows.answer service request = some (response, written)) :
    Effect index flows history ((written.map flows.put).getD flows)
        (history ++ call.events index written) ∧
      next.Sound ((written.map flows.put).getD flows)
        (history ++ call.events index written) index := by
  obtain ⟨own, change, served, outcome⟩ := served_of_answer answered
  have effect := effect_of_served ledger sound requested served
  obtain ⟨rfl, rfl⟩ | ⟨⟨error, rfl⟩, rfl | rfl⟩ := outcome
  · exact ⟨effect, respond_sound ledger sound requested responded served⟩
  · exact ⟨effect, failed_sound responded⟩
  · refine ⟨?_, failed_sound responded⟩
    simp only [Call.events, append_nil, map_none, getD_none]
    exact .unchanged

end

lemma Call.enter_sound (executor) (now : Nat) (task) :
    (Call.enter executor now task).Sound flows history index := by
  cases task with
  | execute =>
    simp only [Call.enter]
    split
    · refine ⟨rfl, ?_⟩
      rintro own other ⟨⟩
      rfl
    · trivial
  | recoverStale => exact sweep_sound ..
  | heartbeat => trivial

end

/-- What holds of every state. -/
structure World.Sound (world : World) : Prop where
  ledger : Ledger world.flows world.history
  calls : ∀ {index : Nat} {call : Call}, world.calls[index]? = some call →
    call.Sound world.flows world.history index

lemma World.initial_sound : initial.Sound where
  ledger :=
    { keyed := by rintro id state ⟨⟩
      unowned := by rintro id state ⟨⟩
      absent := fun _ event listed => absurd listed not_mem_nil
      unfinished := by rintro id state ⟨⟩
      finished := by rintro id state index version ⟨⟩
      bounded := by rintro id state index version ⟨⟩
      unique := fun listed => absurd listed not_mem_nil
      fenced := by
        intro before index id result after split
        exact absurd split.symm (by simp [initial]) }
  calls := fun found => by simp [initial] at found

variable {world : World}

lemma World.step_sound {after label} (sound : world.Sound)
    (taken : step label world = some after) :
    Advances world.flows after.flows ∧ after.Sound := by
  cases label with
  | start executor now task =>
    cases taken
    refine ⟨.refl _, sound.ledger, fun {index call} found => ?_⟩
    obtain ⟨-, rfl⟩ | found := Threads.Machine.getElem?_concat_cases found
    · exact enter_sound executor now task
    · exact sound.calls found
  | proceed =>
    obtain ⟨call, here, moved⟩ := bind_eq_some_iff.mp taken
    obtain ⟨next, proceeded, returned⟩ := bind_eq_some_iff.mp moved
    cases returned
    refine ⟨.refl _, sound.ledger, fun {other thread} found => ?_⟩
    obtain ⟨rfl, rfl⟩ | ⟨-, found⟩ := Threads.Machine.getElem?_set_cases found
    · exact proceed_sound (sound.calls here) proceeded
    · exact sound.calls found
  | serve =>
    obtain ⟨call, here, asked⟩ := bind_eq_some_iff.mp taken
    obtain ⟨request, requested, served⟩ := bind_eq_some_iff.mp asked
    obtain ⟨⟨response, written⟩, answered, continued⟩ := bind_eq_some_iff.mp served
    obtain ⟨next, responded, returned⟩ := bind_eq_some_iff.mp continued
    cases returned
    obtain ⟨effect, next_sound⟩ :=
      serve_sound sound.ledger (sound.calls here) requested responded answered
    have advances := effect.advances sound.ledger
    refine ⟨advances, effect.ledger sound.ledger, fun {other thread} found => ?_⟩
    obtain ⟨rfl, rfl⟩ | ⟨-, found⟩ := Threads.Machine.getElem?_set_cases found
    · exact next_sound
    · exact (sound.calls found).stable advances effect.extends

lemma World.Sound.runs (sound : world.Sound)
    (run : Runs step anySchedule world labels later) : later.Sound :=
  run.invariant sound fun before _ taken => (step_sound before taken).2

lemma World.Sound.ended_stays (sound : world.Sound)
    (run : Runs step anySchedule world labels later) {id state}
    (held : world.flows id = some state) (ended : state.status.isTerminal = true) :
    later.flows id = some state := by
  induction run with
  | nil => exact held
  | snoc earlier _ taken ih =>
    obtain ⟨advances, -⟩ := step_sound (sound.runs earlier) taken
    obtain ⟨next, next_held, unchanged, -⟩ := advances id state ih
    exact unchanged ended ▸ next_held

def World.Returned (world : World) (id : String) (result : FlowResult) : Prop :=
  ∃ call ∈ world.calls, (∃ supervised, call.purpose = .execute id supervised) ∧
    call.phase = .returned (.ok (.result result))
deriving Decidable

lemma World.Sound.stored (sound : world.Sound) {id result}
    (returned : world.Returned id result) : Stored world.flows id result := by
  obtain ⟨call, listed, ⟨supervised, made⟩, finished⟩ := returned
  obtain ⟨index, found⟩ := mem_iff_getElem?.mp listed
  have call_sound := sound.calls found
  simp only [Call.Sound, finished] at call_sound
  exact call_sound id supervised made

/-- The calls that return a result of a flow agree on it up to the time the work took; it is the
stored one, what has ended is never replaced, and only the call that claimed the flow last stores a
result. -/
theorem executors_agree {labels : List Label} {world : World}
    (run : Runs World.step anySchedule World.initial labels world) (id : String) :
    (∀ result, world.Returned id result → ∃ state, world.flows id = some state ∧
      state.status.isTerminal = true ∧ terminalResult state = some (.ok result.untimed)) ∧
    (∀ result other, world.Returned id result → world.Returned id other →
      result.untimed = other.untimed) ∧
    (∀ state, world.flows id = some state → state.status.isTerminal = true →
      ∀ more later, Runs World.step anySchedule world more later → later.flows id = some state) ∧
    ∀ before index result after, world.history = before ++ .ended index id result :: after →
      (∃ version, lastClaim id before = some (index, version)) ∧
        ∀ event ∈ after, event.id ≠ id := by
  have sound := World.initial_sound.runs run
  refine ⟨fun result returned => sound.stored returned, ?_, ?_, ?_⟩
  · intro result other returned returned'
    obtain ⟨state, held, -, outcome⟩ := sound.stored returned
    obtain ⟨state', held', -, outcome'⟩ := sound.stored returned'
    rw [held] at held'
    cases held'
    rw [outcome] at outcome'
    exact Except.ok.inj (Option.some.inj outcome')
  · intro state held ended more later further
    exact sound.ended_stays further held ended
  · intro before index result after split
    exact sound.ledger.fenced before index id result after split

def promptly : Service := { now := 0, pick := none, lost := false, fault := none }

/-- Executors of one flow: the first creates it and stores a result that took five time units, the
second reads that result. -/
def firstAndSecond : List Label :=
  [.start ⟨"a", 10⟩ 0 (.execute "f" "order" [] false), .serve 0 promptly,
    .proceed 0 0 (.finish (.ok (.ok 1 5))), .serve 0 promptly,
    .start ⟨"b", 10⟩ 1 (.execute "f" "order" [] false), .serve 1 promptly, .serve 1 promptly]

lemma firstAndSecond_returned : ∃ world,
    Runs step anySchedule initial firstAndSecond world ∧
      (world.Returned "f" (.ok 1 5) ∧ world.Returned "f" (.ok 1 0)) :=
  Runs.exists_of_execWhile _ _ _ _ _ (by decide)

theorem executors_agree_on_first : ∃ world,
    Runs World.step anySchedule World.initial firstAndSecond world ∧
      world.Returned "f" (.ok 1 5) ∧ world.Returned "f" (.ok 1 0) ∧
      FlowResult.untimed (.ok 1 5) = FlowResult.untimed (.ok 1 0) := by
  obtain ⟨world, run, first, second⟩ := firstAndSecond_returned
  exact ⟨world, run, first, second, (executors_agree run "f").2.1 _ _ first second⟩

/-- The results that the two calls return are not equal: they differ in the time they report. -/
theorem executors_report_other_times : ∃ world,
    Runs World.step anySchedule World.initial firstAndSecond world ∧
      ∃ result other, world.Returned "f" result ∧ world.Returned "f" other ∧ result ≠ other := by
  obtain ⟨world, run, first, second⟩ := firstAndSecond_returned
  exact ⟨world, run, _, _, first, second, by decide⟩

end Catga.Flow.Executor
