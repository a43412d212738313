import Catga.Resilience.Recovery

/-!
# The half-open probe

`CircuitBreakerBehavior` has the circuit of the executor, without its permits, and opens it again
when a probe is dropped.  In both, the flag of the probe is cleared by whoever half opens or opens
the circuit, also behind the back of a probe in flight.
-/

namespace Catga.Resilience

open Threads Transition List

variable {α : Type}

/-- The refusal of `CircuitBreakerBehavior::permit`. -/
def Task.refused : Task α → Task α
  | .returned _ => .returned (.error ⟨.transient, "circuit breaker is open"⟩)
  | task => task

/-- One atomic operation of `CircuitBreakerBehavior::handle`.  On the circuit it does what an
executor without a limit does, up to the text of the refusal.  The result of a dropped call is
seen by nobody. -/
def handle (choice : Choice α) (task : Task α) (world : World) : Option (World × Task α) :=
  match choice, task with
  | .go, .permit point =>
    (go ⟨0, 0⟩ world (.permit point)).map fun moved => (moved.1, moved.2.refused)
  | .go, .completing point result => go ⟨0, 0⟩ world (.completing point result)
  | .finish result retryable, .attempting probe =>
    act ⟨0, 0⟩ (.finish result retryable) (.attempting probe) world
  -- The guard of a probe that is not completed calls `open`.
  | .drop, .attempting probe =>
    some (world, if probe then .completing .swap (.error cancelled) else .dropped)
  | _, _ => none

/-- Who has a circuit. -/
inductive Breaker where
  | executor (options : ResilienceOptions)
  | behavior

/-- The atomic operations of the calls. -/
def Breaker.act : Breaker → Choice α → Task α → World → Option (World × Task α)
  | .executor options => Resilience.act options
  | .behavior => handle

/-- The calls beside a note whether each was admitted as the probe. -/
def Breaker.machine (breaker : Breaker) : Machine World (Task α × Bool) (Choice α) Nat Unit where
  act := fun choice call world => (breaker.act choice call.1 world).map fun moved =>
    (moved.1, moved.2, call.2 || moved.2.probing)
  env := (Resilience.machine (α := α) ⟨0, 0⟩).env
  enter := fun _ _ => (match breaker with
    | .executor _ => .acquire
    | .behavior => .permit .load, false)

/-- A probe whose call is not over. -/
def probeInFlight (call : Task α × Bool) : Bool := call.2 && call.1.inFlight

/-- A call between the two stores of `record_success`: it has cleared the flag. -/
def Task.closing : Task α → Bool
  | .completing .close _ => true
  | _ => false

/-- A call that is about to take the flag if it is free. -/
def Task.takes : Task α → Bool
  | .permit .probe => true
  | _ => false

/-- A call that has been admitted, up to its end. -/
def Task.admitted : Task α → Bool
  | .attempting _ | .completing .. | .returned _ | .dropped => true
  | _ => false

/-- Nobody clears the flag of a probe in flight but the probe, and nobody tries to take it from a
probe that is about to close the circuit. -/
def undisturbed : Label (Choice α) Nat Unit → System World (Task α × Bool) → Bool
  | .act index _, system =>
    system.threads[index]?.all fun call =>
      (!call.1.clears || (system.threads.eraseIdx index).all (!probeInFlight ·)) &&
        (!call.1.takes || system.threads.all (!·.1.closing))
  | _, _ => true

def OneProbe (system : System World (Task α × Bool)) : Prop :=
  ∀ (first second : Nat) (one two : Task α × Bool), system.threads[first]? = some one →
    system.threads[second]? = some two → probeInFlight one = true → probeInFlight two = true →
    first = second

variable {breaker : Breaker} {options : ResilienceOptions} {world after : World}
  {task next : Task α} {choice : Choice α}

/-- An action of a call is one of the executor, up to the text of a refusal, or it drops a probe. -/
lemma act_cases (moved : breaker.act choice task world = some (after, next)) :
    (∃ options raw, act options choice task world = some (after, raw) ∧
      (next = raw ∨ next = raw.refused)) ∨
    task = .attempting true ∧ after = world ∧ next = .completing .swap (.error cancelled) := by
  cases breaker with
  | executor options => exact .inl ⟨options, next, moved, .inl rfl⟩
  | behavior =>
    cases choice with
    | go =>
      cases task with
      | permit =>
        simp only [Breaker.act, handle, Option.map_eq_some_iff] at moved
        obtain ⟨raw, gone, same⟩ := moved
        cases same
        exact .inl ⟨⟨0, 0⟩, raw.2, gone, .inr rfl⟩
      | completing => exact .inl ⟨⟨0, 0⟩, next, moved, .inl rfl⟩
      | _ => cases moved
    | finish =>
      cases task with
      | attempting => exact .inl ⟨⟨0, 0⟩, next, moved, .inl rfl⟩
      | _ => cases moved
    | drop =>
      cases task with
      | attempting probe =>
        cases probe <;> cases moved
        · exact .inl ⟨⟨0, 0⟩, .dropped, rfl, .inl rfl⟩
        · exact .inr ⟨rfl, rfl, rfl⟩
      | _ => cases moved
    | cancel => cases task <;> cases moved

/-- What a call that has been admitted does: it stays so, and once it has cleared the flag it is
over or about to close the circuit. -/
structure Continues (task next : Task α) : Prop where
  busy : task.inFlight = true
  admitted : next.admitted = true
  cleared : task.clears = true → next.inFlight = false ∨ next.closing = true
  closed : task.closing = true → next.inFlight = false

/-- What an action means for the probe. -/
structure Probes (world after : World) (task next : Task α) : Prop where
  flagged : Flagged world after task next
  takes : next.probing = true → task.takes = true ∧ next.admitted = true
  continues : task.admitted = true → Continues task next

lemma continues_completing {point result}
    (moved : go options world (.completing point result) = some (after, next)) :
    next.probing = false ∧ Continues (.completing point result) next := by
  have idle : ∀ {goal : Prop}, false = true → goal := fun same => by cases same
  cases point with
  | recover =>
    cases moved
    exact ⟨rfl, rfl, rfl, fun _ => .inr rfl, idle⟩
  | close =>
    cases moved
    exact ⟨rfl, rfl, rfl, idle, fun _ => rfl⟩
  | clear =>
    cases moved
    exact ⟨rfl, rfl, rfl, fun _ => .inl rfl, idle⟩
  | stamp | store =>
    cases moved
    exact ⟨rfl, rfl, rfl, idle, idle⟩
  | record | swap =>
    simp only [go, Circuit.complete] at moved
    split_ifs at moved
    all_goals
      cases moved
      exact ⟨rfl, rfl, rfl, idle, idle⟩

lemma takes_permit {point} (moved : go options world (.permit point) = some (after, next))
    (probing : next.probing = true) :
    (.permit point : Task α).takes = true ∧ next.admitted = true := by
  cases point with
  | load =>
    simp only [go, Circuit.permit] at moved
    cases state : world.circuit.state <;> rw [state] at moved <;> cases moved <;> cases probing
  | elapsed | reset =>
    cases moved
    cases probing
  | compare | exchange =>
    simp only [go, Circuit.permit] at moved
    split_ifs at moved
    all_goals
      cases moved
      cases probing
  | probe =>
    simp only [go, Circuit.permit] at moved
    split_ifs at moved <;> cases moved
    · cases probing
    · exact ⟨rfl, rfl⟩

lemma probes_act (moved : act options choice task world = some (after, next)) :
    Probes world after task next := by
  have idle : ∀ {goal : Prop}, false = true → goal := fun same => by cases same
  have flagged := (act_effect moved).flagged
  cases choice with
  | go =>
    cases task with
    | permit => exact ⟨flagged, takes_permit moved, idle⟩
    | completing =>
      obtain ⟨waits, continues⟩ := continues_completing moved
      exact ⟨flagged, fun probing => idle (waits.symm.trans probing), fun _ => continues⟩
    | acquire | enqueue | queued =>
      simp only [act, go] at moved
      split_ifs at moved
      all_goals
        cases moved
        exact ⟨flagged, idle, idle⟩
    | leave permitted => cases permitted <;> cases moved <;> exact ⟨flagged, idle, idle⟩
    | _ => cases moved
  | finish result retryable =>
    cases task with
    | attempting probe =>
      simp only [act] at moved
      cases begins : completion probe result retryable <;> rw [begins] at moved <;> cases moved <;>
        exact ⟨flagged, idle, fun _ => ⟨rfl, rfl, idle, idle⟩⟩
    | _ => cases moved
  | cancel | drop =>
    cases task with
    | attempting =>
      cases moved <;> exact ⟨flagged, idle, fun _ => ⟨rfl, rfl, idle, idle⟩⟩
    | acquire | queued =>
      cases moved
      exact ⟨flagged, idle, idle⟩
    | _ => cases moved

lemma Probes.refused (probes : Probes world after task next) :
    Probes world after task next.refused := by
  cases next with
  | returned => exact ⟨⟨probes.flagged.admits, probes.flagged.keeps⟩, probes.takes, fun admitted =>
      { probes.continues admitted with }⟩
  | _ => exact probes

lemma Breaker.probes_act (moved : breaker.act choice task world = some (after, next)) :
    Probes world after task next := by
  obtain ⟨options, raw, acted, rfl | rfl⟩ | ⟨rfl, rfl, rfl⟩ := act_cases moved
  · exact Resilience.probes_act acted
  · exact (Resilience.probes_act acted).refused
  · refine ⟨.of_waits rfl fun _ => id, fun probing => ?_, fun _ => ⟨rfl, rfl, fun clears => ?_,
      fun closing => ?_⟩⟩
    · cases probing
    · cases clears
    · cases closing

/-- A probe holds the flag until it clears it, and no two calls in flight are probes. -/
def probeOutline : Machine.Outline World (Task α × Bool) where
  shared := fun _ => True
  thread := fun world call => call.2 = true → call.1.admitted = true ∧
    (call.1.inFlight = true → call.1.closing = false → world.circuit.halfOpenProbe = true)
  pair := fun one two => probeInFlight one = true → probeInFlight two = false

variable {system : System World (Task α × Bool)} {index rival : Nat}
  {call bystander : Task α × Bool}

lemma not_clears_beside (quiet : undisturbed (.act index choice) system = true)
    (here : system.threads[index]? = some call) (apart : rival ≠ index)
    (found : system.threads[rival]? = some bystander)
    (probing : probeInFlight bystander = true) : call.1.clears = false := by
  cases clears : call.1.clears with
  | false => rfl
  | true =>
    simp only [undisturbed, here, Option.all_some, clears, Bool.not_true, Bool.false_or,
      Bool.and_eq_true, all_eq_true] at quiet
    have idle := quiet.1 bystander (mem_eraseIdx_iff_getElem?.mpr ⟨rival, apart, found⟩)
    rw [probing] at idle
    cases idle

lemma not_closing_beside (quiet : undisturbed (.act index choice) system = true)
    (here : system.threads[index]? = some call) (takes : call.1.takes = true)
    (found : system.threads[rival]? = some bystander) : bystander.1.closing = false := by
  simp only [undisturbed, here, Option.all_some, Bool.and_eq_true, takes, Bool.not_true,
    Bool.false_or, all_eq_true, Bool.not_eq_true'] at quiet
  exact quiet.2 bystander (mem_of_getElem? found)

lemma probeOutline_valid :
    probeOutline.Valid (breaker.machine : Machine World (Task α × Bool) _ _ _)
      (fun label system => undisturbed label system) where
  own := by
    intro system index choice call next shared holds _ here moved
    obtain ⟨⟨after, task⟩, acted, same⟩ := Option.map_eq_some_iff.mp moved
    cases same
    have probes := breaker.probes_act acted
    refine ⟨trivial, fun probe => ?_⟩
    obtain before | probing := (Bool.or_eq_true ..).mp probe
    · obtain ⟨admitted, held⟩ := holds.thread here before
      have continues := probes.continues admitted
      refine ⟨continues.admitted, fun busy waits =>
        probes.flagged.keeps ?_ (held continues.busy ?_)⟩
      · by_contra clears
        obtain ended | closing := continues.cleared (by simpa using clears)
        · cases ended.symm.trans busy
        · cases closing.symm.trans waits
      · by_contra closing
        cases (continues.closed (by simpa using closing)).symm.trans busy
    · exact ⟨(probes.takes probing).2, fun _ _ => (probes.flagged.admits probing).2⟩
  other := by
    intro system index rival choice call next bystander shared holds quiet here moved apart found
    obtain ⟨⟨after, task⟩, acted, same⟩ := Option.map_eq_some_iff.mp moved
    cases same
    have probes := breaker.probes_act acted
    have flagged := probes.flagged
    have alone : probeInFlight (task, call.2 || task.probing) = true →
        probeInFlight bystander = true → False := by
      intro mine rival
      obtain before | probing := (Bool.or_eq_true ..).mp ((Bool.and_eq_true ..).mp mine).1
      · have busy := (probes.continues (holds.thread here before).1).busy
        have idle := holds.pair apart.symm here found ((Bool.and_eq_true ..).mpr ⟨before, busy⟩)
        cases idle.symm.trans rival
      · -- The flag is free only where the bystander has cleared it and closes the circuit.
        have waits := not_closing_beside quiet here (probes.takes probing).1 found
        obtain ⟨probe, busy⟩ := (Bool.and_eq_true ..).mp rival
        cases (flagged.admits probing).1.symm.trans ((holds.thread found probe).2 busy waits)
    refine ⟨fun probe => ⟨(holds.thread found probe).1, fun busy waits => ?_⟩,
      fun mine => Bool.eq_false_iff.mpr (alone mine),
      fun rival => Bool.eq_false_iff.mpr fun mine => alone mine rival⟩
    exact flagged.keeps
      (not_clears_beside quiet here apart found ((Bool.and_eq_true ..).mpr ⟨probe, busy⟩))
      ((holds.thread found probe).2 busy waits)
  env := by
    intro system time world holds _ passed
    refine ⟨trivial, fun found probing => ?_⟩
    have same : world.circuit = system.shared.circuit := by
      simp only [Breaker.machine, machine] at passed
      split_ifs at passed
      cases passed
      rfl
    rw [same]
    exact holds.thread found probing
  enter := by
    intro system request _ _
    refine ⟨fun probing => ?_, fun _ => ⟨fun probing => ?_, fun _ => rfl⟩⟩ <;> cases probing

/-- While nobody clears the flag under another probe, and nobody takes it from a probe that is about
to close the circuit, at most one probe is in flight. -/
theorem oneProbe_of_undisturbed (breaker : Breaker) (options : ResilienceOptions)
    (circuit : CircuitBreakerOptions) {labels : List (Label (Choice α) Nat Unit)}
    {system : System World (Task α × Bool)}
    (run : Runs breaker.machine.step (fun label before => undisturbed label before)
      ⟨World.new options circuit, []⟩ labels system) : OneProbe system := by
  intro first second one two here there probing admitted
  by_contra differ
  rw [(probeOutline_valid.runs trivial run).pair differ here there probing] at admitted
  cases admitted

/-- The first call opens the circuit.  Later the second one half opens it, the third one becomes the
probe, and the second one clears the flag and becomes a probe too.  A call comes to the circuit
after `entry` operations. -/
def race (entry : Nat) : List (Label (Choice Unit) Nat Unit) :=
  .spawn () :: replicate (entry + 1) (.act 0 .go) ++
    .act 0 (.finish (.error ⟨.transient, "down"⟩) true) :: replicate 5 (.act 0 .go) ++
    [.env 100, .spawn (), .spawn ()] ++ replicate (entry + 4) (.act 1 .go) ++
    replicate (entry + 2) (.act 2 .go) ++ replicate 3 (.act 1 .go)

theorem oneProbe_beside_refused :
    ∃ system : System World (Task Unit × Bool), system.threads[1]? = some (.attempting true, true) ∧
      OneProbe system := by
  obtain ⟨system, run, probing⟩ := Runs.exists_of_execWhile (Breaker.machine .behavior).step
    (fun label before => undisturbed label before = true) ⟨World.new ⟨0, 0⟩ fragile, []⟩
    ([.spawn (), .act 0 .go, .act 0 (.finish (.error ⟨.transient, "down"⟩) true)] ++
      replicate 5 (.act 0 .go) ++ [.env 100, .spawn (), .spawn ()] ++
      replicate 7 (.act 1 .go) ++ replicate 2 (.act 2 .go))
    (fun system : System World (Task Unit × Bool) =>
      system.threads[1]? = some (.attempting true, true))
    (by decide)
  exact ⟨system, probing, oneProbe_of_undisturbed .behavior ⟨0, 0⟩ fragile run⟩

theorem two_probes :
    (∃ system : System World (Task Unit × Bool), Runs (Breaker.machine .behavior).step
        (fun _ _ => True) ⟨World.new ⟨0, 0⟩ fragile, []⟩ (race 0) system ∧ ¬OneProbe system) ∧
      ∃ system : System World (Task Unit × Bool), Runs (Breaker.machine (.executor ⟨0, 0⟩)).step
        (fun _ _ => True) ⟨World.new ⟨0, 0⟩ fragile, []⟩ (race 1) system ∧ ¬OneProbe system := by
  have both : ∀ {system : System World (Task Unit × Bool)},
      system.threads[1]? = some (.attempting true, true) ∧
        system.threads[2]? = some (.attempting true, true) →
      ¬OneProbe system := by
    intro system here one
    have same := one 1 2 _ _ here.1 here.2 rfl rfl
    omega
  exact ⟨Runs.exists_of_test _ (by decide) fun _ => both,
    Runs.exists_of_test _ (by decide) fun _ => both⟩

end Catga.Resilience
