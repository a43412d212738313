import Catga.Dsl.Equivalence

/-!
# The level a conditional leaves behind

Inside a branch, a conditional that directly follows another one takes the level its sibling left
for its own.  A plain run evaluates its condition; a call does not, and nothing makes up for the
missing evaluation, because every effect carries the path of its step.
-/

namespace Catga.Dsl

open List Step Outcome

variable {σ : Type}

variable {step : Step σ} {merge : List σ → Action σ} {env : Env} {path : Path} {top : Nat}
  {outer : List CheckpointLevel} {index : Nat} {position : Position σ} {state : σ}

/-- A condition that `runs` evaluates and `calls` does not. -/
def Missed (calls runs : List Event) : Prop :=
  ∃ path, .evaluate path ∈ runs ∧ .evaluate path ∉ calls

section

variable {call run : Outcome Event σ}
  {nextCall nextRun : σ → Outcome Event σ} {ε : Type} {first : Outcome ε σ}

lemma log_andThen_ok {next} (ok : first.result = .ok ()) :
    (first.andThen next).log = first.log ++ (next first.state).log := by
  rw [andThen_ok ok]
  rfl

lemma mem_log_andThen_left {next effect} (member : effect ∈ first.log) :
    effect ∈ (first.andThen next).log := by
  cases result : first.result with
  | ok =>
    rw [log_andThen_ok result]
    exact mem_append_left _ member
  | error => rwa [andThen_error result]

lemma Missed.andThen (path) (index : Nat) (missed : Missed call.log run.log)
    (inside : Performs ((index :: path) <:+ ·) run.log)
    (behind : ∀ state, Performs (Under path (index + 1)) (nextCall state).log) :
    Missed (call.andThen nextCall).log (run.andThen nextRun).log := by
  obtain ⟨place, evaluated, absent⟩ := missed
  refine ⟨place, mem_log_andThen_left evaluated, fun member => ?_⟩
  rcases mem_log_andThen member with here | later
  · exact absent here
  · exact (behind _ _ later).not_before (inside _ evaluated)

lemma Missed.behind (path) (index : Nat)
    (missed : Missed (nextCall call.state).log (nextRun run.state).log)
    (ok : run.result = .ok ()) (here : Performs ((index :: path) <:+ ·) call.log)
    (inside : ∀ state, Performs (Under path (index + 1)) (nextRun state).log) :
    Missed (call.andThen nextCall).log (run.andThen nextRun).log := by
  obtain ⟨place, evaluated, absent⟩ := missed
  refine ⟨place, ?_, fun member => ?_⟩
  · rw [log_andThen_ok ok]
    exact mem_append_right _ evaluated
  · rcases mem_log_andThen member with first | later
    · exact (inside _ _ evaluated).not_before (here _ first)
    · exact absent later

lemma Missed.join {env calls runs}
    (called : calls[index]? = some call) (ran : runs[index]? = some run)
    (missed : Missed call.log run.log) (inside : Performs ((index :: path) <:+ ·) run.log)
    (each : ∀ {other outcome}, calls[other]? = some outcome →
      Performs ((other :: path) <:+ ·) outcome.log) :
    Missed (completedLog env path calls) (completedLog env path runs) := by
  obtain ⟨place, evaluated, absent⟩ := missed
  refine ⟨place, ?_, fun member => ?_⟩
  · exact mem_flatMap.mpr ⟨run, mem_completed.mpr (mem_of_getElem? ran), evaluated⟩
  · obtain ⟨outcome, completed, listed⟩ := mem_flatMap.mp member
    obtain ⟨⟨other, outcome⟩, found, rfl⟩ := mem_map.mp completed
    replace found := mem_inCompletion.mp found
    obtain rfl : other = index := child_unique (each found _ listed) (inside _ evaluated)
    rw [called] at found
    exact absent (Option.some.inj found ▸ listed)

/-- A call that does what a run does or, where the steps are not `apart`, misses a condition. -/
def Matches (apart : Bool) (call run : Outcome Event σ) : Prop :=
  if apart then call = run else Missed call.log run.log

variable {apart later whole : Bool}

lemma Matches.of_eq (same : call = run) (holds : apart = true) : Matches apart call run := by
  rwa [Matches, if_pos holds]

lemma Matches.of_missed (missed : Missed call.log run.log) (fails : apart = false) :
    Matches apart call run := by
  rwa [fails]

lemma Matches.eq (matched : Matches apart call run) (holds : apart = true) : call = run := by
  rwa [Matches, if_pos holds] at matched

lemma Matches.afterStep {hooks} (matched : Matches apart call run) :
    Matches apart (LifecycleHooks.afterStep hooks index call)
      (LifecycleHooks.afterStep hooks index run) := by
  cases apart with
  | true => exact congrArg _ matched
  | false => exact matched

lemma Matches.andThen (path) (index : Nat) (matched : Matches apart call run)
    (next : apart = true → run.result = .ok () →
      Matches later (nextCall run.state) (nextRun run.state))
    (ok : run.result = .ok () → whole = (apart && later))
    (failed : ∀ {error}, run.result = .error error → whole = apart)
    (called : Performs ((index :: path) <:+ ·) call.log)
    (ran : Performs ((index :: path) <:+ ·) run.log)
    (behindCall : ∀ state, Performs (Under path (index + 1)) (nextCall state).log)
    (behindRun : ∀ state, Performs (Under path (index + 1)) (nextRun state).log) :
    Matches whole (call.andThen nextCall) (run.andThen nextRun) := by
  cases apart with
  | false =>
    have fails : whole = false := by
      cases result : run.result with
      | ok => exact ok result
      | error => exact failed result
    exact .of_missed (Missed.andThen path index matched ran behindCall) fails
  | true =>
    obtain rfl : call = run := matched
    cases result : call.result with
    | error =>
      refine .of_eq ?_ (failed result)
      rw [andThen_error result, andThen_error result]
    | ok =>
      have behind := next rfl result
      cases later with
      | true =>
        refine .of_eq ?_ (ok result)
        rw [andThen_ok result, andThen_ok result, behind.eq rfl]
      | false =>
        exact .of_missed (Missed.behind path index behind result called behindRun) (ok result)

lemma Matches.finish {next} (matched : Matches apart call run)
    (silent : ∀ state, (next state).log = []) :
    Matches apart (call.andThen next) (run.andThen next) := by
  cases apart with
  | true =>
    obtain rfl : call = run := matched
    exact .of_eq rfl rfl
  | false =>
    obtain ⟨place, evaluated, absent⟩ := matched
    refine ⟨place, mem_log_andThen_left evaluated, fun member => ?_⟩
    rcases mem_log_andThen member with here | nothing
    · exact absent here
    · rw [silent] at nothing
      cases nothing

end

section

variable {follows : Bool} {steps : List (Step σ)}

end

lemma Matches.after {apart} {call run : Outcome Event σ} (matched : Matches apart call run)
    (inside : Performs (Under path 0) run.log) :
    Matches apart (call.after [.evaluate path]) (run.after [.evaluate path]) := by
  cases apart with
  | true => exact congrArg (Outcome.after [.evaluate path]) matched
  | false =>
    obtain ⟨place, evaluated, absent⟩ := matched
    refine ⟨place, mem_cons_of_mem _ evaluated, fun member => ?_⟩
    rcases mem_cons.mp member with same | later
    · obtain rfl : place = path := Event.evaluate.inj same
      exact (inside _ evaluated).not_self
    · exact absent later

/-- One call on an empty store does what a run does: the same effects in the same order, and the
same final state or the same error. -/
def Agrees (env : Env) (flow : DslFlow σ) (state : σ) : Prop :=
  events (flow.checkpointed env [] .empty state).log = (flow.run env [] state).log ∧
    (flow.checkpointed env [] .empty state).value = (flow.run env [] state).value

/-- Nothing is interrupted, and branches complete in the order they are declared. -/
def Env.calm : Env := { order := fun _ => [], cut := fun _ => 0, fault := fun _ => none }

def Step.add (amount : Nat) : Step Nat := .action fun count => (count + amount, .ok ())

end Catga.Dsl
