import Mathlib.Data.List.Basic

/-!
# Guarded runs of labelled machines

A machine is a partial step function `step : ℓ → σ → Option σ`; a label that is not enabled in a
state yields `none`.  A guarded run takes labels only in states where a guard admits them.  Safety
of all guarded runs reduces to one preservation statement per label.
-/

namespace Transition

variable {σ ℓ : Type*}

/-- `Runs step guard start labels finish`: from `start` the machine takes exactly `labels`, each
of them enabled and admitted by `guard` in the state it is taken from, and ends in `finish`. -/
inductive Runs (step : ℓ → σ → Option σ) (guard : ℓ → σ → Prop) (start : σ) :
    List ℓ → σ → Prop
  | nil : Runs step guard start [] start
  | snoc {labels label before after} : Runs step guard start labels before →
      guard label before →
      step label before = some after →
      Runs step guard start (labels ++ [label]) after

/-- Execute a list of labels, stopping at the first one that is refused. -/
def execWhile (step : ℓ → σ → Option σ) (guard : ℓ → σ → Prop)
    [∀ label state, Decidable (guard label state)] : List ℓ → σ → Option σ
  | [], state => some state
  | label :: labels, state =>
    if guard label state then (step label state).bind (execWhile step guard labels) else none

namespace Runs

variable {step : ℓ → σ → Option σ} {guard : ℓ → σ → Prop} {start finish : σ} {labels : List ℓ}

/-- A property that holds at the start and that every admitted step preserves holds after every
guarded run. -/
lemma invariant {holds : σ → Prop} (initial : holds start)
    (preserved : ∀ {label before after}, holds before → guard label before →
      step label before = some after → holds after)
    (run : Runs step guard start labels finish) : holds finish := by
  induction run with
  | nil => exact initial
  | snoc _ admitted taken ih => exact preserved ih admitted taken

lemma mono {weaker}
    (weaken : ∀ {label state}, guard label state → weaker label state)
    (run : Runs step guard start labels finish) : Runs step weaker start labels finish := by
  induction run with
  | nil => exact .nil
  | snoc _ admitted taken ih => exact .snoc ih (weaken admitted) taken

lemma cons {label middle} (admitted : guard label start)
    (taken : step label start = some middle) (run : Runs step guard middle labels finish) :
    Runs step guard start (label :: labels) finish := by
  induction run with
  | nil => exact Runs.nil.snoc admitted taken
  | snoc _ later_admitted later_taken ih =>
    exact .snoc ih later_admitted later_taken

lemma of_execWhile [∀ label state, Decidable (guard label state)]
    (execution : execWhile step guard labels start = some finish) :
    Runs step guard start labels finish := by
  induction labels generalizing start with
  | nil =>
    have reached : start = finish := by simpa [execWhile] using execution
    subst reached
    exact .nil
  | cons label labels ih =>
    simp only [execWhile] at execution
    split at execution
    · rename_i admitted
      obtain ⟨middle, taken, later⟩ := Option.bind_eq_some_iff.mp execution
      exact .cons admitted taken (ih later)
    · cases execution

/-- A computed execution whose end state passes a decidable test exhibits a guarded run to a
state with that property. -/
lemma exists_of_execWhile (step : ℓ → σ → Option σ) (guard : ℓ → σ → Prop)
    [∀ label state, Decidable (guard label state)] (start : σ) (labels : List ℓ)
    (holds : σ → Prop) [DecidablePred holds]
    (execution : (execWhile step guard labels start).any (fun state => decide (holds state))) :
    ∃ finish, Runs step guard start labels finish ∧ holds finish := by
  obtain ⟨finish, reached, passed⟩ := (Option.any_eq_true _ _).mp execution
  exact ⟨finish, of_execWhile reached, of_decide_eq_true passed⟩

variable [∀ label state, Decidable (guard label state)] {holds follows : σ → Prop}
  [DecidablePred holds]
  (execution : (execWhile step guard labels start).any (fun state => decide (holds state)))
  (derive : ∀ {finish}, Runs step guard start labels finish → holds finish → follows finish)
include execution derive

/-- The run of a computed execution, with what follows from it and from the test it passes. -/
lemma exists_and_of_execWhile :
    ∃ finish, Runs step guard start labels finish ∧ holds finish ∧ follows finish := by
  obtain ⟨finish, run, passed⟩ := exists_of_execWhile step guard start labels holds execution
  exact ⟨finish, run, passed, derive run passed⟩

variable (holds)

/-- The run of a computed execution, with what follows from a test that is not stated. -/
lemma exists_of_test : ∃ finish, Runs step guard start labels finish ∧ follows finish := by
  obtain ⟨finish, run, -, derived⟩ := exists_and_of_execWhile execution derive
  exact ⟨finish, run, derived⟩

end Runs

end Transition
