import Mathlib.Logic.Basic

/-!
# Programs that keep their state when they fail

Pre- and postconditions of `EStateM` programs.  A triple has one postcondition for results and one
for failures, since a failed program leaves a state behind.
-/

namespace Stateful

variable {ε σ α β : Type} {enter leave : σ → σ}

/-- From a state with `before` a program ends in one with `after`, or fails in one with `failed`. -/
def Triple (before : σ → Prop) (program : EStateM ε σ α) (after failed : σ → Prop) : Prop :=
  ∀ state, before state → match program state with
    | .ok _ next => after next
    | .error _ next => failed next

/-- Run a program `count` times. -/
def times (program : EStateM ε σ Unit) : Nat → EStateM ε σ Unit
  | 0 => pure ()
  | count + 1 => do
      program
      times program count

/-- Run a program between a change of the state and one that follows whether or not it fails. -/
def around (enter leave : σ → σ) (program : EStateM ε σ α) : EStateM ε σ α := fun state =>
  match program (enter state) with
  | .ok value next => .ok value (leave next)
  | .error error next => .error error (leave next)

section

variable {program : EStateM ε σ α} {state next : σ} {value : α}

end

namespace Triple

variable {before middle after failed : σ → Prop} {program : EStateM ε σ α}

lemma pure (value : α) : Triple before (Pure.pure value : EStateM ε σ α) before failed :=
  fun _ holds => holds

lemma throw (error : ε) (fails : ∀ state, before state → failed state) :
    Triple before (throw error : EStateM ε σ α) after failed := fails

lemma bind {next : α → EStateM ε σ β} (first : Triple before program middle failed)
    (second : ∀ value, Triple middle (next value) after failed) :
    Triple before (program >>= next) after failed := by
  intro state holds
  have reached := first state holds
  simp only [Bind.bind, EStateM.bind]
  split at reached
  · rename_i value later run
    rw [run]
    exact second value later reached
  · rename_i error later run
    rw [run]
    exact reached

lemma forM {γ : Type} {body : γ → EStateM ε σ PUnit} {list : List γ}
    (each : ∀ item ∈ list, Triple before (body item) before failed) :
    Triple before (list.forM body) before failed := by
  induction list with
  | nil => exact pure _
  | cons item list ih =>
    exact (each item List.mem_cons_self).bind fun _ =>
      ih fun other member => each other (List.mem_cons_of_mem _ member)

/-- A loop whose assertion counts the rounds that are left. -/
lemma times (left : Nat → σ → Prop) {body : EStateM ε σ Unit}
    (round : ∀ count, Triple (left (count + 1)) body (left count) failed) (count : Nat) :
    Triple (left count) (Stateful.times body count) (left 0) failed := by
  induction count with
  | zero => exact pure _
  | succ count ih => exact (round count).bind fun _ => ih

lemma around (inside : Triple middle program after failed) {ended stopped}
    (enters : ∀ state, before state → middle (enter state))
    (leaves : ∀ state, after state → ended (leave state))
    (aborts : ∀ state, failed state → stopped (leave state)) :
    Triple before (Stateful.around enter leave program) ended stopped := by
  intro state holds
  have reached := inside (enter state) (enters state holds)
  simp only [Stateful.around]
  split at reached
  · exact leaves _ reached
  · exact aborts _ reached

end Triple

end Stateful
