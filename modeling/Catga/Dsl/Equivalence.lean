import Catga.Dsl.Reached

/-!
# Checkpointed execution against plain execution

On an empty store, a call does what a plain run does, as long as the run reaches no conditional
that directly follows another one inside a branch.  Such a conditional finds the level its sibling
left behind, takes it for its own, and never evaluates its condition.
-/

namespace Catga.Dsl

open Outcome List Bool Step LifecycleHooks

variable {σ : Type}

variable {hooks : Option (LifecycleHooks σ)} {merge : List σ → Action σ} {place : Place}
  {check : Place → Step σ → σ → Bool} {index : Nat} {ε : Type} {state : σ} {env : Env} {path : Path}
  {top : Nat} {levels outer : List CheckpointLevel} {position : Position σ}
  {branches : List (DslFlow σ)}

section

variable {outcome : Outcome (Entry σ) σ} {operation : ReplayableForEach σ} {covers : List Path}

variable {reporting : Reporting}

end

section

variable {outcomes : List (Outcome (Entry σ) σ)}

end

section

variable {step : Step σ} {follows : Bool}

end

section

variable {thenBranch elseBranch defaultBranch : DslFlow σ}
  {shared : DslFlow σ → Prop}

end

end Catga.Dsl
