import Catga.Dsl.Checkpoint

/-!
# Where the effects of a run belong

Everything a step does carries the path of the step, and everything a child of a branch does
carries the child's.  Effects of different steps are therefore different, whatever else is known
about the run and about the cursor it starts from.
-/

namespace Catga.Dsl

open List Option Outcome Step

variable {σ : Type}

variable {path : Path} {state : σ} {index top : Nat} {branches : List (DslFlow σ)}

/-- Below `path`, in a child from the one at `first` on. -/
def Under (path : Path) (first : Nat) (place : Path) : Prop :=
  ∃ child, first ≤ child ∧ (child :: path) <:+ place

variable {place : Path} {first : Nat} {saved : List (Option (BranchProgress σ))}
  {operation : ReplayableForEach σ} {merge : List σ → Action σ} {steps : List (Step σ)}
  {hooks : Option (LifecycleHooks σ)}

lemma Under.within (under : Under path first place) : path <:+ place := by
  obtain ⟨child, -, suffix⟩ := under
  exact (suffix_cons child path).trans suffix

open Dsl.Under

lemma Under.mono {later} (under : Under path later place) (order : first ≤ later) :
    Under path first place := by
  obtain ⟨child, bound, suffix⟩ := under
  exact ⟨child, le_trans order bound, suffix⟩

lemma Under.child (suffix : (index :: path) <:+ place) : Under path index place :=
  ⟨index, le_rfl, suffix⟩

lemma child_unique {one two} (first : (one :: path) <:+ place)
    (second : (two :: path) <:+ place) : one = two := by
  have same := suffix_of_suffix_length_le first second (by simp)
  exact (List.cons.inj (same.eq_of_length (by simp))).1

lemma Under.not_before (under : Under path (index + 1) place) : ¬ (index :: path) <:+ place := by
  intro here
  obtain ⟨child, later, there⟩ := under
  have same := child_unique here there
  omega

lemma Under.not_self : ¬ Under path first path := by
  rintro ⟨child, -, suffix⟩
  exact Nat.not_succ_le_self _ suffix.length_le

/-- The events of a log belong to paths in `area`. -/
@[simp] def Performs (area : Path → Prop) (log : List Event) : Prop :=
  ∀ event ∈ log, area event.path

section

variable {area wider : Path → Prop} {env : Env}

lemma Performs.mono {log} (performs : Performs area log)
    (wide : ∀ {place}, area place → wider place) : Performs wider log :=
  fun event member => wide (performs event member)

lemma Performs.andThen {first : Outcome Event σ} {next}
    (before : Performs area first.log) (behind : Performs area (next first.state).log) :
    Performs area (first.andThen next).log := by
  intro event member
  rcases mem_log_andThen member with first | later
  · exact before event first
  · exact behind event later

variable {reporting : Reporting}

end

/-- The outcome without the records that were persisted. -/
def Outcome.plain (outcome : Outcome (Entry σ) σ) : Outcome Event σ :=
  { outcome with log := events outcome.log }

section

variable {outcome : Outcome (Entry σ) σ}

@[simp] lemma events_nil : events ([] : List (Entry σ)) = [] := rfl

end

section

variable {area : Path → Prop} {env : Env} {levels : List CheckpointLevel}
  {work : Option (CheckpointWork σ)}

lemma Performs.nil : Performs area [] := by simp

lemma Performs.append {first second} (before : Performs area first)
    (behind : Performs area second) : Performs area (first ++ second) := fun event member =>
  (mem_append.mp member).elim (before event) (behind event)

end

section

variable {area : Path → Prop} {env : Env} {top : Nat} {outer : List CheckpointLevel} {index : Nat}
  {position : Position σ}

lemma Performs.raise {log code first}
    (performs : Performs (Under (code :: path) first) log)
    (below : ∀ place, Under path 0 place → area place) : Performs area log :=
  performs.mono fun under => below _ ⟨code, Nat.zero_le code, under.within⟩

end

end Catga.Dsl
