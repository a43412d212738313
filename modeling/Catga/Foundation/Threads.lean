import Catga.Foundation.Transition

/-!
# Calls over a shared state

A machine runs any number of calls over one shared state; one atomic action moves a single call and
may change the shared state.  Safety of every interleaving follows from an outline: what holds of
the shared state, of each call, and of each pair of calls, such that no action of one call spoils
what holds of another.
-/

namespace Threads

open Transition

variable {σ τ κ ε ρ : Type*}

/-- The shared state together with every call made so far. -/
structure System (σ τ : Type*) where
  shared : σ
  threads : List τ

/-- A step of the system. -/
inductive Label (κ ε ρ : Type*) where
  /-- The call at `index` takes its next action; `choice` resolves what the action leaves open. -/
  | act (index : Nat) (choice : κ)
  | env (event : ε)
  | spawn (request : ρ)

/-- The actions of the calls and of the environment. -/
structure Machine (σ τ κ ε ρ : Type*) where
  act : κ → τ → σ → Option (σ × τ)
  env : ε → σ → Option σ
  enter : ρ → σ → τ

namespace Machine

def step (machine : Machine σ τ κ ε ρ) : Label κ ε ρ → System σ τ → Option (System σ τ)
  | .act index choice, system =>
    system.threads[index]?.bind fun thread =>
      (machine.act choice thread system.shared).map fun moved =>
        { shared := moved.1, threads := system.threads.set index moved.2 }
  | .env event, system =>
    (machine.env event system.shared).map fun shared => { system with shared }
  | .spawn request, system =>
    some { system with threads := system.threads ++ [machine.enter request system.shared] }

/-- An assertion about the shared state, one about each call, and one about each pair. -/
structure Outline (σ τ : Type*) where
  shared : σ → Prop
  thread : σ → τ → Prop
  pair : τ → τ → Prop

/-- An outline holds of a system. -/
structure Outline.Holds (outline : Outline σ τ) (system : System σ τ) : Prop where
  shared : outline.shared system.shared
  thread : ∀ {index : Nat} {thread : τ}, system.threads[index]? = some thread →
    outline.thread system.shared thread
  pair : ∀ {first second : Nat} {one two : τ}, first ≠ second →
    system.threads[first]? = some one → system.threads[second]? = some two → outline.pair one two

/-- The proof obligations of an outline under a guard. -/
structure Outline.Valid (machine : Machine σ τ κ ε ρ)
    (guard : Label κ ε ρ → System σ τ → Prop) (outline : Outline σ τ) : Prop where
  own : ∀ {system : System σ τ} {index : Nat} {choice : κ} {thread next : τ} {shared : σ},
    outline.Holds system → guard (.act index choice) system →
    system.threads[index]? = some thread →
    machine.act choice thread system.shared = some (shared, next) →
    outline.shared shared ∧ outline.thread shared next
  other : ∀ {system : System σ τ} {index rival : Nat} {choice : κ} {thread next bystander : τ}
    {shared : σ}, outline.Holds system → guard (.act index choice) system →
    system.threads[index]? = some thread →
    machine.act choice thread system.shared = some (shared, next) →
    rival ≠ index → system.threads[rival]? = some bystander →
    outline.thread shared bystander ∧ outline.pair next bystander ∧ outline.pair bystander next
  env : ∀ {system : System σ τ} {event : ε} {shared : σ}, outline.Holds system →
    guard (.env event) system → machine.env event system.shared = some shared →
    outline.shared shared ∧
      ∀ {index : Nat} {thread : τ}, system.threads[index]? = some thread →
        outline.thread shared thread
  enter : ∀ {system : System σ τ} {request : ρ}, outline.Holds system →
    guard (.spawn request) system →
    outline.thread system.shared (machine.enter request system.shared) ∧
      ∀ {index : Nat} {thread : τ}, system.threads[index]? = some thread →
        outline.pair (machine.enter request system.shared) thread ∧
          outline.pair thread (machine.enter request system.shared)

variable {machine : Machine σ τ κ ε ρ} {guard : Label κ ε ρ → System σ τ → Prop}
  {outline : Outline σ τ} {system after : System σ τ} {threads : List τ}

lemma step_act {index choice}
    (taken : machine.step (.act index choice) system = some after) :
    ∃ thread shared next, system.threads[index]? = some thread ∧
      machine.act choice thread system.shared = some (shared, next) ∧
      after = { shared, threads := system.threads.set index next } := by
  obtain ⟨thread, here, moved⟩ := Option.bind_eq_some_iff.mp taken
  obtain ⟨⟨shared, next⟩, acted, rfl⟩ := Option.map_eq_some_iff.mp moved
  exact ⟨thread, shared, next, here, acted, rfl⟩

lemma getElem?_set_cases {index other next thread}
    (found : (threads.set index next)[other]? = some thread) :
    (other = index ∧ thread = next) ∨ (other ≠ index ∧ threads[other]? = some thread) := by
  by_cases same : index = other
  · subst same
    have inside : index < threads.length := by
      by_contra outside
      rw [List.getElem?_eq_none (by simpa using outside)] at found
      cases found
    rw [List.getElem?_set_self inside] at found
    exact .inl ⟨rfl, (Option.some.inj found).symm⟩
  · rw [List.getElem?_set_ne same] at found
    exact .inr ⟨Ne.symm same, found⟩

lemma mem_set_of_ne {index thread other} (here : threads[index]? = some thread)
    (member : other ∈ threads) (differs : other ≠ thread) (next : τ) :
    other ∈ threads.set index next := by
  obtain ⟨place, found⟩ := List.mem_iff_getElem?.mp member
  refine List.mem_of_getElem? ((List.getElem?_set_ne ?_).trans found)
  rintro rfl
  exact differs (Option.some.inj (found.symm.trans here))

/-- How a count changes when one call moves. -/
lemma countP_set_add {index thread} (counts : τ → Bool) (next : τ)
    (here : threads[index]? = some thread) :
    (threads.set index next).countP counts + (if counts thread then 1 else 0) =
      threads.countP counts + if counts next then 1 else 0 := by
  obtain ⟨inside, rfl⟩ := List.getElem?_eq_some_iff.mp here
  have counted : (if counts threads[index] then 1 else 0) ≤ threads.countP counts := by
    split_ifs with holds
    · exact List.countP_pos_iff.mpr ⟨_, List.getElem_mem inside, holds⟩
    · exact Nat.zero_le _
  rw [List.countP_set inside]
  omega

lemma getElem?_concat_cases {index last thread}
    (found : (threads ++ [last])[index]? = some thread) :
    (index = threads.length ∧ thread = last) ∨ threads[index]? = some thread := by
  rcases Nat.lt_trichotomy index threads.length with before | same | behind
  · rw [List.getElem?_append_left before] at found
    exact .inr found
  · subst same
    rw [List.getElem?_concat_length] at found
    exact .inl ⟨rfl, (Option.some.inj found).symm⟩
  · rw [List.getElem?_eq_none (by simp; omega)] at found
    cases found

lemma Outline.Valid.step (valid : outline.Valid machine guard) (holds : outline.Holds system)
    {label} (admitted : guard label system)
    (taken : machine.step label system = some after) : outline.Holds after := by
  cases label with
  | act =>
    obtain ⟨thread, shared, next, here, acted, rfl⟩ := step_act taken
    have own := valid.own holds admitted here acted
    refine ⟨own.1, fun found => ?_, fun differ found found' => ?_⟩
    · obtain ⟨-, rfl⟩ | ⟨elsewhere, found⟩ := getElem?_set_cases found
      · exact own.2
      · exact (valid.other holds admitted here acted elsewhere found).1
    · obtain ⟨rfl, rfl⟩ | ⟨-, still⟩ := getElem?_set_cases found
      · obtain ⟨rfl, -⟩ | ⟨elsewhere, found'⟩ := getElem?_set_cases found'
        · exact absurd rfl differ
        · exact (valid.other holds admitted here acted elsewhere found').2.1
      · obtain ⟨rfl, rfl⟩ | ⟨-, found'⟩ := getElem?_set_cases found'
        · exact (valid.other holds admitted here acted differ still).2.2
        · exact holds.pair differ still found'
  | env =>
    obtain ⟨shared, changed, rfl⟩ := Option.map_eq_some_iff.mp taken
    have kept := valid.env holds admitted changed
    exact ⟨kept.1, kept.2, holds.pair⟩
  | spawn =>
    cases taken
    have entered := valid.enter holds admitted
    refine ⟨holds.shared, fun found => ?_, fun differ found found' => ?_⟩
    · obtain ⟨-, rfl⟩ | found := getElem?_concat_cases found
      · exact entered.1
      · exact holds.thread found
    · obtain ⟨rfl, rfl⟩ | found := getElem?_concat_cases found
      · obtain ⟨rfl, -⟩ | found' := getElem?_concat_cases found'
        · exact absurd rfl differ
        · exact (entered.2 found').1
      · obtain ⟨-, rfl⟩ | found' := getElem?_concat_cases found'
        · exact (entered.2 found).2
        · exact holds.pair differ found found'

/-- A valid outline whose shared assertion holds at the start holds after every guarded run. -/
lemma Outline.Valid.runs (valid : outline.Valid machine guard) {start}
    (initial : outline.shared start) {labels}
    (run : Runs machine.step guard ⟨start, []⟩ labels after) : outline.Holds after :=
  run.invariant
    ⟨initial, fun found => by simp at found, fun _ found => by simp at found⟩
    fun holds admitted taken => valid.step holds admitted taken

/-- An outline without pair assertions is valid when every action keeps to a relation on the
shared state under which the assertions of all calls are stable. -/
lemma Outline.Valid.of_rely {shared perCall} (rely : σ → σ → Prop)
    (own : ∀ {system : System σ τ} {index : Nat} {choice : κ} {thread next : τ} {after : σ},
      shared system.shared → perCall system.shared thread → guard (.act index choice) system →
      system.threads[index]? = some thread →
      machine.act choice thread system.shared = some (after, next) →
      shared after ∧ perCall after next ∧ rely system.shared after)
    (env : ∀ {system : System σ τ} {event : ε} {after : σ}, shared system.shared →
      guard (.env event) system → machine.env event system.shared = some after →
      shared after ∧ rely system.shared after)
    (enter : ∀ {system : System σ τ} {request : ρ}, shared system.shared →
      guard (.spawn request) system →
      perCall system.shared (machine.enter request system.shared))
    (stable : ∀ {before after : σ} {thread : τ}, rely before after → perCall before thread →
      perCall after thread) :
    Outline.Valid machine guard ⟨shared, perCall, fun _ _ => True⟩ where
  own := fun holds admitted here acted =>
    have kept := own holds.shared (holds.thread here) admitted here acted
    ⟨kept.1, kept.2.1⟩
  other := fun holds admitted here acted _ found =>
    have kept := own holds.shared (holds.thread here) admitted here acted
    ⟨stable kept.2.2 (holds.thread found), trivial, trivial⟩
  env := fun holds admitted changed =>
    have kept := env holds.shared admitted changed
    ⟨kept.1, fun found => stable kept.2 (holds.thread found)⟩
  enter := fun holds admitted =>
    ⟨enter holds.shared admitted, fun _ => ⟨trivial, trivial⟩⟩

end Machine

end Threads
