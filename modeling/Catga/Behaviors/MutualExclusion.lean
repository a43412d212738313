import Catga.Behaviors.DistributedLock

/-!
# Mutual exclusion of distributed locks

A handler that executes within its lease finds that lease in the store, under the name of its own
call, so two handlers of one resource have the same name.  Two behaviors that were constructed with
the same prefix draw the same names.  Exclusion holds where no call draws an owner that is still in
use.
-/

namespace Catga.Behaviors

open Memory Threads Transition List Option MemoryLeases

lemma colon_not_mem_toString (number : Nat) : ':' ∉ (toString number).toList := by
  rw [Nat.toString_eq_repr, Nat.toList_repr]
  intro member
  have digit := Nat.isDigit_of_mem_toDigits (by decide) (by decide) member
  revert digit
  decide

lemma append_cons_inj_of_not_mem {α : Type} {left left' right right'} {mark : α}
    (absent : mark ∉ right) (absent' : mark ∉ right')
    (same : left ++ mark :: right = left' ++ mark :: right') : left = left' ∧ right = right' := by
  simp only [append_eq_append_iff, cons_eq_append_iff, cons_eq_cons] at same
  obtain ⟨_, rfl, ⟨rfl, -, rfl⟩ | ⟨_, rfl, rfl⟩⟩ | ⟨_, rfl, ⟨rfl, -, rfl⟩ | ⟨_, rfl, rfl⟩⟩ := same
  all_goals simp_all

lemma Owner.name_injective {owner owner' : Owner} (same : owner.name = owner'.name) :
    owner = owner' := by
  have lists := congrArg String.toList same
  simp only [Owner.name, String.toList_append, append_assoc] at lists
  obtain ⟨prefixes, numbers⟩ := append_cons_inj_of_not_mem
    (colon_not_mem_toString owner.number) (colon_not_mem_toString owner'.number) lists
  have parsed := congrArg (fun digits => Nat.ofDigitChars 10 digits 0) numbers
  rw [Owner.mk.injEq]
  exact ⟨String.toList_inj.mp prefixes, by simpa [Nat.toString_eq_repr] using parsed⟩

section

variable {β ρ α : Type}

def Call.owner : Call β ρ α → Option Owner
  | .begun job _ => some job.owner
  | _ => none

/-- Every handler that is executing has a lease that has not ended. -/
def withinLeases (system : System (World β ρ) (Call β ρ α)) : Bool :=
  system.threads.all fun call =>
    call.executingUntil.all fun expiry => unixMillis system.shared.clock < expiry

/-- No call in progress, and no operation still on its way, has a certain owner. -/
def unused (owner : Owner) (system : System (World β ρ) (Call β ρ α)) : Bool :=
  system.threads.all (fun call => call.owner ≠ some owner) &&
    system.shared.outstanding.all fun request => request.1.owner ≠ owner

variable (family : β → DistributedLockBehavior)

/-- A call begins only when no other one in progress has the prefix of its behavior and the number
it is about to draw. -/
def fresh : Label (Choice α) Event (β × ρ) → System (World β ρ) (Call β ρ α) → Bool
  | .act index .go, system =>
    match system.threads[index]? with
    | some (.entered behavior _) =>
      unused ⟨(family behavior).ownerPrefix, system.shared.ownerSequence behavior⟩ system
    | _ => true
  | _, _ => true

variable [DecidableEq β] [DecidableEq ρ]

/-- Every handler finishes or is abandoned within its lease. -/
def finishing (label : Label (Choice α) Event (β × ρ))
    (system : System (World β ρ) (Call β ρ α)) : Bool :=
  ((machine family).step label system).all withinLeases

end

section

variable {β ρ α : Type} {family : β → DistributedLockBehavior} {world after : World β ρ}
  {job : Job β ρ} {owner : Owner}

/-- The end of the lease that was granted to a call. -/
def Task.grantedUntil : Task α → Option Nat
  | .acquired _ expiry true | .executing expiry _ | .renewing expiry | .renewed expiry _ =>
    some expiry
  | _ => none

def Task.unreleased : Task α → Bool
  | .releasing _ | .released _ _ => false
  | _ => true

section

variable (world : World β ρ)

/-- The lease of a job that ends at `expiry` is in the store until then. -/
def World.Holds (job : Job β ρ) (expiry : Nat) : Prop :=
  unixMillis world.clock < expiry →
    world.leases job.resource = some ⟨job.owner.name, expiry⟩

/-- The granted lease is in the store, and no forgotten operation can touch it. -/
structure World.Safe (job : Job β ρ) (task : Task α) : Prop where
  holds : ∀ expiry ∈ task.grantedUntil, world.Holds job expiry
  apart : task.unreleased = true → ∀ request ∈ world.outstanding, request.1.owner ≠ job.owner

def World.Sound : Call β ρ α → Prop
  | .begun job task => world.Safe job task
  | _ => True

end

def Apart (call other : Call β ρ α) : Prop :=
  ∀ owner, call.owner = some owner → other.owner ≠ some owner

/-- What an action on behalf of an owner does to the world. -/
structure Moves (owner : Owner) (world after : World β ρ) : Prop where
  clock : after.clock = world.clock
  respects : world.leases.Respects owner.name (unixMillis world.clock) after.leases
  leaves : ∀ request ∈ after.outstanding, request ∈ world.outstanding ∨ request.1.owner = owner

lemma Moves.refl : Moves owner world world := ⟨rfl, .refl, fun _ member => .inl member⟩

lemma moves_leave (operation) (late : Bool) :
    Moves job.owner world (world.leave job operation late) := by
  simp only [World.leave]
  split
  · split
    · refine ⟨rfl, .refl, fun request member => ?_⟩
      obtain rfl | member := mem_cons.mp member
      · exact .inr rfl
      · exact .inl member
    · exact .refl
  · exact .refl

lemma World.Holds.stable {expiry} (holds : world.Holds job expiry)
    (moves : Moves owner world after) (differs : job.owner ≠ owner) : after.Holds job expiry := by
  intro running
  rw [moves.clock] at running
  refine moves.respects _ _ (holds running) (fun same => ?_) running
  exact differs (Owner.name_injective same)

variable {call other next : Call β ρ α} {task : Task α} {system : System (World β ρ) (Call β ρ α)}

lemma World.Sound.stable (sound : world.Sound call) (moves : Moves owner world after)
    (differs : call.owner ≠ some owner) : after.Sound call := by
  cases call with
  | begun job =>
    have differs : job.owner ≠ owner := fun same => differs (congrArg some same)
    refine ⟨fun expiry granted => (sound.holds expiry granted).stable moves differs, ?_⟩
    intro unreleased request member
    obtain member | own := moves.leaves request member
    · exact sound.apart unreleased request member
    · rw [own]
      exact differs.symm
  | entered => trivial
  | returned => trivial
  | dropped => trivial

lemma World.Sound.tick {time} (sound : world.Sound call) (later : world.clock ≤ time) :
    World.Sound { world with clock := time } call := by
  cases call with
  | begun =>
    refine ⟨fun expiry granted running => sound.holds expiry granted ?_, sound.apart⟩
    exact lt_of_le_of_lt (unixMillis_mono later) running
  | _ => trivial

lemma Apart.symm (apart : Apart call other) : Apart other call :=
  fun owner same same' => apart owner same' same

lemma Apart.of_none (ownerless : call.owner = none) : Apart call other := by
  intro owner same
  rw [ownerless] at same
  cases same

/-- Where a call stands after an action, and that it keeps its owner. -/
structure Proceeds (job : Job β ρ) (world after : World β ρ) (next : Call β ρ α) : Prop where
  moves : Moves job.owner world after
  sound : after.Sound next
  owner : ∀ owner, next.owner = some owner → owner = job.owner

lemma Proceeds.finished (moves : Moves job.owner world after) (ownerless : next.owner = none) :
    Proceeds job world after next := by
  refine ⟨moves, ?_, fun owner owned => ?_⟩
  · cases next with
    | begun => cases ownerless
    | _ => trivial
  · rw [ownerless] at owned
    cases owned

lemma Proceeds.on (moves : Moves job.owner world after) (safe : after.Safe job task) :
    Proceeds job world after (.begun job task) :=
  ⟨moves, safe, fun _ same => (Option.some.inj same).symm⟩

lemma safe_of_released (granted : task.grantedUntil = none) (released : task.unreleased = false) :
    world.Safe job task where
  holds := fun expiry leased => by rw [granted] at leased; cases leased
  apart := fun unreleased => by rw [released] at unreleased; cases unreleased

lemma World.Safe.step {following : Task α} (safe : world.Safe job task)
    (unreleased : task.unreleased = true)
    (granted : ∀ expiry ∈ following.grantedUntil, expiry ∈ task.grantedUntil) :
    world.Safe job following where
  holds := fun expiry leased => safe.holds expiry (granted expiry leased)
  apart := fun _ => safe.apart unreleased

lemma Proceeds.bystander (proceeds : Proceeds job world after next) (sound : world.Sound other)
    (differs : other.owner ≠ some job.owner) : after.Sound other ∧ Apart next other := by
  refine ⟨sound.stable proceeds.moves differs, fun owner same same' => differs ?_⟩
  rw [same', proceeds.owner owner same]

lemma proceeds_fail {error late} (taken : fail error job task = some next) :
    Proceeds job world (world.leave job task.operation late) next := by
  have moves : Moves job.owner world (world.leave job task.operation late) := moves_leave ..
  cases task <;> cases taken
  case acquiring | acquired | releasing | released => exact .finished moves rfl
  case renewing | renewed => exact .on moves (safe_of_released rfl rfl)

variable [DecidableEq ρ]

lemma perform_respects (operation) :
    world.leases.Respects job.owner.name (unixMillis world.clock)
      (world.perform family job operation).2 := by
  cases operation with
  | tryAcquire => exact tryAcquire_respects
  | renew => exact renew_respects
  | release => exact release_respects

lemma moves_perform (operation) :
    Moves job.owner world { world with leases := (world.perform family job operation).2 } :=
  ⟨rfl, perform_respects operation, fun _ member => .inl member⟩

lemma proceeds_go (safe : world.Safe job task)
    (taken : go family world job task = some (after, next)) : Proceeds job world after next := by
  cases task with
  | asking =>
    cases taken
    exact .on .refl (safe.step rfl fun _ kept => kept)
  | acquiring deadline expiry =>
    cases taken
    refine .on (moves_perform _) ⟨fun deadline granted running => ?_, fun _ => safe.apart rfl⟩
    cases answer : (world.perform family job (.tryAcquire expiry)).1 with
    | false =>
      rw [answer] at granted
      cases granted
    | true =>
      rw [answer] at granted
      cases granted
      exact held_of_tryAcquire answer
  | acquired deadline expiry answer =>
    cases answer with
    | true =>
      cases taken
      exact .on .refl (safe.step rfl fun _ kept => kept)
    | false =>
      simp only [go] at taken
      split at taken <;> cases taken
      · exact .finished .refl rfl
      · exact .on .refl (safe.step rfl fun _ kept => kept)
  | waiting =>
    simp only [go] at taken
    split at taken <;> cases taken
    exact .on .refl (safe.step rfl fun _ kept => kept)
  | executing =>
    simp only [go] at taken
    split at taken <;> cases taken
    exact .on .refl (safe.step rfl fun _ kept => kept)
  | renewing expiry =>
    cases taken
    refine .on (moves_perform _) ⟨fun deadline granted running => ?_, fun _ => safe.apart rfl⟩
    cases answer : (world.perform family job .renew).1 with
    | false =>
      rw [answer] at granted
      cases granted
      have same := renew_refused answer
      exact (congrFun same _).trans (safe.holds expiry rfl running)
    | true =>
      rw [answer] at granted
      cases granted
      exact held_of_renew answer
  | renewed expiry answer =>
    cases answer with
    | true =>
      cases taken
      exact .on .refl (safe.step rfl fun _ kept => kept)
    | false =>
      cases taken
      exact .on .refl (safe_of_released rfl rfl)
  | releasing =>
    cases taken
    exact .on (moves_perform _) (safe_of_released rfl rfl)
  | released =>
    cases taken
    exact .finished .refl rfl

/-- A forgotten operation of another owner touches nothing that a call relies on. -/
lemma World.Sound.land {position request} (sound : world.Sound call)
    (found : world.outstanding[position]? = some request) :
    World.Sound { world with
      leases := (world.perform family request.1 request.2).2
      outstanding := world.outstanding.eraseIdx position } call := by
  have moves : Moves request.1.owner world { world with
      leases := (world.perform family request.1 request.2).2
      outstanding := world.outstanding.eraseIdx position } :=
    ⟨rfl, perform_respects _, fun _ member => .inl (mem_of_mem_eraseIdx member)⟩
  cases call with
  | begun job task =>
    cases unreleased : task.unreleased with
    | true =>
      refine sound.stable moves fun same => ?_
      exact sound.apart unreleased request (mem_of_getElem? found)
        (Option.some.inj same).symm
    | false =>
      refine safe_of_released ?_ unreleased
      cases task <;> first | rfl | cases unreleased
  | _ => trivial

lemma sound_env {event} (sound : world.Sound call)
    (taken : env family event world = some after) : after.Sound call := by
  cases event with
  | tick time =>
    simp only [env] at taken
    split at taken <;> cases taken
    rename_i later
    exact sound.tick later
  | land =>
    obtain ⟨request, found, rfl⟩ := map_eq_some_iff.mp taken
    exact sound.land found

variable [DecidableEq β] {choice : Choice α}

lemma proceeds_act (safe : world.Safe job task)
    (taken : act family choice (.begun job task) world = some (after, next)) :
    Proceeds job world after next := by
  cases choice with
  | go => exact proceeds_go safe taken
  | finish =>
    obtain ⟨_, -, same⟩ := map_eq_some_iff.mp taken
    cases same
    exact .on (moves_leave ..) (safe_of_released rfl rfl)
  | fail =>
    obtain ⟨_, failed, same⟩ := map_eq_some_iff.mp taken
    cases same
    exact proceeds_fail failed
  | drop =>
    cases taken
    exact .finished (moves_leave ..) rfl

omit [DecidableEq ρ] in
lemma proceeds_nextOwner {behavior resource} (free : ∀ request ∈ world.outstanding,
      request.1.owner ≠ ⟨(family behavior).ownerPrefix, world.ownerSequence behavior⟩)
    (taken : nextOwner family world behavior resource = (after, next)) :
    Proceeds ⟨behavior, resource, (family behavior).ownerPrefix, world.ownerSequence behavior⟩
      world after next := by
  simp only [nextOwner] at taken
  split at taken <;> cases taken
  · exact .finished .refl rfl
  · refine .on ⟨rfl, .refl, fun _ member => .inl member⟩ ⟨fun _ never => ?_, fun _ => free⟩
    cases never

lemma sound_act {index}
    (holds : Machine.Outline.Holds ⟨fun _ => True, World.Sound, Apart⟩ system)
    (admitted : fresh family (.act index choice) system = true)
    (here : system.threads[index]? = some call)
    (taken : act family choice call system.shared = some (after, next)) :
    after.Sound next ∧ ∀ {rival other}, rival ≠ index →
      system.threads[rival]? = some other → after.Sound other ∧ Apart next other := by
  cases call with
  | entered =>
    cases choice with
    | go =>
      simp only [fresh, here, unused, Bool.and_eq_true, List.all_eq_true, decide_eq_true_eq]
        at admitted
      obtain ⟨calls, requests⟩ := admitted
      have proceeds := proceeds_nextOwner requests (Option.some.inj taken)
      refine ⟨proceeds.sound, fun _ found => ?_⟩
      exact proceeds.bystander (holds.thread found) (calls _ (mem_of_getElem? found))
    | drop =>
      cases taken
      exact ⟨trivial, fun _ found => ⟨holds.thread found, .of_none rfl⟩⟩
    | _ => cases taken
  | begun job =>
    have proceeds := proceeds_act (holds.thread here) taken
    refine ⟨proceeds.sound, fun differs found => ?_⟩
    refine proceeds.bystander (holds.thread found) fun same => ?_
    exact holds.pair differs found here job.owner same rfl
  | _ => cases choice <;> cases taken

lemma valid_of_fresh :
    Machine.Outline.Valid
      (machine family : Machine (World β ρ) (Call β ρ α) (Choice α) Event (β × ρ))
      (fun label system => fresh family label system = true)
      ⟨fun _ => True, World.Sound, Apart⟩ where
  own := fun holds admitted here taken => ⟨trivial, (sound_act holds admitted here taken).1⟩
  other := fun holds admitted here taken differs found =>
    have kept := (sound_act holds admitted here taken).2 differs found
    ⟨kept.1, kept.2, kept.2.symm⟩
  env := fun holds _ taken => ⟨trivial, fun found => sound_env (holds.thread found) taken⟩
  enter := fun _ _ =>
    ⟨trivial, fun _ => ⟨.of_none rfl, (Apart.of_none rfl).symm⟩⟩

end

section

variable {β ρ α : Type} {family : β → DistributedLockBehavior}
  {system : System (World β ρ) (Call β ρ α)} {labels : List (Label (Choice α) Event (β × ρ))}

lemma held_of_executing {job task} {index expiry : Nat}
    (holds : Machine.Outline.Holds ⟨fun _ => True, World.Sound, Apart⟩ system)
    (within : withinLeases system = true)
    (here : system.threads[index]? = some (.begun job task))
    (executing : task.executingUntil = some expiry) :
    system.shared.leases job.resource = some ⟨job.owner.name, expiry⟩ := by
  have granted : task.grantedUntil = some expiry := by
    cases task <;> first | exact executing | cases executing
  have running := all_eq_true.mp within _ (mem_of_getElem? here)
  simp only [Call.executingUntil, executing, all_some, decide_eq_true_eq] at running
  exact (holds.thread here : World.Safe _ job task).holds expiry granted running

variable [DecidableEq β] [DecidableEq ρ]

lemma withinLeases_of_finishing {clock}
    (run : Runs (machine family).step (fun label before => finishing family label before = true)
      ⟨World.start β ρ clock, []⟩ labels system) : withinLeases system = true := by
  induction run with
  | nil => rfl
  | snoc _ admitted taken _ =>
    simpa [finishing, taken] using admitted

/-- Where handlers end within their lease and a call begins only when no other one in progress has
its prefix and number, the handlers of two calls for one resource never execute at the same time. -/
theorem exclusive_of_fresh (clock : Nat)
    (run : Runs (machine family).step
      (fun label before => finishing family label before = true ∧
        fresh family label before = true)
      ⟨World.start β ρ clock, []⟩ labels system)
    {first second : Nat} (differ : first ≠ second) {job job' : Job β ρ} {task task' : Task α}
    (here : system.threads[first]? = some (.begun job task))
    (there : system.threads[second]? = some (.begun job' task'))
    (executing : task.executingUntil.isSome = true)
    (executing' : task'.executingUntil.isSome = true) : job.resource ≠ job'.resource := by
  have holds : Machine.Outline.Holds ⟨fun _ => True, World.Sound, Apart⟩ system :=
    valid_of_fresh.runs trivial (run.mono fun admitted => admitted.2)
  have within := withinLeases_of_finishing (run.mono fun admitted => admitted.1)
  obtain ⟨expiry, executing⟩ := isSome_iff_exists.mp executing
  obtain ⟨expiry', executing'⟩ := isSome_iff_exists.mp executing'
  intro same
  have lease := held_of_executing holds within here executing
  have lease' := held_of_executing holds within there executing'
  rw [same, lease'] at lease
  have names := congrArg Lease.owner (Option.some.inj lease)
  have owners : job'.owner = job.owner := Owner.name_injective names
  exact holds.pair differ here there job.owner rfl (congrArg some owners)

end

def separate : Nat → DistributedLockBehavior :=
  fun index => .new ("node-" ++ toString index) (10 * 10 ^ 9)

def alike : Nat → DistributedLockBehavior := fun _ => .new "orders" (10 * 10 ^ 9)

def begins (index : Nat) : List (Label (Choice Unit) Event (Nat × String)) :=
  List.replicate 4 (.act index .go)

/-- Two calls of different behaviors, for different resources, execute at the same time. -/
theorem separate_executing :
    ∃ system : System (World Nat String) (Call Nat String Unit),
      Runs (machine separate).step
        (fun label before => finishing separate label before = true ∧
          fresh separate label before = true)
        ⟨World.start Nat String 0, []⟩
        ([.spawn (0, "stock"), .spawn (1, "ledger")] ++ begins 0 ++ begins 1) system ∧
      system.threads = [
        .begun ⟨0, "stock", "node-0", 1⟩ (.executing (10 ^ 4) (5 * 10 ^ 9)),
        .begun ⟨1, "ledger", "node-1", 1⟩ (.executing (10 ^ 4) (5 * 10 ^ 9))] ∧
      "stock" ≠ "ledger" := by
  refine Runs.exists_and_of_execWhile (by decide) fun {system} run threads => ?_
  have first : system.threads[0]? = some (.begun ⟨0, "stock", "node-0", 1⟩ _) :=
    congrArg (·[0]?) threads
  have second : system.threads[1]? = some (.begun ⟨1, "ledger", "node-1", 1⟩ _) :=
    congrArg (·[1]?) threads
  exact exclusive_of_fresh 0 run (by decide) first second rfl rfl

/-- Two behaviors with a common prefix draw the same owner: both handlers execute for one resource,
each within its lease. -/
theorem alike_executing_together :
    ∃ system : System (World Nat String) (Call Nat String Unit),
      Runs (machine alike).step (fun label before => finishing alike label before = true)
        ⟨World.start Nat String 0, []⟩
        ([.spawn (0, "stock"), .spawn (1, "stock")] ++ begins 0 ++ begins 1) system ∧
      system.threads = [
        .begun ⟨0, "stock", "orders", 1⟩ (.executing (10 ^ 4) (5 * 10 ^ 9)),
        .begun ⟨1, "stock", "orders", 1⟩ (.executing (10 ^ 4) (5 * 10 ^ 9))] :=
  Runs.exists_of_execWhile _ _ _ _ _ (by decide)

end Catga.Behaviors
