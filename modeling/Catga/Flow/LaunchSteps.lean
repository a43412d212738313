import Catga.Flow.ChildResults

/-!
# What happens to child launches

Runtimes launch the children of a wait by rewriting the parent's continuation: they claim a child,
and mark it launched or release it once the launcher has answered.  No other action changes the
launch of a child while the wait lasts, and none removes a result.
-/

namespace Catga.Flow

open List Option

variable {owner : String} {result : CatgaResult Unit} {task : Task}

/-- What one action of a runtime may make of the launch of a child. -/
inductive ChildStep (clock : Nat) (owner : String) :
    FlowChildLaunchState → FlowChildLaunchState → Prop
  | same (state : FlowChildLaunchState) : ChildStep clock owner state state
  | claim (expiresAt : Nat) : ChildStep clock owner .pending (.claimed owner expiresAt)
  | takeOver {holder expiredAt} (expired : expiredAt ≤ clock) (expiresAt : Nat) :
      ChildStep clock owner (.claimed holder expiredAt) (.claimed owner expiresAt)
  | launch (expiresAt : Nat) : ChildStep clock owner (.claimed owner expiresAt) .launched
  | release (expiresAt : Nat) : ChildStep clock owner (.claimed owner expiresAt) .pending

namespace WaitCondition

variable {wait next : WaitCondition} {clock : Nat} {owner childId : String}

/-- One action on a wait: results stay, and every child takes a step. -/
structure Advances (clock : Nat) (owner : String) (wait next : WaitCondition) : Prop where
  results : wait.results <+: next.results
  children : List.Forall₂ (fun child later => later.childId = child.childId ∧
    ChildStep clock owner child.state later.state) wait.childLaunches next.childLaunches

variable {child : FlowChildLaunch} {test : FlowChildLaunch → Bool} {state : FlowChildLaunchState}
  {now claimFor : Nat}

lemma forall₂_set {relation}
    (refl : ∀ child, relation child child) {children index}
    {replaced} (found : children[index]? = some child)
    (related : relation child replaced) :
    List.Forall₂ relation children (children.set index replaced) := by
  induction children generalizing index with
  | nil => cases found
  | cons first rest ih =>
    cases index with
    | zero =>
      cases found
      exact .cons related (forall₂_same.mpr fun other _ => refl other)
    | succ => exact .cons (refl first) (ih found)

lemma Advances.of_eq (results : wait.results <+: next.results)
    (children : next.childLaunches = wait.childLaunches) : Advances clock owner wait next where
  results := results
  children := by
    rw [children]
    exact forall₂_same.mpr fun child _ => ⟨rfl, .same child.state⟩

lemma setLaunch_eq_some (set : wait.setLaunch test state = some (childId, next)) :
    ∃ index child, wait.childLaunches[index]? = some child ∧ test child = true ∧
      child.childId = childId ∧
      next = { wait with childLaunches := wait.childLaunches.set index { child with state } } := by
  obtain ⟨index, first, set⟩ := bind_eq_some_iff.mp set
  obtain ⟨child, found, set⟩ := bind_eq_some_iff.mp set
  cases set
  refine ⟨index, child, found, ?_, rfl, rfl⟩
  obtain ⟨inside, passed, -⟩ := findIdx?_eq_some_iff_getElem.mp first
  obtain ⟨_, same⟩ := List.getElem?_eq_some_iff.mp found
  rwa [same] at passed

lemma setLaunch_advances (set : wait.setLaunch test state = some (childId, next))
    (step : ∀ child, test child = true → ChildStep clock owner child.state state) :
    Advances clock owner wait next := by
  obtain ⟨index, child, found, passed, -, rfl⟩ := setLaunch_eq_some set
  exact ⟨prefix_refl _, forall₂_set (fun other => ⟨rfl, .same other.state⟩) found
    ⟨rfl, step child passed⟩⟩

lemma claimNextChild_advances (timely : now ≤ clock)
    (claimed : wait.claimNextChild owner now claimFor = some (childId, next)) :
    Advances clock owner wait next := by
  refine setLaunch_advances (claimNextChild_eq_some claimed).2 fun child free => ?_
  obtain ⟨id, state⟩ := child
  cases state with
  | pending => exact .claim _
  | claimed =>
    exact .takeOver (le_trans (of_decide_eq_true free) timely) _
  | launched => cases free

lemma claimable_later {since now} (later : since ≤ now)
    (free : claimable since child = true) : claimable now child = true := by
  obtain ⟨id, state⟩ := child
  cases state with
  | pending => rfl
  | claimed => exact decide_eq_true (le_trans (of_decide_eq_true free) later)
  | launched => cases free

/-- A child that may be claimed is found, if the deadline of the claim can be represented. -/
lemma claimNextChild_ne_none (within : now + claimFor ≤ latestTime)
    (listed : child ∈ wait.childLaunches) (free : claimable now child = true) :
    wait.claimNextChild owner now claimFor ≠ none := by
  intro nothing
  simp only [claimNextChild, if_pos within, setLaunch] at nothing
  cases first : wait.childLaunches.findIdx? (claimable now) with
  | none =>
    have unfree := findIdx?_eq_none_iff.mp first child listed
    rw [free] at unfree
    cases unfree
  | some =>
    obtain ⟨inside, -⟩ := findIdx?_eq_some_iff_getElem.mp first
    simp [first, getElem?_eq_getElem inside] at nothing

def settleChild (wait : WaitCondition) (childId owner : String) :
    CatgaResult Unit → Option WaitCondition
  | .ok _ => wait.markChildLaunched childId owner
  | .error _ => wait.releaseChildClaim childId owner

lemma claimedFor_eq_true (held : claimedFor childId owner child = true) :
    child.childId = childId ∧ ∃ expiresAt, child.state = .claimed owner expiresAt := by
  obtain ⟨id, state⟩ := child
  simp only [claimedFor, Bool.and_eq_true, beq_iff_eq] at held
  refine ⟨held.1, ?_⟩
  cases state with
  | pending | launched => cases held.2
  | claimed holder expiresAt => exact ⟨expiresAt, by rw [of_decide_eq_true held.2]⟩

lemma settleChild_eq_some (settled : wait.settleChild childId owner result = some next) :
    ∃ state, (state = .launched ∨ state = .pending) ∧
      wait.setLaunch (claimedFor childId owner) state = some (childId, next) := by
  have named : ∀ {state moved},
      wait.setLaunch (claimedFor childId owner) state = some moved → moved.1 = childId := by
    intro state moved set
    obtain ⟨-, child, -, held, same, -⟩ := setLaunch_eq_some set
    rw [← same]
    exact (claimedFor_eq_true held).1
  cases result with
  | ok =>
    obtain ⟨⟨id, moved⟩, set, rfl⟩ := map_eq_some_iff.mp settled
    obtain rfl : id = childId := named set
    exact ⟨.launched, .inl rfl, set⟩
  | error =>
    obtain ⟨⟨id, moved⟩, set, rfl⟩ := map_eq_some_iff.mp settled
    obtain rfl : id = childId := named set
    exact ⟨.pending, .inr rfl, set⟩

lemma settleChild_advances (settled : wait.settleChild childId owner result = some next) :
    Advances clock owner wait next := by
  obtain ⟨state, outcome, set⟩ := settleChild_eq_some settled
  refine setLaunch_advances set fun child held => ?_
  obtain ⟨-, expiresAt, same⟩ := claimedFor_eq_true held
  rw [same]
  rcases outcome with rfl | rfl
  · exact .launch expiresAt
  · exact .release expiresAt

section

variable (set : wait.setLaunch test state = some (childId, next))
include set

lemma setLaunch_others (listed : child ∈ next.childLaunches) (differs : child.childId ≠ childId) :
    child ∈ wait.childLaunches := by
  obtain ⟨index, moved, -, -, same, rfl⟩ := setLaunch_eq_some set
  obtain earlier | rfl := mem_or_eq_of_mem_set listed
  · exact earlier
  · exact absurd same differs

lemma setLaunch_moved (distinct : (wait.childLaunches.map (·.childId)).Nodup)
    (listed : child ∈ next.childLaunches) (named : child.childId = childId) :
    child.state = state := by
  obtain ⟨index, moved, found, -, same, rfl⟩ := setLaunch_eq_some set
  obtain ⟨other, at_other⟩ := mem_iff_getElem?.mp listed
  obtain ⟨-, rfl⟩ | ⟨elsewhere, at_other⟩ := Threads.Machine.getElem?_set_cases at_other
  · rfl
  · have here : index < (wait.childLaunches.map (·.childId)).length := by
      obtain ⟨inside, -⟩ := List.getElem?_eq_some_iff.mp found
      simpa using inside
    have equal : index = other := by
      refine (getElem?_inj here distinct).mp ?_
      rw [getElem?_map, getElem?_map, found, at_other, map_some, map_some, same, named]
    exact absurd equal.symm elsewhere

end

lemma nodup_of_validate (valid : wait.validate = .ok ()) :
    (wait.childLaunches.map (·.childId)).Nodup := by
  simp only [validate] at valid
  split at valid
  · cases valid
  · split at valid
    · cases valid
    · rename_i checked
      simp only [Bool.and_eq_true, Bool.or_eq_true, Bool.not_eq_true', not_and, not_or,
        decide_eq_false_iff_not, not_not] at checked
      cases listed : wait.childLaunches with
      | nil => exact nodup_nil
      | cons =>
        rw [← listed]
        exact (checked (by rw [listed]; rfl)).2

end WaitCondition

/-- While a wait lasts, an action keeps its results and lets its children take steps. -/
def Proceeds (owner : String) (before after : World) : Prop :=
  ∀ flowId, waits flowId after.history = waits flowId before.history →
    ∀ later ∈ after.store flowId, ∀ nextWait ∈ later.wait,
      ∃ stored ∈ before.store flowId, ∃ wait ∈ stored.wait,
        wait.Advances before.clock owner nextWait

/-- An action that leaves the launches of all children. -/
def Quiet : World → World → Prop :=
  WaitsRelated fun wait nextWait =>
    wait.results <+: nextWait.results ∧ nextWait.childLaunches = wait.childLaunches

lemma Quiet.refl (world) : Quiet world world :=
  WaitsRelated.refl (fun _ => ⟨prefix_refl _, rfl⟩) world

lemma Quiet.proceeds {before after} (quiet : Quiet before after) (owner : String) :
    Proceeds owner before after := by
  intro flowId same later held nextWait waiting
  obtain ⟨stored, was, wait, waited, results, children⟩ :=
    (quiet flowId).2 same later held nextWait waiting
  exact ⟨stored, was, wait, waited, .of_eq results children⟩

lemma WaitCondition.record_results (wait : WaitCondition) (childId : String)
    (report) :
    wait.results <+: (wait.record childId report).results ∧
      (wait.record childId report).childLaunches = wait.childLaunches := by
  simp only [record]
  split
  · exact ⟨prefix_refl _, rfl⟩
  · exact ⟨prefix_append _ _, rfl⟩

/-- The tasks of `launch_waiting_children`. -/
def Task.launches : Task → Bool
  | .launch _ _ _ | .launchClaim _ _ _ _ | .launching _ _ _ | .launchFinish _ _ _ _ _
  | .launchSettle _ _ _ _ _ _ => true
  | _ => false

namespace FlowRuntime

variable {runtime : FlowRuntime} {now : Nat} {world after : World} {task next : Task}

variable {nextWait : WaitCondition} {found : FlowContinuation} {flowId : String}
  {launched retries : Nat} {wait : WaitCondition} {childId : String}

lemma Acts.quiet (acts : Acts runtime now world task after next) (coherent : task.Coherent)
    (elsewhere : task.midLaunch = false) : Quiet world after :=
  acts.waitsRelated (fun _ => ⟨prefix_refl _, rfl⟩) WaitCondition.record_results
    fun installs _ waiting =>
      .inl (installs.unlaunched coherent elsewhere (Option.isSome_of_mem waiting))

lemma perform_cases {write : Write} (performed : write.perform owner world = (after, next)) :
    (after = world ∧ (next = write.lost ∨ ∃ error, next = write.failed error)) ∨
      ∃ installed, write.next = .ok installed ∧
        after = { world with
          store := world.store.put installed
          history := ⟨installed.state.id, owner, world.clock, write.deed⟩ :: world.history } ∧
        next = write.won installed ∧
        ∃ current, world.store installed.state.id = some current ∧
          (write.exact → current = write.expected) := by
  simp only [Write.perform] at performed
  split at performed
  · obtain ⟨rfl, rfl⟩ := Prod.mk.inj performed
    exact .inl ⟨rfl, .inr ⟨_, rfl⟩⟩
  · rename_i installed built
    split at performed
    · obtain ⟨rfl, rfl⟩ := Prod.mk.inj performed
      exact .inl ⟨rfl, .inr ⟨_, rfl⟩⟩
    · obtain ⟨rfl, rfl⟩ := Prod.mk.inj performed
      exact .inl ⟨rfl, .inl rfl⟩
    · rename_i store committed
      obtain ⟨rfl, rfl⟩ := Prod.mk.inj performed
      obtain ⟨rfl, -, current, held, -, whole⟩ := Write.commit_eq_some committed
      exact .inr ⟨installed, built, rfl, rfl, current, held, whole⟩

/-- A launch that was rewritten: the continuation that was read is replaced by one on the new wait,
and nothing else. -/
structure Rewritten (owner : String) (found : FlowContinuation) (nextWait : WaitCondition)
    (world after : World) : Prop where
  held : world.store found.state.id = some found
  clock : after.clock = world.clock
  history : after.history = ⟨found.state.id, owner, world.clock, .moved⟩ :: world.history
  waiting : ∃ installed, after.store found.state.id = some installed ∧
    installed.wait = some nextWait ∧ installed.state.id = found.state.id
  others : ∀ flowId, flowId ≠ found.state.id → after.store flowId = world.store flowId

lemma rewritten_of_relaunched {installed current}
    (built : found.relaunched nextWait now = .ok installed)
    (held : world.store installed.state.id = some current) (whole : current = found) :
    Rewritten owner found nextWait world
      { world with
        store := world.store.put installed
        history := ⟨installed.state.id, owner, world.clock, .moved⟩ :: world.history } := by
  have shape := FlowContinuation.relaunched_eq_ok built
  have same : installed.state.id = found.state.id := by rw [shape]
  subst whole
  exact
    { held := same ▸ held
      clock := rfl
      history := by rw [same]
      waiting := ⟨installed, same ▸ Function.update_self .., by rw [shape], same⟩
      others := fun flowId differs => Function.update_of_ne (same ▸ differs) .. }

/-- What one action of a call of `launch_waiting_children` can do. -/
inductive Launches (runtime : FlowRuntime) (now : Nat) (world : World) :
    Task → World → Task → Prop
  | fails (task : Task) (error : CatgaError) : Launches runtime now world task world (.fails error)
  | finished {flowId : String} {found} (launched retries : Nat)
      (held : world.store flowId = some found)
      (idle : found.state.status.isTerminal = true ∨ found.wait = none) :
      Launches runtime now world (.launch flowId launched retries) world
        (.returned (.ok (.count launched)))
  | read {flowId : String} {found wait}
      (launched retries : Nat) (held : world.store flowId = some found)
      (waiting : found.wait = some wait) (valid : wait.validate = .ok ()) :
      Launches runtime now world (.launch flowId launched (retries + 1)) world
        (.launchClaim found wait launched retries)
  | done {wait : WaitCondition} (found : FlowContinuation) (launched retries : Nat)
      (nothing : wait.claimNextChild runtime.owner now (max runtime.staleAfter 1) = none) :
      Launches runtime now world (.launchClaim found wait launched retries) world
        (.returned (.ok (.count launched)))
  | retry (found : FlowContinuation) (wait : WaitCondition) (launched retries : Nat) :
      Launches runtime now world (.launchClaim found wait launched retries) world
        (.launch found.state.id launched retries)
  | claim {found : FlowContinuation} {wait claimedWait childId after} (launched retries : Nat)
      (claimed : wait.claimNextChild runtime.owner now (max runtime.staleAfter 1) =
        some (childId, claimedWait))
      (rewritten : Rewritten runtime.owner found claimedWait world after) :
      Launches runtime now world (.launchClaim found wait launched retries) after
        (.launching found.state.id childId launched)
  | answer (flowId childId : String) (launched : Nat) (result : CatgaResult Unit) :
      Launches runtime now world (.launching flowId childId launched) world
        (.launchFinish flowId childId result launched maxChildLaunchCasRetries)
  | settled (flowId childId : String) (result : CatgaResult Unit) (launched retries : Nat) :
      Launches runtime now world (.launchFinish flowId childId result launched retries) world
        (.launch flowId (launched + 1) maxChildLaunchCasRetries)
  | finish {flowId childId : String} {found wait nextWait result} (launched retries : Nat)
      (held : world.store flowId = some found) (waiting : found.wait = some wait)
      (settles : wait.settleChild childId runtime.owner result = some nextWait) :
      Launches runtime now world (.launchFinish flowId childId result launched (retries + 1)) world
        (.launchSettle found nextWait childId result launched retries)
  | refinish (found : FlowContinuation) (nextWait : WaitCondition) (childId : String)
      (result : CatgaResult Unit) (launched retries : Nat) :
      Launches runtime now world (.launchSettle found nextWait childId result launched retries)
        world (.launchFinish found.state.id childId result launched retries)
  | settle {found : FlowContinuation} {nextWait after}
      (childId : String) (result : CatgaResult Unit) (launched retries : Nat)
      (rewritten : Rewritten runtime.owner found nextWait world after) :
      Launches runtime now world (.launchSettle found nextWait childId result launched retries)
        after (afterLaunch found.state.id result (.ok ()) launched)

lemma afterLaunch_error (flowId : String) (result error)
    (launched : Nat) :
    ∃ reason, afterLaunch flowId result (.error error) launched = .fails reason := by
  cases result with
  | error reason => exact ⟨reason, rfl⟩
  | ok => exact ⟨error, rfl⟩

lemma launches_settled (flowId childId : String) (result)
    (launched retries : Nat) :
    Launches runtime now world (.launchFinish flowId childId result launched retries) world
      (afterLaunch flowId result (.ok ()) launched) := by
  cases result with
  | error reason => exact .fails _ reason
  | ok => exact .settled ..

lemma launchRead_launches (launched retries : Nat) (held : world.store flowId = some found) :
    Launches runtime now world (.launch flowId launched (retries + 1)) world
      (runtime.launchRead launched retries found) := by
  simp only [launchRead, ensuring]
  split
  · exact .fails ..
  split
  · rename_i terminal
    exact .finished launched _ held (.inl terminal)
  split
  · rename_i nothing
    exact .finished launched _ held (.inr nothing)
  · rename_i wait waiting
    split
    · exact .fails ..
    · rename_i valid
      exact .read launched retries held waiting valid

lemma launchFinishRead_launches (result) (launched retries : Nat)
    (held : world.store flowId = some found) :
    Launches runtime now world (.launchFinish flowId childId result launched (retries + 1)) world
      (runtime.launchFinishRead flowId childId result launched retries found) := by
  simp only [launchFinishRead]
  split
  · rename_i error refused
    obtain ⟨reason, same⟩ := afterLaunch_error flowId result error launched
    rw [same]
    exact .fails ..
  split
  · exact launches_settled ..
  split
  · exact launches_settled ..
  · rename_i nextWait changed
    obtain ⟨wait, waiting, settles⟩ := bind_eq_some_iff.mp changed
    exact .finish launched retries held waiting (by cases result <;> exact settles)

lemma launchClaim_launches
    (acted : runtime.act now world .go (.launchClaim found wait launched retries) =
      some (after, next)) :
    Launches runtime now world (.launchClaim found wait launched retries) after next := by
  have moved := Option.some.inj acted
  split at moved
  · rename_i unwritten
    obtain ⟨rfl, rfl⟩ := Prod.mk.inj moved
    refine .done found launched retries ?_
    cases claimed : wait.claimNextChild runtime.owner now (max runtime.staleAfter 1) with
    | none => rfl
    | some =>
      simp only [FlowRuntime.write, claimed] at unwritten
      cases unwritten
  · rename_i write writes
    obtain ⟨childId, claimedWait, claimed, rfl⟩ := write_launchClaim writes
    obtain ⟨rfl, rfl | ⟨error, rfl⟩⟩ | ⟨installed, built, rfl, rfl, current, held, whole⟩ :=
      perform_cases moved
    · exact .retry ..
    · exact .fails ..
    · have same : Task.launching installed.state.id childId launched =
          .launching found.state.id childId launched := by
        rw [FlowContinuation.relaunched_eq_ok built]
      show Launches runtime now world _ _ (.launching installed.state.id childId launched)
      rw [same]
      exact .claim launched retries claimed (rewritten_of_relaunched built held (whole rfl))

lemma launchSettle_launches
    (acted : runtime.act now world .go
      (.launchSettle found nextWait childId result launched retries) = some (after, next)) :
    Launches runtime now world (.launchSettle found nextWait childId result launched retries)
      after next := by
  obtain ⟨rfl, rfl | ⟨error, rfl⟩⟩ | ⟨installed, built, rfl, rfl, current, held, whole⟩ :=
    perform_cases (Option.some.inj acted)
  · exact .refinish ..
  · obtain ⟨reason, same⟩ := afterLaunch_error found.state.id result error launched
    show Launches runtime now after _ after
        (afterLaunch found.state.id result (.error error) launched)
    rw [same]
    exact .fails ..
  · have same : afterLaunch installed.state.id result (.ok ()) launched =
        afterLaunch found.state.id result (.ok ()) launched := by
      rw [FlowContinuation.relaunched_eq_ok built]
    show Launches runtime now world _ _ (afterLaunch installed.state.id result (.ok ()) launched)
    rw [same]
    exact .settle childId result launched retries
      (rewritten_of_relaunched built held (whole rfl))

lemma act_launches {pick} (acted : runtime.act now world pick task = some (after, next))
    (launches : task.launches = true) : Launches runtime now world task after next := by
  cases task with
  | launch flowId launched retries =>
    cases pick with
    | go =>
      cases acted
      cases retries with
      | zero => exact .fails ..
      | succ retries =>
        simp only [reading]
        split
        · exact .fails ..
        · exact .fails ..
        · rename_i found read
          exact launchRead_launches launched retries (Store.get_eq_some read)
    | _ => cases acted
  | launchClaim =>
    cases pick with
    | go => exact launchClaim_launches acted
    | _ => cases acted
  | launching flowId childId launched =>
    cases pick with
    | launched =>
      cases acted
      exact .answer ..
    | _ => cases acted
  | launchFinish flowId childId result launched retries =>
    cases pick with
    | go =>
      cases acted
      cases retries with
      | zero =>
        obtain ⟨reason, same⟩ := afterLaunch_error flowId result
          ⟨.transient, "flow child launch completion did not stabilize"⟩ launched
        simp only [same]
        exact .fails ..
      | succ retries =>
        dsimp only
        split
        · rename_i error _
          obtain ⟨reason, same⟩ := afterLaunch_error flowId result error launched
          rw [same]
          exact .fails ..
        · obtain ⟨reason, same⟩ := afterLaunch_error flowId result flowMissing launched
          rw [same]
          exact .fails ..
        · rename_i found read
          exact launchFinishRead_launches result launched retries (Store.get_eq_some read)
    | _ => cases acted
  | launchSettle =>
    cases pick with
    | go => exact launchSettle_launches acted
    | _ => cases acted
  | _ => cases launches

variable (rewritten : Rewritten owner found nextWait world after)
include rewritten

lemma Rewritten.waits_eq (flowId : String) :
    waits flowId after.history = waits flowId world.history := by
  rw [rewritten.history]
  simp [waits]

lemma Rewritten.wait_cases {later laterWait}
    (held : after.store flowId = some later) (laterWaits : later.wait = some laterWait) :
    (flowId = found.state.id ∧ laterWait = nextWait ∧ world.store flowId = some found) ∨
      flowId ≠ found.state.id ∧ world.store flowId = some later := by
  by_cases here : flowId = found.state.id
  · obtain ⟨installed, stored, installedWaits, -⟩ := rewritten.waiting
    rw [here] at held ⊢
    cases stored.symm.trans held
    exact .inl ⟨rfl, Option.some.inj (laterWaits.symm.trans installedWaits), rewritten.held⟩
  · exact .inr ⟨here, (rewritten.others flowId here).symm.trans held⟩

lemma Rewritten.proceeds (waiting : found.wait = some wait)
    (advances : wait.Advances world.clock owner nextWait) : Proceeds owner world after := by
  intro flowId same later held laterWait laterWaits
  obtain ⟨-, rfl, stored⟩ | ⟨-, stored⟩ := rewritten.wait_cases held laterWaits
  · exact ⟨found, stored, wait, waiting, advances⟩
  · exact ⟨later, stored, laterWait, laterWaits, .of_eq (prefix_refl _) rfl⟩

end FlowRuntime

/-- What a launching call carries agrees with the wait it read. -/
def Task.Bookkeeping (owner : String) : Task → Prop
  | .launchClaim found wait _ _ => found.wait = some wait ∧ wait.validate = .ok ()
  | .launchSettle found nextWait childId result _ _ =>
    ∃ wait, found.wait = some wait ∧ wait.settleChild childId owner result = some nextWait
  | _ => True

lemma Task.not_midLaunch_of_not_launches (elsewhere : task.launches = false) :
    task.midLaunch = false := by
  cases task with
  | launchClaim | launching | launchSettle => cases elsewhere
  | _ => rfl

lemma Task.bookkeeping_of_not_midLaunch (owner : String) (elsewhere : task.midLaunch = false) :
    task.Bookkeeping owner := by
  cases task with
  | launchClaim | launchSettle => cases elsewhere
  | _ => trivial

lemma Task.Idle.not_midLaunch (idle : task.Idle) : task.midLaunch = false := by
  cases task with
  | launchClaim | launching | launchSettle => exact idle.elim
  | _ => rfl

namespace FlowRuntime

variable {runtime : FlowRuntime} {now : Nat} {world after : World} {task next : Task}
  {pick : Pick}

lemma not_midLaunch_compensate (continuation) :
    (compensate continuation).midLaunch = false := by
  cases later : continuation.nextCompensation <;> simp [compensate, later, Task.midLaunch]

lemma Acts.not_midLaunch (acts : Acts runtime now world task after next)
    (elsewhere : task.launches = false) : next.midLaunch = false := by
  cases acts with
  | read reads =>
    cases reads with
    | idle idle => exact idle.not_midLaunch
    | launch | finish => cases elsewhere
    | _ => rfl
  | won installs =>
    cases installs with
    | launchClaim | launchSettle => cases elsewhere
    | claim =>
      simp only [drive]
      split
      · exact not_midLaunch_compensate _
      · rfl
    | rollBack | undone => exact not_midLaunch_compensate _
    | identify => exact idle_afterIdentity.not_midLaunch
    | cancel => split <;> rfl
    | _ => rfl
  | lost writes => exact (idle_lost writes).not_midLaunch
  | failed writes => exact (idle_failed writes).not_midLaunch
  | unscheduled => exact idle_identityFailed.not_midLaunch
  | fenced _ idle => exact idle.not_midLaunch
  | beat _ stays =>
    rcases stays with rfl | idle
    · exact Task.not_midLaunch_of_not_launches elsewhere
    · exact idle.not_midLaunch
  | finished follows =>
    cases follows with
    | idle idle => exact idle.not_midLaunch
    | _ => rfl
  | _ => rfl

lemma Launches.bookkeeping (launches : Launches runtime now world task after next) :
    next.Bookkeeping runtime.owner := by
  cases launches with
  | read _ _ _ waiting valid => exact ⟨waiting, valid⟩
  | finish _ _ _ waiting settles => exact ⟨_, waiting, settles⟩
  | settle _ result => cases result <;> trivial
  | _ => trivial

variable (acted : runtime.act now world pick task = some (after, next))
include acted

lemma act_bookkeeping : next.Bookkeeping runtime.owner := by
  cases launching : task.launches with
  | true => exact (act_launches acted launching).bookkeeping
  | false =>
    exact Task.bookkeeping_of_not_midLaunch _ ((act_acts acted).not_midLaunch launching)

lemma act_proceeds (coherent : task.Coherent) (books : task.Bookkeeping runtime.owner)
    (timely : now ≤ world.clock) : Proceeds runtime.owner world after := by
  cases launching : task.launches with
  | true =>
    cases act_launches acted launching with
    | claim _ _ claimed rewritten =>
      exact rewritten.proceeds books.1 (WaitCondition.claimNextChild_advances timely claimed)
    | settle _ _ _ _ rewritten =>
      obtain ⟨wait, waiting, settles⟩ := books
      exact rewritten.proceeds waiting (WaitCondition.settleChild_advances settles)
    | _ =>
      exact (Quiet.refl world).proceeds _
  | false =>
    exact ((act_acts acted).quiet coherent
      (Task.not_midLaunch_of_not_launches launching)).proceeds _

end FlowRuntime

end Catga.Flow
