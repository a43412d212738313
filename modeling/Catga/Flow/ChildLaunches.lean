import Catga.Flow.LaunchSteps
import Catga.Foundation.History

/-!
# Launching children

Runtimes launch the children of a wait one at a time, each under a stored claim that expires.
Launched children stay launched, and a claim is replaced only once it has expired or its owner has
given it up.  That a child is launched under a claim by its owner alone needs more: a runtime must
call the launcher before its claim expires, and settle no claim but its own.
-/

namespace Catga.Flow

open History Threads Transition WaitCondition List FlowRuntime

/-! ### The log of launches -/

/-- A child of one wait. -/
structure ChildKey where
  flowId : String
  wait : Nat
  childId : String
deriving DecidableEq

variable {key : ChildKey} {owner : String} {found : FlowContinuation}

/-- A stored claim of a child. -/
structure Grant where
  number : Nat
  owner : String
  expiresAt : Nat
deriving DecidableEq

/-- What launches are judged by. -/
inductive LaunchEvent where
  | granted (key : ChildKey) (grant : Grant)
  | settled (key : ChildKey)
  | called (key : ChildKey) (owner : String) (time : Nat)
deriving DecidableEq

def LaunchEvent.claim (key : ChildKey) : LaunchEvent → Option (Option Grant)
  | .granted other grant => if other = key then some (some grant) else none
  | .settled other => if other = key then some none else none
  | .called _ _ _ => none

/-- The claim of a child that was neither settled nor replaced. -/
def standing (key : ChildKey) (log : List LaunchEvent) : Option Grant :=
  (last (LaunchEvent.claim key) log).join

/-- The launcher is called for a child only by a runtime that has claimed it before. -/
def claimedFirst (before : List LaunchEvent) : LaunchEvent → Prop
  | .called key owner _ => ∃ grant, .granted key grant ∈ before ∧ grant.owner = owner
  | _ => True

/-- Under an unexpired claim the launcher is called by the claim's owner alone. -/
def exclusive (before : List LaunchEvent) : LaunchEvent → Prop
  | .called key owner time =>
    ∀ grant ∈ standing key before, time < grant.expiresAt → grant.owner = owner
  | _ => True

/-- Both laws, the second where `fenced`. -/
def launchLaw (fenced : Prop) (before : List LaunchEvent) (event : LaunchEvent) : Prop :=
  claimedFirst before event ∧ (fenced → exclusive before event)

variable {claim : Option Grant}

section

variable {log : List LaunchEvent}

lemma standing_of_claim {event} (claims : event.claim key = some claim) :
    standing key (log ++ [event]) = claim := congrArg Option.join (last_concat_of_some claims)

lemma standing_of_ne {event} (elsewhere : event.claim key = none) :
    standing key (log ++ [event]) = standing key log :=
  congrArg Option.join (last_concat_of_none elsewhere)

lemma granted_of_standing {grant} (stands : standing key log = some grant) :
    .granted key grant ∈ log := by
  obtain ⟨event, listed, claims⟩ := mem_of_last (Option.join_eq_some_iff.mp stands)
  cases event with
  | granted =>
    obtain ⟨rfl, same⟩ := Option.ite_none_right_eq_some.mp claims
    cases same
    exact listed
  | settled =>
    obtain ⟨-, same⟩ := Option.ite_none_right_eq_some.mp claims
    cases same
  | called => cases claims

end

/-! ### The machine -/

structure LaunchWorld where
  world : World
  log : List LaunchEvent

/-- The wait a call works on. -/
structure LaunchTicket where
  flowId : String
  wait : Nat

/-- A claim that a call holds. -/
structure Held where
  wait : Nat
  grant : Grant
  called : Bool

/-- A call, with its ticket and its claim if it launches children. -/
structure Launcher where
  thread : Thread
  ticket : Option LaunchTicket
  held : Option Held
  /-- Whether every child was launched or under an unexpired claim at one of its actions. -/
  covered : Bool

open Launcher

variable (world : World) (ticket : LaunchTicket)

/-- Every child of the ticket's wait is launched or under an unexpired claim. -/
def LaunchTicket.covered : Bool :=
  ((world.store ticket.flowId).bind (·.wait)).any fun wait =>
    waits ticket.flowId world.history = ticket.wait &&
      wait.childLaunches.all fun child => !WaitCondition.claimable world.clock child

namespace Launcher

def calling (launcher : Launcher) : Option (ChildKey × Held) :=
  match launcher.thread.task, launcher.held with
  | .launching flowId childId _, some held =>
    if held.called then none else some (⟨flowId, held.wait, childId⟩, held)
  | _, _ => none

def event (launcher : Launcher) (now : Nat) (shared : LaunchWorld) (after : World) (next : Task) :
    Option LaunchEvent :=
  match launcher.thread.task, next with
  | .launchClaim _ _ _ _, .launching flowId childId _ =>
    some (.granted ⟨flowId, waits flowId after.history, childId⟩
      { number := shared.log.length
        owner := launcher.thread.runtime.owner
        expiresAt := now + max launcher.thread.runtime.staleAfter 1 })
  | .launchSettle found _ childId _ _ _, _ =>
    if after.history.length = shared.world.history.length then none
    else some (.settled ⟨found.state.id, waits found.state.id after.history, childId⟩)
  | _, _ => none

def holding (held : Option Held) : Option LaunchEvent → Option Held
  | some (.granted key grant) => some ⟨key.wait, grant, false⟩
  | _ => held

variable (choice : Option Choice) (launcher : Launcher) (shared : LaunchWorld)

def act : Option (LaunchWorld × Launcher) :=
  match choice, launcher.calling with
  | none, some (key, held) =>
    some ({ shared with
        log := shared.log ++ [.called key launcher.thread.runtime.owner shared.world.clock] },
      { launcher with held := some { held with called := true } })
  | some choice, none =>
    (launcher.thread.act choice shared.world).map fun moved =>
      let event := launcher.event choice.now shared moved.1 moved.2.task
      ({ world := moved.1, log := shared.log ++ event.toList },
        { thread := moved.2
          ticket := launcher.ticket
          held := holding launcher.held event
          covered := launcher.covered || launcher.ticket.any (·.covered shared.world) })
  | _, _ => none

/-- A call that returned while its flow is still on the wait of its ticket was covered. -/
def Covered (world : World) (launcher : Launcher) : Prop :=
  ∀ ticket ∈ launcher.ticket, launcher.thread.task.success.isSome →
    ∀ stored ∈ world.store ticket.flowId, stored.wait.isSome →
      waits ticket.flowId world.history = ticket.wait → launcher.covered
deriving Decidable

/-- The deadline of a claim can be represented, the launcher is called before its call's claim has
expired, and a claim is settled by the call that stored it. -/
def orderly : Bool :=
  match choice, launcher.thread.task with
  | none, _ => launcher.held.all fun held => shared.world.clock < held.grant.expiresAt
  | some choice, .launchClaim _ _ _ _ =>
    choice.now + max launcher.thread.runtime.staleAfter 1 ≤ latestTime
  | some _, .launchSettle found _ childId _ _ _ =>
    shared.world.store found.state.id ≠ some found ∨
      standing ⟨found.state.id, waits found.state.id shared.world.history, childId⟩ shared.log =
        launcher.held.map (·.grant)
  | _, _ => true

end Launcher

def Request.launchTicket : Request → Option LaunchTicket
  | .launchWaitingChildren flowId => some ⟨flowId, waits flowId world.history⟩
  | _ => none

def launchers : Machine LaunchWorld Launcher (Option Choice) Nat (FlowRuntime × Request) where
  act := Launcher.act
  env := fun elapsed shared => some { shared with world := shared.world.tick elapsed }
  enter := fun call shared =>
    { thread := machine.enter call shared.world
      ticket := call.2.launchTicket shared.world
      held := none
      covered := false }

def orderly : Label (Option Choice) Nat (FlowRuntime × Request) → System LaunchWorld Launcher →
    Bool
  | .act index choice, system =>
    system.threads[index]?.all fun launcher => launcher.orderly choice system.shared
  | _, _ => true

def launchersStart : System LaunchWorld Launcher := ⟨⟨World.new, []⟩, []⟩

/-! ### The store and the log -/

def Linked (key : ChildKey) (grant : Grant) : Prop :=
  waits key.flowId world.history = key.wait →
    ∀ stored ∈ world.store key.flowId, ∀ wait ∈ stored.wait, ∀ child ∈ wait.childLaunches,
      child.childId = key.childId → child.state = .claimed grant.owner grant.expiresAt

/-- What holds of every state. -/
structure LaunchWorld.Sound (fenced : Prop) (shared : LaunchWorld) : Prop where
  keyed : shared.world.store.Keyed
  suspended : WaitsSuspended shared.world
  lawful : Lawful (launchLaw fenced) shared.log
  dated : ∀ {key grant}, .granted key grant ∈ shared.log →
    key.wait ≤ waits key.flowId shared.world.history
  linked : ∀ {key grant}, standing key shared.log = some grant →
    Linked shared.world key grant

namespace LaunchWorld.Sound

variable {fenced : Prop} {shared : LaunchWorld} {after : World}

lemma new (fenced : Prop) : Sound fenced ⟨World.new, []⟩ where
  keyed := fun _ _ held => by cases held
  suspended := fun _ _ held => by cases held
  lawful := .nil
  dated := fun listed => by cases listed
  linked := fun stands => by cases stands

variable (sound : shared.Sound fenced)
include sound

lemma quiet (quiet : Quiet shared.world after) (keyed : after.store.Keyed)
    (suspended : WaitsSuspended after) : Sound fenced ⟨after, shared.log⟩ where
  keyed := keyed
  suspended := suspended
  lawful := sound.lawful
  dated := fun listed => le_trans (sound.dated listed) (quiet _).1
  linked := by
    intro key grant stands here later held nextWait waiting child listed named
    have dated := sound.dated (granted_of_standing stands)
    have grows := (quiet key.flowId).1
    replace here : waits key.flowId after.history = key.wait := here
    obtain ⟨stored, was, wait, waited, -, same⟩ :=
      (quiet key.flowId).2 (by omega) later held nextWait waiting
    exact sound.linked stands (by omega) stored was wait waited child (same ▸ listed) named

lemma tick (elapsed : Nat) : Sound fenced { shared with world := shared.world.tick elapsed } :=
  { sound with }

lemma call {time} (permitted : launchLaw fenced shared.log (.called key owner time)) :
    Sound fenced { shared with log := shared.log ++ [.called key owner time] } :=
  { sound with
    lawful := sound.lawful.concat permitted
    dated := by
      intro other grant listed
      simp only [mem_append, mem_singleton, reduceCtorEq, or_false] at listed
      exact sound.dated listed
    linked := fun stands => sound.linked ((standing_of_ne rfl).symm.trans stands) }

/-- A launch is rewritten: the event concerns one child of the wait that was read, the others are
left alone, and the claim the event leaves is in the store. -/
lemma rewrite {wait nextWait event}
    (rewritten : FlowRuntime.Rewritten owner found nextWait shared.world after)
    (keyed : after.store.Keyed) (suspended : WaitsSuspended after)
    (waiting : found.wait = some wait) (permitted : launchLaw fenced shared.log event)
    (flow : key.flowId = found.state.id) (number : key.wait = waits key.flowId after.history)
    (claims : event.claim key = some claim)
    (about : ∀ other : ChildKey, other ≠ key → event.claim other = none)
    (others : ∀ child ∈ nextWait.childLaunches, child.childId ≠ key.childId →
      child ∈ wait.childLaunches)
    (own : ∀ grant ∈ claim, ∀ child ∈ nextWait.childLaunches, child.childId = key.childId →
      child.state = .claimed grant.owner grant.expiresAt) :
    Sound fenced ⟨after, shared.log ++ [event]⟩ where
  keyed := keyed
  suspended := suspended
  lawful := sound.lawful.concat permitted
  dated := by
    intro other grant listed
    rcases mem_append.mp listed with earlier | last
    · rw [rewritten.waits_eq]
      exact sound.dated earlier
    · obtain rfl := mem_singleton.mp last
      have claimed : (LaunchEvent.granted other grant).claim other = some (some grant) := if_pos rfl
      by_cases here : other = key
      · subst here
        exact le_of_eq number
      · cases (about other here).symm.trans claimed
  linked := by
    intro other grant stands here later held laterWait laterWaits child listed named
    by_cases same : other = key
    · subst same
      have granted : claim = some grant := (standing_of_claim claims).symm.trans stands
      obtain ⟨-, rfl, -⟩ | ⟨elsewhere, -⟩ := rewritten.wait_cases held laterWaits
      · exact own grant granted child listed named
      · exact absurd flow elsewhere
    · have stood : standing other shared.log = some grant :=
        (standing_of_ne (about other same)).symm.trans stands
      rw [rewritten.waits_eq] at here
      obtain ⟨sameFlow, rfl, was⟩ | ⟨-, was⟩ := rewritten.wait_cases held laterWaits
      · have differs : child.childId ≠ key.childId := by
          intro equal
          refine same ?_
          obtain ⟨flowId, waitNumber, childId⟩ := other
          obtain ⟨ownFlow, ownWait, ownChild⟩ := key
          simp only [ChildKey.mk.injEq]
          simp only at flow number sameFlow named equal here
          refine ⟨sameFlow.trans flow.symm, ?_, named.symm.trans equal⟩
          rw [number, rewritten.waits_eq, flow, ← sameFlow, here]
        exact sound.linked stood here found was wait waiting child
          (others child listed differs) named
      · exact sound.linked stood here later was laterWait laterWaits child listed named

end LaunchWorld.Sound

/-! ### What a call relies on -/

/-- A claim of a child: it was granted to the runtime, and where `fenced` it stands until it has
expired. -/
structure Held.Valid (fenced : Prop) (shared : LaunchWorld) (owner : String) (key : ChildKey)
    (held : Held) : Prop where
  granted : .granted key held.grant ∈ shared.log
  owner : held.grant.owner = owner
  stands : fenced →
    held.grant.expiresAt ≤ shared.world.clock ∨ standing key shared.log = some held.grant

def LaunchTicket.Past : Prop :=
  ∀ stored ∈ world.store ticket.flowId, stored.wait.isSome →
    waits ticket.flowId world.history ≠ ticket.wait

/-- A launching call works on the flow of its ticket.  The wait it has read has a child that could
be claimed, unless the call was covered or the flow has left the wait of the ticket. -/
def Task.Ready (covered : Bool) (since : Nat) : Task → Prop
  | .launch flowId _ _ | .launching flowId _ _ | .launchFinish flowId _ _ _ _ =>
    flowId = ticket.flowId
  | .launchSettle found _ _ _ _ _ => found.state.id = ticket.flowId
  | .launchClaim found wait _ _ =>
    found.state.id = ticket.flowId ∧ (covered = true ∨ ticket.Past world ∨
      ∃ child ∈ wait.childLaunches, WaitCondition.claimable since child = true)
  | .returned (.error _) => True
  | .returned (.ok _) => covered = true ∨ ticket.Past world
  | _ => False

/-- What a call relies on. -/
structure Launcher.Sound (fenced : Prop) (shared : LaunchWorld) (launcher : Launcher) : Prop where
  coherent : launcher.thread.task.Coherent
  books : launcher.thread.task.Bookkeeping launcher.thread.runtime.owner
  numbered : ∀ held ∈ launcher.held, held.grant.number < shared.log.length
  claim : ∀ {flowId childId launched},
    launcher.thread.task = .launching flowId childId launched →
      ∃ held, launcher.held = some held ∧
        held.Valid fenced shared launcher.thread.runtime.owner ⟨flowId, held.wait, childId⟩
  begun : ∀ ticket ∈ launcher.ticket,
    ticket.wait ≤ waits ticket.flowId shared.world.history
  ready : fenced → ∀ ticket ∈ launcher.ticket,
    launcher.thread.task.Ready shared.world ticket launcher.covered launcher.thread.since

def Launcher.Apart (one two : Launcher) : Prop :=
  ∀ held ∈ one.held, ∀ other ∈ two.held, held.grant.number ≠ other.grant.number

variable {before : World} {after : World} {ticket : LaunchTicket} {fenced : Prop} {covered : Bool}
  {held : Held}

lemma LaunchTicket.Past.keeps (past : ticket.Past before) (keeps : Keeps before after)
    (begun : ticket.wait ≤ waits ticket.flowId before.history) : ticket.Past after := by
  intro later held waiting here
  obtain ⟨grows, kept⟩ := keeps ticket.flowId
  obtain ⟨nextWait, laterWaits⟩ := Option.isSome_iff_exists.mp waiting
  obtain ⟨stored, was, wait, waited, -⟩ := kept (by omega) later held nextWait laterWaits
  exact past stored was (Option.isSome_iff_exists.mpr ⟨wait, waited⟩) (by omega)

lemma Task.Ready.keeps {since} {task : Task}
    (ready : task.Ready before ticket covered since) (keeps : Keeps before after)
    (begun : ticket.wait ≤ waits ticket.flowId before.history) :
    task.Ready after ticket covered since := by
  cases task with
  | launchClaim =>
    obtain ⟨flow, yes | past | free⟩ := ready
    · exact ⟨flow, .inl yes⟩
    · exact ⟨flow, .inr (.inl (past.keeps keeps begun))⟩
    · exact ⟨flow, .inr (.inr free)⟩
  | returned result =>
    cases result with
    | error => trivial
    | ok =>
      rcases ready with yes | past
      · exact .inl yes
      · exact .inr (past.keeps keeps begun)
  | _ => exact ready

/-! ### What an action leaves of other calls -/

/-- What an action of a call does to the log: it takes over a child only from an expired claim, and
where `fenced` it settles no claim but its own. -/
inductive Logs (fenced : Prop) (launcher : Launcher) (shared : LaunchWorld) :
    List LaunchEvent → Prop
  | nothing : Logs fenced launcher shared shared.log
  | called (key : ChildKey) (owner : String) (time : Nat) :
      Logs fenced launcher shared (shared.log ++ [.called key owner time])
  | granted {key : ChildKey} (grant : Grant)
      (expired : ∀ earlier ∈ standing key shared.log, earlier.expiresAt ≤ shared.world.clock) :
      Logs fenced launcher shared (shared.log ++ [.granted key grant])
  | settled {key : ChildKey}
      (own : fenced → standing key shared.log = launcher.held.map (·.grant)) :
      Logs fenced launcher shared (shared.log ++ [.settled key])

section

variable {launcher bystander : Launcher} {shared : LaunchWorld} {log : List LaunchEvent}

lemma Logs.grows (logs : Logs fenced launcher shared log) : shared.log <+: log := by
  cases logs with
  | nothing => exact prefix_refl _
  | called | granted | settled => exact prefix_append _ _

lemma Logs.stands (logs : Logs fenced launcher shared log) (isFenced : fenced) {grant}
    (stands : standing key shared.log = some grant)
    (apart : ∀ held ∈ launcher.held, held.grant.number ≠ grant.number) :
    grant.expiresAt ≤ shared.world.clock ∨ standing key log = some grant := by
  cases logs with
  | nothing => exact .inr stands
  | called => exact .inr ((standing_of_ne rfl).trans stands)
  | @granted other later expired =>
    by_cases here : other = key
    · subst here
      exact .inl (expired grant stands)
    · exact .inr ((standing_of_ne (by exact if_neg here)).trans stands)
  | @settled other own =>
    by_cases here : other = key
    · subst here
      obtain ⟨held, mine, same⟩ :=
        Option.map_eq_some_iff.mp ((own isFenced).symm.trans stands)
      exact absurd (congrArg Grant.number same) (apart held mine)
    · exact .inr ((standing_of_ne (by exact if_neg here)).trans stands)

lemma Held.Valid.logs (valid : held.Valid fenced shared owner key)
    (logs : Logs fenced launcher shared log) (clock : after.clock = shared.world.clock)
    (apart : ∀ other ∈ launcher.held, other.grant.number ≠ held.grant.number) :
    held.Valid fenced ⟨after, log⟩ owner key where
  granted := logs.grows.subset valid.granted
  owner := valid.owner
  stands := by
    intro isFenced
    show held.grant.expiresAt ≤ after.clock ∨ _
    rw [clock]
    rcases valid.stands isFenced with expired | stands
    · exact .inl expired
    · exact logs.stands isFenced stands apart

lemma Launcher.Sound.logs (holds : bystander.Sound fenced shared)
    (logs : Logs fenced launcher shared log) (clock : after.clock = shared.world.clock)
    (keeps : Keeps shared.world after) (apart : launcher.Apart bystander) :
    bystander.Sound fenced ⟨after, log⟩ :=
  { holds with
    numbered := fun held mine => lt_of_lt_of_le (holds.numbered held mine) logs.grows.length_le
    claim := by
      intro flowId childId launched launching
      obtain ⟨held, mine, valid⟩ := holds.claim launching
      exact ⟨held, mine, valid.logs logs clock fun other theirs => apart other theirs held mine⟩
    begun := fun ticket mine => le_trans (holds.begun ticket mine) (keeps _).1
    ready := fun isFenced ticket mine =>
      (holds.ready isFenced ticket mine).keeps keeps (holds.begun ticket mine) }

end

/-! ### Actions -/

/-- What an action leaves. -/
structure Launcher.Moves (fenced : Prop) (shared after : LaunchWorld) (launcher next : Launcher) :
    Prop where
  sound : after.Sound fenced
  holds : next.Sound fenced after
  clock : after.world.clock = shared.world.clock
  keeps : Keeps shared.world after.world
  logs : Logs fenced launcher shared after.log
  fresh : ∀ held ∈ next.held, held.grant.number = shared.log.length ∨
    ∃ earlier ∈ launcher.held, earlier.grant = held.grant

section

variable {launcher : Launcher} {shared : LaunchWorld}

lemma Launcher.calling_eq_some (calling : launcher.calling = some (key, held)) :
    ∃ flowId childId launched, launcher.thread.task = .launching flowId childId launched ∧
      launcher.held = some held ∧ key = ⟨flowId, held.wait, childId⟩ := by
  simp only [Launcher.calling] at calling
  split at calling
  · split at calling <;> cases calling
    exact ⟨_, _, _, ‹_›, ‹_›, rfl⟩
  · cases calling

lemma Launcher.moves_call (sound : shared.Sound fenced) (holds : launcher.Sound fenced shared)
    (calling : launcher.calling = some (key, held))
    (timely : fenced → shared.world.clock < held.grant.expiresAt) :
    launcher.Moves fenced shared
      { shared with
        log := shared.log ++ [.called key launcher.thread.runtime.owner shared.world.clock] }
      { launcher with held := some { held with called := true } } := by
  obtain ⟨flowId, childId, launched, launching, mine, rfl⟩ := calling_eq_some calling
  obtain ⟨_, same, valid⟩ := holds.claim launching
  cases mine.symm.trans same
  have permitted : launchLaw fenced shared.log
      (.called ⟨flowId, held.wait, childId⟩ launcher.thread.runtime.owner shared.world.clock) := by
    refine ⟨⟨held.grant, valid.granted, valid.owner⟩, fun isFenced grant stands _ => ?_⟩
    rcases valid.stands isFenced with expired | own
    · exact absurd (timely isFenced) (not_lt.mpr expired)
    · cases own.symm.trans stands
      exact valid.owner
  have grows : shared.log <+: shared.log ++ [LaunchEvent.called ⟨flowId, held.wait, childId⟩
      launcher.thread.runtime.owner shared.world.clock] := prefix_append _ _
  exact
    { sound := sound.call permitted
      holds :=
        { holds with
          numbered := fun other here => by
            cases here
            exact lt_of_lt_of_le (holds.numbered held mine) grows.length_le
          claim := fun same => by
            cases launching.symm.trans same
            exact ⟨_, rfl, grows.subset valid.granted, valid.owner, fun isFenced =>
              (valid.stands isFenced).imp id (standing_of_ne rfl).trans⟩ }
      clock := rfl
      keeps := .refl _
      logs := .called ..
      fresh := fun other here => by
        cases here
        exact .inr ⟨held, mine, rfl⟩ }

variable {choice : Choice} {thread : Thread} {now : Nat} {next : Task}

/-- What an action of a call's thread does, from what it adds to the log. -/
lemma Launcher.moves_thread {log held}
    (acted : launcher.thread.act choice shared.world = some (after, thread))
    (sound : shared.Sound fenced) (holds : launcher.Sound fenced shared)
    (sound_after : LaunchWorld.Sound fenced ⟨after, log⟩) (logs : Logs fenced launcher shared log)
    (fresh : ∀ own ∈ held, own.grant.number = shared.log.length ∧ shared.log.length < log.length ∨
      ∃ earlier ∈ launcher.held, earlier.grant = own.grant)
    (claim : ∀ {flowId childId launched},
      thread.task = .launching flowId childId launched → ∃ own, held = some own ∧
        own.Valid fenced ⟨after, log⟩ launcher.thread.runtime.owner ⟨flowId, own.wait, childId⟩)
    (ready : fenced → ∀ ticket ∈ launcher.ticket,
      thread.task.Ready after ticket covered shared.world.clock) :
    launcher.Moves fenced shared ⟨after, log⟩ ⟨thread, launcher.ticket, held, covered⟩ := by
  obtain ⟨-, shape, ran⟩ := Thread.act_eq_some acted
  have acts := act_acts ran
  have keeps := acts.keeps holds.coherent
  have runtime : thread.runtime = launcher.thread.runtime := by rw [shape]
  have since : thread.since = shared.world.clock := by rw [shape]
  exact
    { sound := sound_after
      holds :=
        { coherent := acts.coherent holds.coherent sound.suspended
          books := by
            show thread.task.Bookkeeping thread.runtime.owner
            rw [runtime]
            exact act_bookkeeping ran
          numbered := fun own mine => by
            rcases fresh own mine with ⟨same, later⟩ | ⟨earlier, was, same⟩
            · exact same ▸ later
            · exact same ▸ lt_of_lt_of_le (holds.numbered earlier was) logs.grows.length_le
          claim := by
            show ∀ {flowId childId launched}, _ → ∃ own, _ ∧
              Held.Valid fenced _ thread.runtime.owner _ own
            rw [runtime]
            exact claim
          begun := fun ticket mine => le_trans (holds.begun ticket mine) (keeps _).1
          ready := by
            show fenced → ∀ ticket ∈ launcher.ticket,
              thread.task.Ready after ticket covered thread.since
            rw [since]
            exact ready }
      clock := acts.clock
      keeps := keeps
      logs := logs
      fresh := fun own mine => (fresh own mine).imp And.left id }

lemma ready_launches {runtime since world after task}
    (launches : FlowRuntime.Launches runtime now world task after next) (keyed : world.store.Keyed)
    (suspended : WaitsSuspended world) (later : since ≤ now)
    (representable : ∀ found wait launched retries,
      task = .launchClaim found wait launched retries →
      now + max runtime.staleAfter 1 ≤ latestTime) (ready : task.Ready world ticket covered since) :
    next.Ready after ticket (covered || ticket.covered world) world.clock := by
  cases launches with
  | fails => trivial
  | finished launched retries held idle =>
    obtain rfl : _ = ticket.flowId := ready
    refine .inr fun stored was waiting _ => ?_
    cases held.symm.trans was
    rcases idle with terminal | nothing
    · rw [(suspended _ _ held waiting).1] at terminal
      cases terminal
    · rw [nothing] at waiting
      cases waiting
  | @read flowId found wait launched retries held waiting valid =>
    obtain rfl : flowId = ticket.flowId := ready
    refine ⟨keyed _ _ held, ?_⟩
    by_cases here : waits ticket.flowId world.history = ticket.wait
    · by_cases all : wait.childLaunches.all
          (fun child => !WaitCondition.claimable world.clock child) = true
      · have yes : ticket.covered world = true := by
          simp [LaunchTicket.covered, held, waiting, here, all]
        exact .inl (by rw [yes, Bool.or_true])
      · simp only [all_eq_true, Bool.not_eq_true', not_forall,
          Bool.not_eq_false] at all
        obtain ⟨child, listed, free⟩ := all
        exact .inr (.inr ⟨child, listed, free⟩)
    · exact .inr (.inl fun _ _ _ => here)
  | done found launched retries nothing =>
    obtain ⟨-, yes | past | ⟨child, listed, free⟩⟩ := ready
    · exact .inl (by rw [yes, Bool.true_or])
    · exact .inr past
    · exact absurd nothing (claimNextChild_ne_none (representable _ _ _ _ rfl) listed
        (claimable_later later free))
  | retry | claim => exact ready.1
  | answer | settled | refinish => exact ready
  | finish _ _ held =>
    obtain rfl : _ = ticket.flowId := ready
    exact keyed _ _ held
  | settle _ result =>
    cases result with
    | error => trivial
    | ok => exact ready

lemma Launcher.event_same
    (still : ∀ flowId childId launched, next ≠ .launching flowId childId launched) :
    launcher.event now shared shared.world next = none := by
  simp only [event]
  split
  · exact absurd rfl (still _ _ _)
  · simp
  · rfl

/-- Only a call that is about to claim or to settle a child makes a launch event. -/
lemma Launcher.event_elsewhere (elsewhere : launcher.thread.task.midLaunch = false) :
    launcher.event now shared after next = none := by
  simp only [event]
  split
  · rename_i claiming
    rw [claiming] at elsewhere
    cases elsewhere
  · rename_i settling
    rw [settling] at elsewhere
    cases elsewhere
  · rfl

lemma LaunchWorld.Sound.expired {wait claimedWait childId}
    {claimFor} (sound : shared.Sound fenced)
    (held : shared.world.store found.state.id = some found) (waiting : found.wait = some wait)
    (timely : now ≤ shared.world.clock)
    (claimed : wait.claimNextChild owner now claimFor = some (childId, claimedWait)) :
    ∀ earlier ∈ standing ⟨found.state.id, waits found.state.id shared.world.history, childId⟩
      shared.log, earlier.expiresAt ≤ shared.world.clock := by
  intro earlier stands
  obtain ⟨index, child, place, free, named, -⟩ :=
    setLaunch_eq_some (claimNextChild_eq_some claimed).2
  have state := sound.linked stands rfl found held wait waiting child
    (mem_of_getElem? place) named
  simp only [WaitCondition.claimable, state, decide_eq_true_eq] at free
  exact le_trans free timely

/-- The move of a launcher whose call goes on to `thread`. -/
abbrev Launcher.MovesBy (launcher : Launcher) (fenced : Prop) (shared : LaunchWorld) (now : Nat)
    (after : World) (thread : Thread) : Prop :=
  launcher.Moves fenced shared
    ⟨after, shared.log ++ (launcher.event now shared after thread.task).toList⟩
    ⟨thread, launcher.ticket,
      holding launcher.held (launcher.event now shared after thread.task),
      launcher.covered || launcher.ticket.any (·.covered shared.world)⟩

variable (acted : launcher.thread.act choice shared.world = some (after, thread))
include acted

variable (sound : shared.Sound fenced) (holds : launcher.Sound fenced shared)
  (orderly : fenced → launcher.orderly (some choice) shared = true)
include sound holds orderly

lemma Launcher.moves_launches (launching : launcher.thread.task.launches = true) :
    launcher.MovesBy fenced shared choice.now after thread := by
  unfold Launcher.MovesBy
  obtain ⟨timely, shape, ran⟩ := Thread.act_eq_some acted
  have launches := act_launches ran launching
  have later := Thread.since_le acted
  have acts := act_acts ran
  have suspended := acts.waitsSuspended holds.coherent sound.suspended
  have keyed := acts.keyed sound.keyed
  have ready : fenced → ∀ ticket ∈ launcher.ticket, thread.task.Ready after ticket
      (launcher.covered || launcher.ticket.any (·.covered shared.world)) shared.world.clock := by
    intro isFenced ticket mine
    have within : ∀ found wait launched retries,
        launcher.thread.task = .launchClaim found wait launched retries →
          choice.now + max launcher.thread.runtime.staleAfter 1 ≤ latestTime := by
      intro found wait launched retries claiming
      have admitted := orderly isFenced
      simp only [Launcher.orderly, claiming, decide_eq_true_eq] at admitted
      exact admitted
    rw [Option.mem_def.mp mine]
    exact ready_launches launches sound.keyed sound.suspended later within
      (holds.ready isFenced ticket mine)
  generalize starting : launcher.thread.task = task at launches
  generalize next : thread.task = moved at launches
  cases launches with
  | @claim found wait claimedWait childId _ launched retries claimed rewritten =>
    have books := holds.books
    rw [starting] at books
    have event : launcher.event choice.now shared after thread.task = some
        (.granted ⟨found.state.id, waits found.state.id after.history, childId⟩
          ⟨shared.log.length, launcher.thread.runtime.owner,
            choice.now + max launcher.thread.runtime.staleAfter 1⟩) := by
      simp [event, starting, next]
    rw [← next, event, Option.toList_some]
    have claims : LaunchEvent.claim ⟨found.state.id, waits found.state.id after.history, childId⟩
        (.granted ⟨found.state.id, waits found.state.id after.history, childId⟩
          ⟨shared.log.length, launcher.thread.runtime.owner,
            choice.now + max launcher.thread.runtime.staleAfter 1⟩) = some (some _) := if_pos rfl
    have set := (claimNextChild_eq_some claimed).2
    refine moves_thread acted sound holds ?_ (.granted _ ?_) (fun own mine => ?_)
      (fun launching => ?_) ready
    · refine sound.rewrite rewritten keyed suspended books.1 ⟨trivial, fun _ => trivial⟩ rfl rfl
        claims (fun other differs => if_neg differs.symm)
        (fun child listed differs => setLaunch_others set listed differs)
        (fun grant same child listed named => ?_)
      cases same
      exact setLaunch_moved set (nodup_of_validate books.2) listed named
    · rw [rewritten.waits_eq]
      exact sound.expired rewritten.held books.1 timely claimed
    · cases mine
      exact .inl ⟨rfl, by simp⟩
    · rw [next] at launching
      cases launching
      exact ⟨_, rfl, by simp, rfl, fun _ => .inr (standing_of_claim claims)⟩
  | @settle found nextWait _ childId result launched retries rewritten =>
    obtain ⟨wait, waiting, settles⟩ : ∃ wait, found.wait = some wait ∧
        wait.settleChild childId launcher.thread.runtime.owner result = some nextWait := by
      have books := holds.books
      rwa [starting] at books
    have grown : after.history.length ≠ shared.world.history.length := by
      rw [rewritten.history]
      simp
    have event : launcher.event choice.now shared after thread.task =
        some (.settled ⟨found.state.id, waits found.state.id after.history, childId⟩) := by
      simp [event, starting, if_neg grown]
    rw [← next, event, Option.toList_some]
    have claims : LaunchEvent.claim ⟨found.state.id, waits found.state.id after.history, childId⟩
        (.settled ⟨found.state.id, waits found.state.id after.history, childId⟩) = some none :=
      if_pos rfl
    obtain ⟨state, -, set⟩ := settleChild_eq_some settles
    refine moves_thread acted sound holds ?_ (.settled fun isFenced => ?_)
      (fun own mine => .inr ⟨own, mine, rfl⟩) (fun launching => ?_) ready
    · exact sound.rewrite rewritten keyed suspended waiting ⟨trivial, fun _ => trivial⟩ rfl rfl
        claims (fun other differs => if_neg differs.symm)
        (fun child listed differs => setLaunch_others set listed differs)
        (fun grant same => by cases same)
    · have admitted := orderly isFenced
      simp only [Launcher.orderly, starting, decide_eq_true_eq] at admitted
      rw [rewritten.waits_eq]
      exact admitted.resolve_left (not_not.mpr rewritten.held)
    · rw [next] at launching
      cases result <;> cases launching
  | _ =>
    have still : ∀ flowId childId launched, thread.task ≠ .launching flowId childId launched := by
      rw [next]
      exact nofun
    rw [← next, event_same still, Option.toList_none, append_nil]
    refine moves_thread acted sound holds sound .nothing (fun own mine => ?_)
      (fun launching => ?_) ready
    · exact .inr ⟨own, mine, rfl⟩
    · exact absurd launching (still _ _ _)

lemma Launcher.moves_act : launcher.MovesBy fenced shared choice.now after thread := by
  unfold Launcher.MovesBy
  cases launching : launcher.thread.task.launches with
  | true => exact moves_launches acted sound holds orderly launching
  | false =>
    obtain ⟨-, -, ran⟩ := Thread.act_eq_some acted
    have acts := act_acts ran
    have elsewhere := Task.not_midLaunch_of_not_launches launching
    rw [event_elsewhere elsewhere, Option.toList_none, append_nil]
    refine moves_thread acted sound holds
      (sound.quiet (acts.quiet holds.coherent elsewhere) (acts.keyed sound.keyed)
        (acts.waitsSuspended holds.coherent sound.suspended))
      .nothing (fun own mine => .inr ⟨own, mine, rfl⟩) (fun next => ?_)
      (fun isFenced ticket mine => ?_)
    · have outside := acts.not_midLaunch launching
      rw [next] at outside
      cases outside
    · -- A call with a ticket is launching or has returned.
      have ready := holds.ready isFenced ticket mine
      cases task : launcher.thread.task with
      | returned =>
        rw [task, act_returned] at ran
        cases ran
      | launch _ _ _ | launchClaim _ _ _ _ | launching _ _ _ | launchFinish _ _ _ _ _
      | launchSettle =>
        rw [task] at launching
        cases launching
      | _ =>
        rw [task] at ready
        exact ready.elim

end

/-! ### Every run -/

lemma launchers_act {choice launcher next}
    {shared after} (acted : launchers.act choice launcher shared = some (after, next))
    (sound : shared.Sound fenced) (holds : launcher.Sound fenced shared)
    (orderly : fenced → launcher.orderly choice shared = true) :
    launcher.Moves fenced shared after next ∧
      Proceeds launcher.thread.runtime.owner shared.world after.world := by
  simp only [launchers, Launcher.act] at acted
  split at acted
  · rename_i key held calling
    cases acted
    refine ⟨moves_call sound holds calling fun isFenced => ?_, (Quiet.refl _).proceeds _⟩
    obtain ⟨-, -, -, -, mine, -⟩ := calling_eq_some calling
    have admitted := orderly isFenced
    simpa [Launcher.orderly, mine] using admitted
  · obtain ⟨⟨world, thread⟩, moved, same⟩ := Option.map_eq_some_iff.mp acted
    cases same
    obtain ⟨timely, -, ran⟩ := Thread.act_eq_some moved
    exact ⟨moves_act moved sound holds orderly,
      act_proceeds ran holds.coherent holds.books timely⟩
  · cases acted

def launchOutline (fenced : Prop) : Machine.Outline LaunchWorld Launcher :=
  ⟨LaunchWorld.Sound fenced, Launcher.Sound fenced, Launcher.Apart⟩

lemma Launcher.Moves.apart {shared after} {launcher next bystander : Launcher}
    (moves : launcher.Moves fenced shared after next) (apart : launcher.Apart bystander)
    (holds : bystander.Sound fenced shared) : next.Apart bystander := by
  intro held mine other theirs same
  rcases moves.fresh held mine with new | ⟨earlier, was, grant⟩
  · exact absurd (holds.numbered other theirs) (by omega)
  · exact apart earlier was other theirs (grant ▸ same)

lemma Launcher.Apart.symm {one two : Launcher} (apart : one.Apart two) : two.Apart one :=
  fun held mine other theirs => (apart other theirs held mine).symm

lemma Launcher.Sound.tick {shared} {launcher : Launcher}
    (holds : launcher.Sound fenced shared) (elapsed : Nat) :
    launcher.Sound fenced { shared with world := shared.world.tick elapsed } :=
  { holds with
    claim := by
      intro flowId childId launched launching
      obtain ⟨held, mine, valid⟩ := holds.claim launching
      exact ⟨held, mine, valid.granted, valid.owner, fun isFenced =>
        (valid.stands isFenced).imp Nat.le_add_right_of_le id⟩
    ready := fun isFenced ticket mine =>
      (holds.ready isFenced ticket mine).keeps (Keeps.refl shared.world) (holds.begun ticket mine) }

lemma Launcher.sound_enter (fenced : Prop) (shared : LaunchWorld) (runtime)
    (request) :
    Launcher.Sound fenced shared (launchers.enter (runtime, request) shared) where
  coherent := by cases request <;> trivial
  books := by cases request <;> trivial
  numbered := fun held mine => by cases mine
  claim := fun launching => by cases request <;> cases launching
  begun := by
    intro ticket mine
    cases request with
    | launchWaitingChildren =>
      cases mine
      exact le_rfl
    | _ => cases mine
  ready := by
    intro _ ticket mine
    cases request with
    | launchWaitingChildren =>
      cases mine
      rfl
    | _ => cases mine

lemma launchOutline_valid
    {guard : Label (Option Choice) Nat (FlowRuntime × Request) → System LaunchWorld Launcher → Prop}
    (admits : fenced → ∀ {index choice system launcher}, guard (.act index choice) system →
      system.threads[index]? = some launcher → launcher.orderly choice system.shared = true) :
    (launchOutline fenced).Valid launchers guard where
  own := by
    intro system index choice launcher next shared holds admitted here acted
    have moves := (launchers_act acted holds.shared (holds.thread here)
      fun isFenced => admits isFenced admitted here).1
    exact ⟨moves.sound, moves.holds⟩
  other := by
    intro system index rival choice launcher next bystander shared holds admitted here acted
      elsewhere found
    have moves := (launchers_act acted holds.shared (holds.thread here)
      fun isFenced => admits isFenced admitted here).1
    have apart : launcher.Apart bystander := holds.pair elsewhere.symm here found
    have still := moves.apart apart (holds.thread found)
    exact ⟨(holds.thread found).logs moves.logs moves.clock moves.keeps apart, still, still.symm⟩
  env := by
    intro system elapsed shared holds _ ticked
    cases ticked
    exact ⟨holds.shared.tick elapsed, fun found => (holds.thread found).tick elapsed⟩
  enter := by
    rintro system ⟨runtime, request⟩ holds _
    refine ⟨sound_enter fenced system.shared runtime request, fun found => ⟨?_, ?_⟩⟩
    · intro held mine
      cases mine
    · intro held mine other theirs
      cases theirs

/-- While a wait lasts its results stay, and its launched children stay launched. -/
def Lasting : World → World → Prop :=
  WaitsRelated fun wait nextWait => wait.results <+: nextWait.results ∧
    ∀ (index : Nat) (child : FlowChildLaunch), wait.childLaunches[index]? = some child →
      child.state = .launched → nextWait.childLaunches[index]? = some child

lemma Lasting.refl : Lasting world world :=
  WaitsRelated.refl (fun _ => ⟨prefix_refl _, fun _ _ found _ => found⟩) world

lemma Lasting.trans {first second third} (one : Lasting first second)
    (two : Lasting second third) : Lasting first third := by
  intro flowId
  obtain ⟨grows, kept⟩ := one flowId
  obtain ⟨grows_later, kept_later⟩ := two flowId
  refine ⟨le_trans grows grows_later, fun same last held lastWait waiting => ?_⟩
  obtain ⟨middle, between, wait, waited, results, children⟩ :=
    kept_later (by omega) last held lastWait waiting
  obtain ⟨stored, was, firstWait, waited_first, results_first, children_first⟩ :=
    kept (by omega) middle between wait waited
  exact ⟨stored, was, firstWait, waited_first, results_first.trans results,
    fun index child found launched =>
      children index child (children_first index child found launched) launched⟩

lemma WaitCondition.Advances.launched {wait next : WaitCondition} {clock}
    (advances : wait.Advances clock owner next) {index : Nat} {child}
    (found : wait.childLaunches[index]? = some child) (launched : child.state = .launched) :
    next.childLaunches[index]? = some child := by
  obtain ⟨inside, at_index⟩ := List.getElem?_eq_some_iff.mp found
  obtain ⟨length, related⟩ := forall₂_iff_get.mp advances.children
  have inside_next : index < next.childLaunches.length := length ▸ inside
  obtain ⟨named, step⟩ := related index inside inside_next
  simp only [get_eq_getElem, at_index] at named step
  rw [List.getElem?_eq_getElem inside_next, Option.some.injEq]
  obtain ⟨id, state⟩ := child
  obtain rfl : state = .launched := launched
  cases after : next.childLaunches[index] with
  | mk nextId =>
    rw [after] at named step
    obtain rfl : nextId = id := named
    cases step
    rfl

lemma Proceeds.lasting (proceeds : Proceeds owner before after) (keeps : Keeps before after) :
    Lasting before after := by
  refine fun flowId => ⟨(keeps flowId).1, fun same later held nextWait waiting => ?_⟩
  obtain ⟨stored, was, wait, waited, advances⟩ := proceeds flowId same later held nextWait waiting
  exact ⟨stored, was, wait, waited, advances.results, fun index child found launched =>
    advances.launched found launched⟩

lemma lasting_step {label}
    {system after} (holds : (launchOutline False).Holds system)
    (taken : launchers.step label system = some after) :
    Lasting system.shared.world after.shared.world := by
  cases label with
  | act =>
    obtain ⟨launcher, shared, next, here, acted, rfl⟩ := Machine.step_act taken
    obtain ⟨moves, proceeds⟩ := launchers_act acted holds.shared (holds.thread here) False.elim
    exact proceeds.lasting moves.keeps
  | env | spawn =>
    cases taken
    exact Lasting.refl system.shared.world

/-- The launcher is called for a child only by a runtime that has stored a claim of it, the children
of a wait that lasts take steps, its results are kept, and launched children stay launched.  In
every orderly run it is called under an unexpired claim by its owner alone, and a call that has
returned with the flow still on its wait has met a moment at which every child was launched or under
an unexpired claim. -/
theorem launches_in_order (labels : List (Label (Option Choice) Nat (FlowRuntime × Request)))
    (system : System LaunchWorld Launcher) :
    (Runs launchers.step (fun _ _ => True) launchersStart labels system →
      Lawful claimedFirst system.shared.log ∧
      (∀ index choice launcher after, system.threads[index]? = some launcher →
        launchers.step (.act index choice) system = some after →
          Proceeds launcher.thread.runtime.owner system.shared.world after.shared.world) ∧
      ∀ more later, Runs launchers.step (fun _ _ => True) system more later →
        Lasting system.shared.world later.shared.world) ∧
    (Runs launchers.step (fun label before => orderly label before = true) launchersStart labels
        system →
      Lawful exclusive system.shared.log ∧
      ∀ launcher ∈ system.threads, launcher.Covered system.shared.world) := by
  constructor
  · intro run
    have valid : (launchOutline False).Valid launchers fun _ _ => True :=
      launchOutline_valid False.elim
    have initial : (launchOutline False).shared ⟨World.new, []⟩ := LaunchWorld.Sound.new False
    have holds := valid.runs initial run
    refine ⟨holds.shared.lawful.mono And.left, ?_, ?_⟩
    · intro index choice launcher after here taken
      obtain ⟨_, shared, next, found, acted, rfl⟩ := Machine.step_act taken
      cases here.symm.trans found
      exact (launchers_act acted holds.shared (holds.thread here) False.elim).2
    · intro more later continued
      have both : (launchOutline False).Holds later ∧
          Lasting system.shared.world later.shared.world := by
        induction continued with
        | nil => exact ⟨holds, .refl _⟩
        | snoc _ admitted taken ih =>
          exact ⟨valid.step ih.1 admitted taken, ih.2.trans (lasting_step ih.1 taken)⟩
      exact both.2
  · intro run
    have valid : (launchOutline True).Valid launchers fun label before =>
        orderly label before = true := by
      refine launchOutline_valid fun _ index choice system launcher admitted here => ?_
      simpa [orderly, here] using admitted
    have initial : (launchOutline True).shared ⟨World.new, []⟩ := LaunchWorld.Sound.new True
    have holds := valid.runs initial run
    refine ⟨holds.shared.lawful.mono fun permitted => permitted.2 trivial, ?_⟩
    intro launcher member ticket mine succeeded stored held waiting here
    obtain ⟨index, found⟩ := mem_iff_getElem?.mp member
    have ready := (holds.thread found).ready trivial ticket mine
    cases task : launcher.thread.task with
    | returned result =>
      cases result with
      | error =>
        rw [task] at succeeded
        cases succeeded
      | ok =>
        rw [task] at ready
        exact ready.resolve_right fun past => past stored held waiting here
    | _ =>
      rw [task] at succeeded
      cases succeeded

/-- A runtime with the given lease starts a flow that comes to wait on two children. -/
def fanOut (staleAfter : Nat) : List (Label (Option Choice) Nat (FlowRuntime × Request)) :=
  [.spawn (⟨batch, "a", staleAfter⟩, .start "b-1" []), .act 0 (some ⟨0, .go⟩),
    .act 0 (some ⟨0, .go⟩), .act 0 (some ⟨0, .go⟩),
    .act 0 (some ⟨0, .outcome (.ok (.wait twoChildren))⟩), .act 0 (some ⟨0, .go⟩)]

def launchOne (index now : Nat) : List (Label (Option Choice) Nat (FlowRuntime × Request)) :=
  [.act index (some ⟨now, .go⟩), .act index (some ⟨now, .go⟩), .act index none,
    .act index (some ⟨now, .launched (.ok ())⟩), .act index (some ⟨now, .go⟩),
    .act index (some ⟨now, .go⟩)]

/-- With a lease whose end cannot be represented, a call returns successfully although both children
are pending; and a slow runtime calls the launcher under a later claim, after its holder has. -/
theorem launches_out_of_order :
    (∃ labels system, Runs launchers.step (fun _ _ => True) launchersStart labels system ∧
      system.threads.map (·.thread.task.success) =
        [some (.state ⟨"b-1", "batch", .suspended, 1, 2, none, 0, [], none⟩), some (.count 0)] ∧
      ¬∀ launcher ∈ system.threads, launcher.Covered system.shared.world) ∧
    ∃ labels system, Runs launchers.step (fun _ _ => True) launchersStart labels system ∧
      system.shared.log =
        [.granted ⟨"b-1", 1, "x"⟩ ⟨0, "a", 30⟩, .granted ⟨"b-1", 1, "x"⟩ ⟨1, "b", 61⟩,
          .called ⟨"b-1", 1, "x"⟩ "b" 31, .called ⟨"b-1", 1, "x"⟩ "a" 31] ∧
      ¬Lawful exclusive system.shared.log := by
  constructor
  · exact ⟨fanOut ((2 ^ 64 - 1) * 10 ^ 9 + 999999999) ++
      [.spawn (⟨batch, "a", (2 ^ 64 - 1) * 10 ^ 9 + 999999999⟩, .launchWaitingChildren "b-1"),
        .act 1 (some ⟨0, .go⟩), .act 1 (some ⟨0, .go⟩)],
      Runs.exists_of_execWhile _ _ _ _ _ (by decide)⟩
  · refine ⟨fanOut 30 ++
      [.spawn (⟨batch, "a", 30⟩, .launchWaitingChildren "b-1"), .act 1 (some ⟨0, .go⟩),
        .act 1 (some ⟨0, .go⟩), .env 31,
        .spawn (⟨batch, "b", 30⟩, .launchWaitingChildren "b-1"), .act 2 (some ⟨31, .go⟩),
        .act 2 (some ⟨31, .go⟩), .act 2 none, .act 1 none],
      Runs.exists_and_of_execWhile (by decide) fun _ log lawful => ?_⟩
    rw [log] at lawful
    have alone := lawful
      [.granted ⟨"b-1", 1, "x"⟩ ⟨0, "a", 30⟩, .granted ⟨"b-1", 1, "x"⟩ ⟨1, "b", 61⟩,
        .called ⟨"b-1", 1, "x"⟩ "b" 31]
      (.called ⟨"b-1", 1, "x"⟩ "a" 31) [] rfl
    exact absurd (alone ⟨1, "b", 61⟩ (by decide) (by decide)) (by decide)

theorem two_launches :
    ∃ labels system,
      Runs launchers.step (fun label before => orderly label before = true) launchersStart labels
        system ∧
      system.shared.log =
        [.granted ⟨"b-1", 1, "x"⟩ ⟨0, "a", 30⟩, .called ⟨"b-1", 1, "x"⟩ "a" 0,
          .settled ⟨"b-1", 1, "x"⟩, .granted ⟨"b-1", 1, "y"⟩ ⟨3, "a", 30⟩,
          .called ⟨"b-1", 1, "y"⟩ "a" 0, .settled ⟨"b-1", 1, "y"⟩] ∧
      Lawful claimedFirst system.shared.log ∧ Lawful exclusive system.shared.log ∧
      ∀ launcher ∈ system.threads, launcher.Covered system.shared.world := by
  refine ⟨fanOut 30 ++ [.spawn (⟨batch, "a", 30⟩, .launchWaitingChildren "b-1")] ++ launchOne 1 0 ++
    launchOne 1 0 ++ [.act 1 (some ⟨0, .go⟩), .act 1 (some ⟨0, .go⟩)],
    Runs.exists_and_of_execWhile (by decide) fun run _ => ?_⟩
  exact ⟨((launches_in_order _ _).1 (run.mono fun _ => trivial)).1, (launches_in_order _ _).2 run⟩

end Catga.Flow
