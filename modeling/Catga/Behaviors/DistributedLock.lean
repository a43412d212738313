import Catga.Error
import Catga.Foundation.Threads
import Catga.Memory.Lease

/-!
# The distributed lock behavior

Any number of behaviors, in any processes, guard handlers with leases of one store.  An operation of
the store takes effect at one point between its request and its answer; the answer may be lost, and
a request whose caller has gone away may still take effect later.  A call is dropped at any point,
and its handler with it.
-/

namespace Catga.Behaviors

open Memory

/-- What a behavior is constructed with; durations in nanoseconds. -/
structure DistributedLockBehavior where
  ownerPrefix : String
  leaseDuration : Nat
  waitTimeout : Nat

def DistributedLockBehavior.new (ownerPrefix : String) (leaseDuration : Nat) :
    DistributedLockBehavior where
  ownerPrefix := ownerPrefix
  leaseDuration := leaseDuration
  waitTimeout := 0

variable (behavior : DistributedLockBehavior)

def DistributedLockBehavior.renewalDelay : Nat :=
  if behavior.leaseDuration / 2 = 0 then behavior.leaseDuration else behavior.leaseDuration / 2

/-- Whom a lease is for: the prefix of a behavior and a number it has drawn. -/
structure Owner where
  ownerPrefix : String
  number : Nat
deriving DecidableEq

def Owner.name (owner : Owner) : String := owner.ownerPrefix ++ ":" ++ toString owner.number

/-- A request to the store. -/
inductive Operation where
  | tryAcquire (expiry : Nat)
  | renew
  | release

/-- A call and its owner. -/
structure Job (β ρ : Type) where
  behavior : β
  resource : ρ
  owner : Owner
deriving DecidableEq

/-- Where a call stands. -/
inductive Task (α : Type) where
  | asking (deadline : Nat)
  | acquiring (deadline expiry : Nat)
  | acquired (deadline expiry : Nat) (answer : Bool)
  | waiting (deadline wake : Nat)
  /-- The handler runs under a lease that ends at `expiry`; it is renewed at `wake`. -/
  | executing (expiry wake : Nat)
  | renewing (expiry : Nat)
  | renewed (expiry : Nat) (answer : Bool)
  | releasing (result : CatgaResult α)
  | released (result : CatgaResult α) (answer : Bool)
deriving DecidableEq

def Task.executingUntil {α : Type} : Task α → Option Nat
  | .executing expiry _ | .renewing expiry | .renewed expiry _ => some expiry
  | _ => none

def Task.operation {α : Type} : Task α → Option Operation
  | .acquiring _ expiry => some (.tryAcquire expiry)
  | .renewing _ => some .renew
  | .releasing _ => some .release
  | _ => none

inductive Call (β ρ α : Type) where
  | entered (behavior : β) (resource : ρ)
  | begun (job : Job β ρ) (task : Task α)
  | returned (result : CatgaResult α)
  | dropped
deriving DecidableEq

/-- Whether the handler of a call is executing, and until when its lease lasts. -/
def Call.executingUntil {β ρ α : Type} : Call β ρ α → Option Nat
  | .begun _ task => task.executingUntil
  | _ => none

/-- What calls share. -/
structure World (β ρ : Type) where
  leases : MemoryLeases ρ
  clock : Nat
  ownerSequence : β → Nat
  /-- Operations on their way whose callers no longer wait for them. -/
  outstanding : List (Job β ρ × Operation)

def World.start (β ρ : Type) (clock : Nat) : World β ρ where
  leases := fun _ => none
  clock := clock
  ownerSequence := fun _ => 1
  outstanding := []

inductive Choice (α : Type) where
  | go
  /-- The handler finishes; where a renewal is on its way, it arrives later if `late`. -/
  | finish (result : CatgaResult α) (late : Bool)
  /-- The store's operation fails; it takes effect later nevertheless if `late`. -/
  | fail (error : CatgaError) (late : Bool)
  /-- The call is dropped; an operation on its way takes effect later if `late`. -/
  | drop (late : Bool)

inductive Event where
  | tick (time : Nat)
  | land (position : Nat)

section

variable {β ρ α : Type} [DecidableEq β] [DecidableEq ρ] (family : β → DistributedLockBehavior)

variable (world : World β ρ) (job : Job β ρ)

def World.perform : Operation → Bool × MemoryLeases ρ
  | .tryAcquire expiry =>
    world.leases.tryAcquire job.resource job.owner.name expiry (unixMillis world.clock)
  | .renew =>
    world.leases.renew job.resource job.owner.name
      (expiry world.clock (family job.behavior).leaseDuration) (unixMillis world.clock)
  | .release => world.leases.release job.resource job.owner.name

def World.leave (operation : Option Operation) (late : Bool) : World β ρ :=
  match operation with
  | some operation =>
    if late then { world with outstanding := (job, operation) :: world.outstanding } else world
  | none => world

/-- The beginning of `handle`: the owner is drawn. -/
def nextOwner (world : World β ρ) (behavior : β) (resource : ρ) :
    World β ρ × Call β ρ α :=
  if (family behavior).leaseDuration = 0 then
    (world, .returned (.error
      ⟨.validation, "distributed lock lease duration must be greater than zero"⟩))
  else
    let number := world.ownerSequence behavior
    ({ world with
        ownerSequence := Function.update world.ownerSequence behavior ((number + 1) % 2 ^ 64) },
      .begun ⟨behavior, resource, ⟨(family behavior).ownerPrefix, number⟩⟩
        (.asking (world.clock + (family behavior).waitTimeout)))

def afterRelease (result : CatgaResult α) (answer : CatgaResult Bool) : CatgaResult α :=
  match answer, result with
  | .ok false, .ok _ =>
    .error ⟨.internal, "distributed lock ownership was lost before release"⟩
  | .error error, .ok _ => .error error
  | _, result => result

def go : Task α → Option (World β ρ × Call β ρ α)
  | .asking deadline =>
    some (world, .begun job (.acquiring deadline
      (expiry world.clock (family job.behavior).leaseDuration)))
  | .acquiring deadline expiry =>
    let performed := world.perform family job (.tryAcquire expiry)
    some ({ world with leases := performed.2 },
      .begun job (.acquired deadline expiry performed.1))
  | .acquired _ expiry true =>
    some (world, .begun job
      (.executing expiry (world.clock + (family job.behavior).renewalDelay)))
  | .acquired deadline _ false =>
    if deadline ≤ world.clock then
      some (world, .returned (.error ⟨.conflict, "distributed lock is already held"⟩))
    else
      some (world, .begun job
        (.waiting deadline (world.clock + min (deadline - world.clock) (10 * 10 ^ 6))))
  | .waiting deadline wake =>
    if wake ≤ world.clock then some (world, .begun job (.asking deadline)) else none
  | .executing expiry wake =>
    if wake ≤ world.clock then some (world, .begun job (.renewing expiry)) else none
  | .renewing deadline =>
    let performed := world.perform family job .renew
    some ({ world with leases := performed.2 },
      .begun job (.renewed
        (if performed.1 then expiry world.clock (family job.behavior).leaseDuration else deadline)
        performed.1))
  | .renewed expiry true =>
    some (world, .begun job
      (.executing expiry (world.clock + (family job.behavior).renewalDelay)))
  | .renewed _ false =>
    some (world, .begun job (.releasing (.error
      ⟨.conflict, "distributed lock ownership was lost while handling the request"⟩)))
  | .releasing result =>
    let performed := world.perform family job .release
    some ({ world with leases := performed.2 }, .begun job (.released result performed.1))
  | .released result answer => some (world, .returned (afterRelease result (.ok answer)))

/-- The store's operation fails, on its way there or on its way back. -/
def fail (error : CatgaError) (job : Job β ρ) : Task α → Option (Call β ρ α)
  | .acquiring .. | .acquired .. => some (.returned (.error error))
  | .renewing .. | .renewed .. => some (.begun job (.releasing (.error error)))
  | .releasing result | .released result _ =>
    some (.returned (afterRelease result (.error error)))
  | _ => none

def act (choice : Choice α) (call : Call β ρ α) (world : World β ρ) :
    Option (World β ρ × Call β ρ α) :=
  match call, choice with
  | .entered behavior resource, .go => some (nextOwner family world behavior resource)
  | .begun job task, .go => go family world job task
  | .begun job task, .finish result late =>
    task.executingUntil.map fun _ =>
      (world.leave job task.operation late, .begun job (.releasing result))
  | .begun job task, .fail error late =>
    (fail error job task).map fun call => (world.leave job task.operation late, call)
  | .begun job task, .drop late => some (world.leave job task.operation late, .dropped)
  | .entered _ _, .drop _ => some (world, .dropped)
  | _, _ => none

def env (event : Event) (world : World β ρ) : Option (World β ρ) :=
  match event with
  | .tick time => if world.clock ≤ time then some { world with clock := time } else none
  | .land position =>
    world.outstanding[position]?.map fun request =>
      { world with
        leases := (world.perform family request.1 request.2).2
        outstanding := world.outstanding.eraseIdx position }

def machine : Threads.Machine (World β ρ) (Call β ρ α) (Choice α) Event (β × ρ) where
  act := act family
  env := env family
  enter := fun request _ => .entered request.1 request.2

end

end Catga.Behaviors
