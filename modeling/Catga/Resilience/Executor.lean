import Catga.Error
import Catga.Foundation.Threads

/-!
# The resilience executor

Any number of `execute` calls share a budget of permits and one circuit.  A call is cut at every
atomic operation on the circuit; what its attempts come to is left open.  A future is dropped before
it is first polled, while it waits for a permit, or during its attempts; an operation on the circuit
is never interrupted.
-/

namespace Catga.Resilience

/-- What `CircuitBreakerOptionsBuilder::build` accepts; the timeout in nanoseconds. -/
structure CircuitBreakerOptions where
  resetTimeout : Nat
  samplingWindow : Nat
  minimumThroughput : Nat
  failureRatioNumerator : Nat
  failureRatioDenominator : Nat
  valid : 0 < resetTimeout ∧ samplingWindow ≤ 10000 ∧ 0 < minimumThroughput ∧
    minimumThroughput ≤ samplingWindow ∧ 0 < failureRatioNumerator ∧
    failureRatioNumerator ≤ failureRatioDenominator

/-- The last outcomes, at most `limit` of them. -/
structure OutcomeWindow where
  outcomes : List Bool
  failures : Nat
  limit : Nat

namespace OutcomeWindow

def clear (window : OutcomeWindow) : OutcomeWindow := { window with outcomes := [], failures := 0 }

/-- Add an outcome, and drop the first one where the window is full. -/
def push (window : OutcomeWindow) (success : Bool) : OutcomeWindow :=
  let full := window.outcomes.length = window.limit
  let failures := if full ∧ window.outcomes.head? = some false then window.failures - 1
    else window.failures
  { window with
    outcomes := (if full then window.outcomes.tail else window.outcomes) ++ [success]
    failures := if success then failures else failures + 1 }

end OutcomeWindow

inductive CircuitState where
  | closed
  | opened
  | halfOpen
deriving DecidableEq

/-- A circuit breaker. -/
structure Circuit where
  options : CircuitBreakerOptions
  outcomes : OutcomeWindow
  state : CircuitState
  openedAtNs : Nat
  halfOpenProbe : Bool

def Circuit.new (options : CircuitBreakerOptions) : Circuit where
  options := options
  outcomes := ⟨[], 0, options.samplingWindow⟩
  state := .closed
  openedAtNs := 0
  halfOpenProbe := false

/-- The points of `permit`. -/
inductive PermitPoint where
  | load
  | elapsed
  | compare (elapsedNs : Nat)
  | exchange
  | reset
  | probe
deriving DecidableEq

/-- The points of `complete` and of what it calls. -/
inductive CompletePoint where
  | recover
  | close
  | record (success : Bool)
  | swap
  | stamp
  | store (elapsedNs : Nat)
  | clear
deriving DecidableEq

def circuitOpen : CatgaError := ⟨.transient, "resilience circuit is open"⟩

/-- The nanoseconds since the executor was made. -/
def elapsedNs (clock : Nat) : Nat := min clock (2 ^ 64 - 1)

namespace Circuit

variable (circuit : Circuit) (clock : Nat)

/-- One atomic operation of `permit`. -/
def permit : PermitPoint → Circuit × (PermitPoint ⊕ CatgaResult Bool)
  | .load =>
    (circuit, match circuit.state with
      | .closed => .inr (.ok false)
      | .opened => .inl .elapsed
      | .halfOpen => .inl .probe)
  | .elapsed => (circuit, .inl (.compare (elapsedNs clock)))
  | .compare now =>
    (circuit, if now - circuit.openedAtNs < circuit.options.resetTimeout then
        .inr (.error circuitOpen)
      else .inl .exchange)
  | .exchange =>
    if circuit.state = .opened then ({ circuit with state := .halfOpen }, .inl .reset)
    else (circuit, .inl .load)
  | .reset => ({ circuit with halfOpenProbe := false }, .inl .load)
  | .probe =>
    if circuit.halfOpenProbe then (circuit, .inr (.error circuitOpen))
    else ({ circuit with halfOpenProbe := true }, .inr (.ok true))

def opens (outcomes : OutcomeWindow) : Bool :=
  circuit.options.minimumThroughput ≤ outcomes.outcomes.length &&
    outcomes.outcomes.length * circuit.options.failureRatioNumerator ≤
      outcomes.failures * circuit.options.failureRatioDenominator

/-- One atomic operation of `complete`; the outcomes are locked. -/
def complete : CompletePoint → Circuit × Option CompletePoint
  | .recover =>
    ({ circuit with outcomes := circuit.outcomes.clear, halfOpenProbe := false }, some .close)
  | .close => ({ circuit with state := .closed }, none)
  | .record success =>
    let outcomes := circuit.outcomes.push success
    ({ circuit with outcomes },
      if !success && circuit.opens outcomes then some .swap else none)
  | .swap =>
    ({ circuit with state := .opened },
      if circuit.state = .opened then none else some .stamp)
  | .stamp => (circuit, some (.store (elapsedNs clock)))
  | .store elapsedNs => ({ circuit with openedAtNs := elapsedNs }, some .clear)
  | .clear => ({ circuit with halfOpenProbe := false }, none)

end Circuit

/-- The part of the options that admission depends on. -/
structure ResilienceOptions where
  maxConcurrent : Nat
  maxQueued : Nat

/-- Everything the calls share. -/
structure World where
  /-- Free permits; without meaning where `maxConcurrent` is zero. -/
  available : Nat
  waiting : Nat
  circuit : Circuit
  clock : Nat

def World.new (options : ResilienceOptions) (circuit : CircuitBreakerOptions) : World where
  available := options.maxConcurrent
  waiting := 0
  circuit := .new circuit
  clock := 0

/-- The point an `execute` call has reached. -/
inductive Task (α : Type) where
  | acquire
  | enqueue
  | queued
  /-- It no longer waits; `permitted` says whether it has its permit or was cancelled. -/
  | leave (permitted : Bool)
  | permit (point : PermitPoint)
  | attempting (probe : Bool)
  | completing (point : CompletePoint) (result : CatgaResult α)
  | returned (result : CatgaResult α)
  | dropped
deriving DecidableEq

/-- What an action leaves open. -/
inductive Choice (α : Type) where
  | go
  | cancel
  /-- The attempts come to an end; `retryable` is that of an error. -/
  | finish (result : CatgaResult α) (retryable : Bool)
  | drop

def cancelled : CatgaError := ⟨.cancelled, "resilience operation was cancelled"⟩

/-- Where `complete` begins. -/
def completion {α : Type} (probe : Bool) (result : CatgaResult α) (retryable : Bool) :
    Option CompletePoint :=
  match result with
  | .ok _ => some (if probe then .recover else .record true)
  | .error error =>
    if error.code ≠ .cancelled ∧ retryable then some (if probe then .swap else .record false)
    else if probe then some .recover
    else none

section

variable {α : Type} (options : ResilienceOptions)

def World.release (world : World) : World :=
  if options.maxConcurrent = 0 then world else { world with available := world.available + 1 }

/-- A call goes on, or gives back its permit and returns. -/
def proceed (world : World) (result : CatgaResult α) :
    Option CompletePoint → World × Task α
  | some point => (world, .completing point result)
  | none => (world.release options, .returned result)

/-- The next operation of a call that nothing keeps waiting. -/
def go (world : World) : Task α → Option (World × Task α)
  | .acquire =>
    if options.maxConcurrent = 0 then some (world, .permit .load)
    else if 0 < world.available then
      some ({ world with available := world.available - 1 }, .permit .load)
    else some (world, .enqueue)
  | .enqueue =>
    if options.maxQueued ≤ world.waiting then
      some (world, .returned (.error
        ⟨.unavailable, "resilience executor admission queue is full"⟩))
    else some ({ world with waiting := world.waiting + 1 }, .queued)
  | .queued =>
    if 0 < world.available then
      some ({ world with available := world.available - 1 }, .leave true)
    else none
  | .leave permitted =>
    some ({ world with waiting := world.waiting - 1 },
      if permitted then .permit .load else .returned (.error cancelled))
  | .permit point =>
    let permitted := world.circuit.permit world.clock point
    some (match permitted.2 with
      | .inl point => ({ world with circuit := permitted.1 }, .permit point)
      | .inr (.ok probe) => ({ world with circuit := permitted.1 }, .attempting probe)
      | .inr (.error error) =>
        (World.release options { world with circuit := permitted.1 }, .returned (.error error)))
  | .completing point result =>
    let completed := world.circuit.complete world.clock point
    some (proceed options { world with circuit := completed.1 } result completed.2)
  | .attempting _ | .returned _ | .dropped => none

def act (choice : Choice α) (task : Task α) (world : World) : Option (World × Task α) :=
  match choice, task with
  | .go, task => go options world task
  | .cancel, .acquire => some (world, .returned (.error cancelled))
  | .cancel, .queued => some (world, .leave false)
  | .finish result retryable, .attempting probe =>
    some (proceed options world result (completion probe result retryable))
  | .drop, .acquire | .drop, .queued => some (world, .dropped)
  | .drop, .attempting _ => some (world.release options, .dropped)
  | _, _ => none

/-- The calls of one executor; the environment is the clock. -/
def machine : Threads.Machine World (Task α) (Choice α) Nat Unit where
  act := act options
  env := fun time world => if world.clock ≤ time then some { world with clock := time } else none
  enter := fun _ _ => .acquire

end

end Catga.Resilience
