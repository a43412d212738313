import Catga.Error
import Catga.Foundation.Table
import Catga.Foundation.Transition
import Mathlib.Data.List.Sort

/-!
# The catch-up projection runner

A run visits every event stream in the order of its identifier, page by page, applies the events
after the stream's checkpoint, and saves the checkpoint after every event.  A rebuild resets the
projection, deletes the checkpoints and runs.  Every operation on the event store, the checkpoint
store or the projection may fail, which ends the call; events are appended at any time.
-/

namespace Catga.Projection

def maxEventStorePageSize : Nat := 1024

/-- One event of a stream, with its version. -/
structure StoredEvent (ε : Type) where
  version : Nat
  envelope : ε

/-- The streams and their ids. -/
structure EventStore (ι ε : Type) where
  ids : List ι
  events : ι → List ε
  listed : ∀ stream, events stream ≠ [] → stream ∈ ids

structure EventPage (ε : Type) where
  events : List (StoredEvent ε)
  nextVersion : Option Nat

structure StreamIdsPage (ι : Type) where
  ids : List ι
  nextStreamId : Option ι

namespace EventStore

variable {ι ε : Type}

def empty : EventStore ι ε := ⟨[], fun _ => [], fun _ nonempty => absurd rfl nonempty⟩

def append [DecidableEq ι] (store : EventStore ι ε) (stream : ι) (batch : List ε) :
    EventStore ι ε where
  ids := if stream ∈ store.ids then store.ids else stream :: store.ids
  events := Function.update store.events stream (store.events stream ++ batch)
  listed := by
    intro other nonempty
    by_cases here : other = stream
    · subst here
      split
      · assumption
      · exact List.mem_cons_self
    · rw [Function.update_of_ne here] at nonempty
      have known := store.listed other nonempty
      split
      · exact known
      · exact List.mem_cons_of_mem _ known

/-- One page of the events of a stream from `fromVersion` on. -/
def readPage (store : EventStore ι ε) (stream : ι) (fromVersion maxCount : Nat) : EventPage ε :=
  let events := ((((store.events stream).drop fromVersion).take maxCount).zipIdx fromVersion).map
    fun entry => ⟨entry.2, entry.1⟩
  { events
    nextVersion := events.getLast?.bind fun event =>
      if event.version + 1 < (store.events stream).length then some (event.version + 1) else none }

/-- One page of the identifiers after `after`. -/
def streamIdsPage [LinearOrder ι] (store : EventStore ι ε) (after : Option ι) (maxCount : Nat) :
    StreamIdsPage ι :=
  let later := (store.ids.filter fun stream => after.all (· < stream)).insertionSort (· ≤ ·)
  { ids := later.take maxCount
    nextStreamId := if maxCount < later.length then (later.take maxCount).getLast? else none }

end EventStore

def nextVersionAfter (version : Nat) : CatgaResult Nat :=
  if version < 2 ^ 63 - 1 then .ok (version + 1)
  else .error ⟨.validation, "projection checkpoint version cannot advance beyond i64::MAX"⟩

structure ProjectionRun where
  applied : Nat
  streams : Nat
deriving DecidableEq

/-- A runner with its page size for events. -/
structure CatchUpProjectionRunner where
  batchSize : Nat
  positive : 0 < batchSize

def CatchUpProjectionRunner.withBatchSize (batchSize : Nat) (positive : 0 < batchSize) :
    CatchUpProjectionRunner where
  batchSize := min batchSize maxEventStorePageSize
  positive := Nat.lt_min.mpr ⟨positive, by decide⟩

/-- The streams a run has yet to visit: those left of a page, and the cursor of the next page. -/
structure Rest (ι : Type) where
  ids : List ι
  next : Option ι

/-- The point a call has reached: its next operation. -/
inductive Task (ι ε : Type) where
  | reset
  | deleteAll
  | list (after : Option ι)
  | load (stream : ι) (rest : Rest ι)
  | read (stream : ι) (nextVersion : Nat) (rest : Rest ι)
  | apply (stream : ι) (event : StoredEvent ε) (events : List (StoredEvent ε))
      (more : Option Nat) (rest : Rest ι)
  | save (stream : ι) (event : StoredEvent ε) (events : List (StoredEvent ε))
      (more : Option Nat) (rest : Rest ι)
  | returned (result : CatgaResult ProjectionRun)

structure Call (ι ε : Type) where
  task : Task ι ε
  run : ProjectionRun

structure World (ι ε : Type) where
  store : EventStore ι ε
  checkpoints : ι → Option Nat
  /-- What was applied to the projection since its last successful reset. -/
  applied : List (ι × StoredEvent ε)
  /-- Whether the checkpoints were deleted after the last successful reset. -/
  clean : Bool
  call : Call ι ε
  known : ι → List ε

inductive Label (ι ε : Type) where
  | append (stream : ι) (batch : List ε)
  | run
  | rebuild
  | go
  /-- It fails; for a save or a deletion, `reached` are the streams it has changed nevertheless. -/
  | fail (error : CatgaError) (reached : List ι)

variable {ι ε : Type}

def World.start (store : EventStore ι ε) : World ι ε where
  store := store
  checkpoints := fun _ => none
  applied := []
  clean := true
  call := ⟨.returned (.ok ⟨0, 0⟩), ⟨0, 0⟩⟩
  known := fun _ => []

def Task.isReturned : Task ι ε → Bool
  | .returned _ => true
  | _ => false

/-- The next stream of a page, the next page, or the end of the run. -/
def Rest.visit (rest : Rest ι) (run : ProjectionRun) : Call ι ε :=
  match rest.ids, rest.next with
  | stream :: ids, next => ⟨.load stream ⟨ids, next⟩, { run with streams := run.streams + 1 }⟩
  | [], some next => ⟨.list (some next), run⟩
  | [], none => ⟨.returned (.ok run), run⟩

/-- After an event: the next one of the page, the next page, or the next stream. -/
def following (stream : ι) (events : List (StoredEvent ε)) (more : Option Nat) (rest : Rest ι)
    (run : ProjectionRun) (next : Nat) : Call ι ε :=
  match events, more with
  | event :: events, more => ⟨.apply stream event events more rest, run⟩
  | [], none => rest.visit run
  | [], some _ => ⟨.read stream next rest, run⟩

def continuing (run : ProjectionRun) (next : Nat → Call ι ε) : CatgaResult Nat → Call ι ε
  | .ok version => next version
  | .error error => ⟨.returned (.error error), run⟩

namespace CatchUpProjectionRunner

variable [LinearOrder ι]

/-- The next operation of a call, when it succeeds. -/
def succeed (runner : CatchUpProjectionRunner) (world : World ι ε) : Option (World ι ε) :=
  let run := world.call.run
  match world.call.task with
  | .reset => some { world with applied := [], clean := false, call := ⟨.deleteAll, run⟩ }
  | .deleteAll =>
    some { world with checkpoints := fun _ => none, clean := true, call := ⟨.list none, run⟩ }
  | .list after =>
    let page := world.store.streamIdsPage after maxEventStorePageSize
    some { world with call := Rest.visit ⟨page.ids, page.nextStreamId⟩ run }
  | .load stream rest =>
    some { world with
      call := match world.checkpoints stream with
        | none => ⟨.read stream 0 rest, run⟩
        | some version =>
          continuing run (fun next => ⟨.read stream next rest, run⟩)
            (nextVersionAfter version) }
  | .read stream nextVersion rest =>
    let page := world.store.readPage stream nextVersion runner.batchSize
    some { world with
      call := match page.events with
        | [] => rest.visit run
        | event :: events => ⟨.apply stream event events page.nextVersion rest, run⟩ }
  | .apply stream event events more rest =>
    some { world with
      applied := world.applied ++ [(stream, event)]
      call := ⟨.save stream event events more rest, run⟩ }
  | .save stream event events more rest =>
    some { world with
      checkpoints := Function.update world.checkpoints stream (some event.version)
      call := continuing run
        (following stream events more rest { run with applied := run.applied + 1 })
        (nextVersionAfter event.version) }
  | .returned _ => none

/-- The next operation of a call, when it fails. -/
def fail (world : World ι ε) (error : CatgaError) (reached : List ι) : Option (World ι ε) :=
  let failed : Call ι ε := ⟨.returned (.error error), world.call.run⟩
  match world.call.task with
  | .returned _ => none
  | .deleteAll =>
    some { world with
      checkpoints := fun stream =>
        if stream ∈ reached then none else world.checkpoints stream
      call := failed }
  | .save stream event _ _ _ =>
    some { world with
      checkpoints :=
        if stream ∈ reached then Function.update world.checkpoints stream (some event.version)
        else world.checkpoints
      call := failed }
  | _ => some { world with call := failed }

/-- A new call, once the last one has returned. -/
def start (world : World ι ε) (task : Task ι ε) : Option (World ι ε) :=
  if world.call.task.isReturned then
    some { world with call := ⟨task, ⟨0, 0⟩⟩, known := world.store.events }
  else none

def step (runner : CatchUpProjectionRunner) : Label ι ε → World ι ε → Option (World ι ε)
  | .append stream batch, world => some { world with store := world.store.append stream batch }
  | .run, world => start world (.list none)
  | .rebuild, world => start world .reset
  | .go, world => runner.succeed world
  | .fail error reached, world => fail world error reached

end CatchUpProjectionRunner

end Catga.Projection
