import Catga.Error
import Catga.Foundation.History
import Catga.Foundation.Table
import Catga.Foundation.Threads
import Catga.Memory.ClaimRecord

/-!
# The in-memory inbox

`try_claim_for`, `complete`, `fail`, `result` and `cleanup_completed` of `MemoryInbox`, cut into
their atomic actions.  A call that has looked up a record goes on with that record.  The map guard
it holds would also keep the record in the map; without the guards there are only more
interleavings.
-/

namespace Catga.Memory

/-- The right to complete a message. -/
structure InboxClaim where
  messageId : Nat
  generation : Nat
deriving DecidableEq

def InboxClaim.new (messageId generation : Nat) : Option InboxClaim :=
  if generation = 0 then none else some ⟨messageId, generation⟩

/-- A claim that was returned, with the record it was made on and its place in the history. -/
structure Ticket where
  claim : InboxClaim
  identity : Nat
  number : Nat
deriving DecidableEq

/-- `as_millis` of a duration of so many nanoseconds. -/
def asMillis (nanoseconds : Nat) : Nat := nanoseconds / 1000000

/-- `now_unix_millis`, for a clock at so many milliseconds after the epoch. -/
def nowUnixMillis (reading : Int) : Nat := min reading.toNat maxU64

def inboxClaimExpiresAt (reading : Int) (lease : Nat) : CatgaResult Nat :=
  if lease = 0 then .error ⟨.validation, "inbox claim lease must be greater than zero"⟩
  else if reading < 0 then .error ⟨.internal, "system clock precedes the Unix epoch"⟩
  else if maxU64 < reading.toNat then
    .error ⟨.internal, "system clock exceeds the supported millisecond range"⟩
  else if maxU64 < asMillis lease then
    .error ⟨.validation, "inbox claim lease exceeds the supported millisecond range"⟩
  else if maxU64 < reading.toNat + asMillis lease then
    .error ⟨.validation, "inbox claim deadline exceeds the supported millisecond range"⟩
  else .ok (reading.toNat + asMillis lease)

def maxRetentionCleanupLimit : Nat := 1024

def opportunisticCleanupLimit : Nat := 64

/-- The checks of `cleanup_completed`; the retention in milliseconds. -/
def cleanupRetention (retention limit : Nat) : CatgaResult Nat :=
  if maxRetentionCleanupLimit < limit then
    .error ⟨.validation, "retention cleanup limit exceeds the configured memory budget"⟩
  else if maxU64 < asMillis retention then
    .error ⟨.validation, "inbox retention exceeds the supported millisecond range"⟩
  else .ok (asMillis retention)

/-- A listed completion. -/
structure CompletedRecord where
  completedAt : Nat
  recordIdentity : Nat
deriving DecidableEq

/-- What claims are judged by. -/
inductive Event where
  | claimed (ticket : Ticket)
  | completed (ticket : Ticket) (result : Option Bytes)
  | failed (ticket : Ticket)
  | stamped (messageId completedAt : Nat)
  | removed (messageId completedAt now retention : Nat)
  /-- `result` of a message returns; `since` counts the events before it looked the record up. -/
  | observed (messageId since : Nat) (result : Option Bytes)
deriving DecidableEq

/-- The maps of an inbox and what has happened. -/
structure Store where
  records : Nat → Option ClaimRecord
  index : Nat → Option Nat
  completed : Nat → Option CompletedRecord
  nextIdentity : Nat
  history : List Event

namespace Store

def empty : Store :=
  { records := fun _ => none, index := fun _ => none, completed := fun _ => none,
    nextIdentity := 1, history := [] }

variable (store : Store)

def put (identity : Nat) (record : ClaimRecord) : Store :=
  { store with records := Function.update store.records identity (some record) }

def log (event : Event) : Store := { store with history := store.history ++ [event] }

def insert (record : ClaimRecord) : Store :=
  { store with
    records := Function.update store.records store.nextIdentity (some record)
    index := Function.update store.index record.messageId (some store.nextIdentity)
    nextIdentity := store.nextIdentity + 1 }

def remove (messageId : Nat) : Store :=
  { store with index := Function.update store.index messageId none }

def list (messageId : Nat) (entry : Option CompletedRecord) : Store :=
  { store with completed := Function.update store.completed messageId entry }

/-- The claim that was returned as the event at a place of the history. -/
def ticketAt (place : Nat) : Option Ticket :=
  match store.history[place]? with
  | some (.claimed ticket) => some ticket
  | _ => none

end Store

/-- What calls share. -/
structure Shared where
  store : Store
  used : Nat

/-- What a call of `try_claim_for` works with. -/
structure ClaimArgs where
  messageId : Nat
  expiresAt : Nat
  now : Nat

/-- A cleanup that has read the clock. -/
structure Sweep where
  retention : Nat
  now : Nat
  /-- The claim that needs the capacity, for a cleanup inside `try_claim_for`. -/
  resume : Option ClaimArgs

/-- What a call returns. -/
inductive Outcome where
  | claim (result : CatgaResult (Option InboxClaim))
  | settled (result : CatgaResult Unit)
  | result (result : Option Bytes)
  | cleaned (result : CatgaResult Nat)

/-- A call at its next atomic action. -/
inductive Call where
  | deadline (messageId lease : Nat)
  | clock (messageId expiresAt : Nat)
  | lookUp (args : ClaimArgs)
  | reserve (args : ClaimArgs) (cleaned : Bool)
  | entry (args : ClaimArgs)
  | claiming (args : ClaimArgs) (identity : Nat) (op : ClaimOp)
  | complete (place : Nat) (result : Option Bytes)
  | completing (ticket : Ticket) (result : Option Bytes) (identity : Nat) (op : CompleteOp)
  | stamp (ticket : Ticket) (identity : Nat)
  | fail (place : Nat)
  | failing (ticket : Ticket) (identity : Nat) (op : FailOp)
  | result (messageId : Nat)
  | reading (messageId since identity : Nat) (op : ReadOp)
  /-- `cleanup_completed` checks its arguments and reads the time. -/
  | clean (retention limit : Nat) (resume : Option ClaimArgs)
  /-- It collects candidates, from at most `left` more entries. -/
  | collect (sweep : Sweep) (left : Nat) (candidates : List (Nat × CompletedRecord))
  | remove (sweep : Sweep) (candidates : List (Nat × CompletedRecord)) (removed : Nat)
  | free (sweep : Sweep) (candidate : Nat × CompletedRecord)
      (candidates : List (Nat × CompletedRecord)) (removed : Nat)
  | forget (sweep : Sweep) (candidate : Nat × CompletedRecord)
      (candidates : List (Nat × CompletedRecord)) (removed : Nat)
  | returned (outcome : Outcome)

inductive Request where
  | tryClaimFor (messageId lease : Nat)
  | complete (place : Nat) (result : Option Bytes)
  | fail (place : Nat)
  | result (messageId : Nat)
  | cleanupCompleted (retention limit : Nat)

inductive Choice where
  | go
  /-- The clock shows so many milliseconds after the epoch. -/
  | reading (millis : Int)
  /-- The iteration over the listed completions comes to a message. -/
  | visit (messageId : Nat)

structure MemoryInbox where
  retention : Nat
  capacity : Nat

/-- The errors of `complete` and `fail`. -/
def notClaimed : CatgaError := ⟨.notFound, "inbox message is not claimed"⟩

@[inherit_doc notClaimed]
def notCurrentlyClaimed : CatgaError := ⟨.conflict, "inbox message is not currently claimed"⟩

namespace Call

def enter : Request → Shared → Call
  | .tryClaimFor messageId lease, _ => .deadline messageId lease
  | .complete place bytes, _ => .complete place bytes
  | .fail place, _ => .fail place
  | .result messageId, _ => .result messageId
  | .cleanupCompleted retention limit, _ => .clean retention limit none

variable (store : Store)

/-- The end of `try_claim_for` once the record has answered. -/
def claimResult (messageId identity : Nat) (generation : Option Nat) : Store × Call :=
  match generation.bind (InboxClaim.new messageId) with
  | none => (store, .returned (.claim (.ok none)))
  | some claim =>
    (store.log (.claimed ⟨claim, identity, store.history.length⟩),
      .returned (.claim (.ok (some claim))))

def actClaiming (args : ClaimArgs) (identity : Nat) (op : ClaimOp)
    (record : ClaimRecord) : Store × Call :=
  match op.act args.expiresAt args.now record with
  | (after, .next next) => (store.put identity after, .claiming args identity next)
  | (after, .answer generation) =>
    claimResult (store.put identity after) args.messageId identity generation

/-- The part of `try_claim_for` with the map's entry. -/
def actEntry (shared : Shared) (args : ClaimArgs) : Shared × Call :=
  match shared.store.index args.messageId with
  | some identity => (⟨shared.store, shared.used - 1⟩, .claiming args identity .load)
  | none =>
    if shared.store.nextIdentity < maxU64 then
      let (record, generation) :=
        ClaimOp.alone args.expiresAt args.now 8 .load (.claimed args.messageId)
      let (store, next) := claimResult (shared.store.insert record) args.messageId
        shared.store.nextIdentity generation
      (⟨store, shared.used⟩, next)
    else
      (⟨shared.store, shared.used - 1⟩,
        .returned (.claim (.error ⟨.internal, "memory record identity space is exhausted"⟩)))

def actCompleting (ticket : Ticket) (bytes : Option Bytes) (identity : Nat)
    (op : CompleteOp) (record : ClaimRecord) : Store × Call :=
  match op.act ticket.claim.generation bytes record with
  | (after, .next next) => (store.put identity after, .completing ticket bytes identity next)
  | (after, .answer true) =>
    ((store.put identity after).log (.completed ticket bytes), .stamp ticket identity)
  | (after, .answer false) =>
    (store.put identity after, .returned (.settled (.error notCurrentlyClaimed)))

def actFailing (ticket : Ticket) (identity : Nat) (op : FailOp)
    (record : ClaimRecord) : Store × Call :=
  match op.act ticket.claim.generation record with
  | (after, .next next) => (store.put identity after, .failing ticket identity next)
  | (after, .answer true) =>
    ((store.put identity after).log (.failed ticket), .returned (.settled (.ok ())))
  | (after, .answer false) =>
    (store.put identity after, .returned (.settled (.error notCurrentlyClaimed)))

def actReading (messageId since identity : Nat) (op : ReadOp)
    (record : ClaimRecord) : Store × Call :=
  match op.act record with
  | .next next => (store, .reading messageId since identity next)
  | .answer bytes =>
    (store.log (.observed messageId since bytes), .returned (.result bytes))

def refuse (error : CatgaError) : Option ClaimArgs → Call
  | none => .returned (.cleaned (.error error))
  | some _ => .returned (.claim (.error error))

def cleaned (sweep : Sweep) (removed : Nat) : Call :=
  match sweep.resume with
  | none => .returned (.cleaned (.ok removed))
  | some args => .reserve args true

def actRemove (sweep : Sweep) (candidate : Nat × CompletedRecord)
    (candidates : List (Nat × CompletedRecord)) (removed : Nat) : Store × Call :=
  if store.index candidate.1 = some candidate.2.recordIdentity ∧
      (store.records candidate.2.recordIdentity).map ClaimRecord.processingState =
        some .completed then
    ((store.remove candidate.1).log
      (.removed candidate.1 candidate.2.completedAt sweep.now sweep.retention),
      .free sweep candidate candidates removed)
  else (store, .forget sweep candidate candidates removed)

def actForget (candidate : Nat × CompletedRecord) : Store :=
  if store.completed candidate.1 = some candidate.2 then store.list candidate.1 none else store

/-- A change that leaves the reserved capacity alone. -/
def keepingUsed (shared : Shared) (moved : Store × Call) : Shared × Call :=
  (⟨moved.1, shared.used⟩, moved.2)

def act (inbox : MemoryInbox) : Choice → Call → Shared → Option (Shared × Call)
  | .reading millis, .deadline messageId lease, shared =>
    match inboxClaimExpiresAt millis lease with
    | .error error => some (shared, .returned (.claim (.error error)))
    | .ok expiresAt => some (shared, .clock messageId expiresAt)
  | .reading millis, .clock messageId expiresAt, shared =>
    some (shared, .lookUp ⟨messageId, expiresAt, nowUnixMillis millis⟩)
  | .go, .lookUp args, shared =>
    match shared.store.index args.messageId with
    | some identity => some (shared, .claiming args identity .load)
    | none => some (shared, .reserve args false)
  | .go, .reserve args cleaned, shared =>
    if shared.used < inbox.capacity then
      some (⟨shared.store, shared.used + 1⟩, .entry args)
    else if cleaned then
      some (shared, .returned (.claim (.error
        ⟨.unavailable, "memory inbox record capacity is exhausted"⟩)))
    else some (shared, .clean inbox.retention opportunisticCleanupLimit (some args))
  | .go, .entry args, shared => some (actEntry shared args)
  | .go, .claiming args identity op, shared => do
      let record ← shared.store.records identity
      some (keepingUsed shared (actClaiming shared.store args identity op record))
  | .go, .complete place bytes, shared => do
      let ticket ← shared.store.ticketAt place
      match shared.store.index ticket.claim.messageId with
      | none => some (shared, .returned (.settled (.error notClaimed)))
      | some identity => some (shared, .completing ticket bytes identity .check)
  | .go, .completing ticket bytes identity op, shared => do
      let record ← shared.store.records identity
      some (keepingUsed shared (actCompleting shared.store ticket bytes identity op record))
  | .reading millis, .stamp ticket identity, shared =>
    some (keepingUsed shared
      ((shared.store.list ticket.claim.messageId (some ⟨nowUnixMillis millis, identity⟩)).log
        (.stamped ticket.claim.messageId (nowUnixMillis millis)), .returned (.settled (.ok ()))))
  | .go, .fail place, shared => do
      let ticket ← shared.store.ticketAt place
      match shared.store.index ticket.claim.messageId with
      | none => some (shared, .returned (.settled (.error notClaimed)))
      | some identity => some (shared, .failing ticket identity .check)
  | .go, .failing ticket identity op, shared => do
      let record ← shared.store.records identity
      some (keepingUsed shared (actFailing shared.store ticket identity op record))
  | .go, .result messageId, shared =>
    match shared.store.index messageId with
    | none =>
      some (keepingUsed shared
        (shared.store.log (.observed messageId shared.store.history.length none),
          .returned (.result none)))
    | some identity =>
      some (shared, .reading messageId shared.store.history.length identity .peek)
  | .go, .reading messageId since identity op, shared => do
      let record ← shared.store.records identity
      some (keepingUsed shared (actReading shared.store messageId since identity op record))
  | .reading millis, .clean retention limit resume, shared =>
    match cleanupRetention retention limit with
    | .error error => some (shared, refuse error resume)
    | .ok retention => some (shared, .collect ⟨retention, nowUnixMillis millis, resume⟩ limit [])
  | .visit messageId, .collect sweep (left + 1) candidates, shared => do
      let listed ← shared.store.completed messageId
      if sweep.retention ≤ sweep.now - listed.completedAt then
        some (shared, .collect sweep left (candidates ++ [(messageId, listed)]))
      else some (shared, .collect sweep left candidates)
  | .go, .collect sweep _ candidates, shared => some (shared, .remove sweep candidates 0)
  | .go, .remove sweep [] removed, shared => some (shared, cleaned sweep removed)
  | .go, .remove sweep (candidate :: candidates) removed, shared =>
    some (keepingUsed shared (actRemove shared.store sweep candidate candidates removed))
  | .go, .free sweep candidate candidates removed, shared =>
    some (⟨shared.store, shared.used - 1⟩, .forget sweep candidate candidates (removed + 1))
  | .go, .forget sweep candidate candidates removed, shared =>
    some (keepingUsed shared
      (actForget shared.store candidate, .remove sweep candidates removed))
  | _, _, _ => none

end Call

/-- The calls of an inbox over its shared state. -/
def MemoryInbox.machine (inbox : MemoryInbox) :
    Threads.Machine Shared Call Choice Empty Request where
  act := Call.act inbox
  env := fun event => nomatch event
  enter := Call.enter

def MemoryInbox.initial : Threads.System Shared Call := ⟨⟨.empty, 0⟩, []⟩

end Catga.Memory
