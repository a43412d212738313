import Mathlib.Algebra.Ring.Nat

/-!
# Claim records

The in-memory inbox keeps one record of atomic words for each message: a state, a deadline, a
generation and a result that is set once.  Claiming, completing and failing a message are short
programs over these words.  Each of them is cut here into its single loads, stores and exchanges.
-/

namespace Catga.Memory

abbrev Bytes := List UInt8

def maxU64 : Nat := 2 ^ 64 - 1

/-- The state of a record as callers see it. -/
inductive ProcessingState where
  | pending
  | claimed
  | completed
  | failed
deriving DecidableEq

/-- The state word of a record. -/
inductive ClaimState where
  | pending
  | claimed
  | completed
  | failed
  | completing
  | claiming
deriving DecidableEq

/-- `ClaimRecord`, with the message it belongs to. -/
structure ClaimRecord where
  messageId : Nat
  state : ClaimState
  expiresAtMillis : Nat
  generation : Nat
  result : Option (Option Bytes)

namespace ClaimRecord

def claimed (messageId : Nat) : ClaimRecord :=
  { messageId, state := .claimed, expiresAtMillis := 0, generation := 0, result := none }

def processingState (record : ClaimRecord) : ProcessingState :=
  match record.state with
  | .pending => .pending
  | .claimed => .claimed
  | .completed => .completed
  | .failed => .failed
  | .completing | .claiming => .claimed

lemma processingState_eq_completed {record : ClaimRecord} :
    record.processingState = .completed ↔ record.state = .completed := by
  simp only [processingState]
  cases record.state <;> simp

end ClaimRecord

/-- What an atomic action of an operation leads to. -/
inductive Progress (ω α : Type) where
  | next (op : ω)
  | answer (value : α)

/-- The next action of `try_claim_generation_until`. -/
inductive ClaimOp where
  | load
  | compare
  /-- Exchange the state that was loaded for `CLAIMING`. -/
  | acquire (state : ClaimState)
  | number
  | renumber (generation : Nat)
  | date (generation : Nat)
  | confirm (generation : Nat)
  | giveUp

/-- One action of `try_claim_generation_until`. -/
def ClaimOp.act (expiresAtMillis nowMillis : Nat) (record : ClaimRecord) :
    ClaimOp → ClaimRecord × Progress ClaimOp (Option Nat)
  | .load =>
    (record, match record.state with
      | .pending | .failed => .next (.acquire record.state)
      | .claimed => .next .compare
      | _ => .answer none)
  | .compare =>
    (record, if record.expiresAtMillis ≤ nowMillis then .next (.acquire .claimed)
      else .answer none)
  | .acquire state =>
    if record.state = state then ({ record with state := .claiming }, .next .number)
    else (record, .next .load)
  | .number =>
    (record, if record.generation < maxU64 then .next (.renumber (record.generation + 1))
      else .next .giveUp)
  | .renumber generation => ({ record with generation }, .next (.date generation))
  | .date generation => ({ record with expiresAtMillis }, .next (.confirm generation))
  | .confirm generation => ({ record with state := .claimed }, .answer (some generation))
  | .giveUp => ({ record with state := .failed }, .answer none)

/-- Whether the operation has taken the record's state. -/
def ClaimOp.busy : ClaimOp → Bool
  | .load | .compare | .acquire _ => false
  | _ => true

/-- `try_claim_generation_until` on a record that no other call can see; `fuel` bounds its
actions. -/
def ClaimOp.alone (expiresAtMillis nowMillis : Nat) :
    Nat → ClaimOp → ClaimRecord → ClaimRecord × Option Nat
  | 0, _, record => (record, none)
  | fuel + 1, op, record =>
    match op.act expiresAtMillis nowMillis record with
    | (after, .next next) => next.alone expiresAtMillis nowMillis fuel after
    | (after, .answer generation) => (after, generation)

lemma ClaimOp.alone_claimed (messageId expiresAtMillis nowMillis : Nat) :
    ClaimOp.alone expiresAtMillis nowMillis 8 .load (.claimed messageId) =
      ({ messageId, state := .claimed, expiresAtMillis, generation := 1, result := none },
        some 1) := by
  simp [ClaimOp.alone, ClaimOp.act, ClaimRecord.claimed, maxU64]

/-- The next action of `complete_for`. -/
inductive CompleteOp where
  | check
  | exchange
  | keep
  | publish
  | withdraw

/-- One action of `complete_for`. -/
def CompleteOp.act (generation : Nat) (result : Option Bytes) (record : ClaimRecord) :
    CompleteOp → ClaimRecord × Progress CompleteOp Bool
  | .check =>
    (record, if record.generation = generation then .next .exchange else .answer false)
  | .exchange =>
    if record.state = .claimed then ({ record with state := .completing }, .next .keep)
    else (record, .answer false)
  | .keep =>
    match record.result with
    | none => ({ record with result := some result }, .next .publish)
    | some _ => (record, .next .withdraw)
  | .publish => ({ record with state := .completed }, .answer true)
  | .withdraw => ({ record with state := .failed }, .answer false)

/-- Whether the operation has taken the record's state. -/
def CompleteOp.busy : CompleteOp → Bool
  | .check | .exchange => false
  | _ => true

/-- The next action of `fail_for`. -/
inductive FailOp where
  | check
  | exchange

/-- One action of `fail_for`. -/
def FailOp.act (generation : Nat) (record : ClaimRecord) :
    FailOp → ClaimRecord × Progress FailOp Bool
  | .check =>
    (record, if record.generation = generation then .next .exchange else .answer false)
  | .exchange =>
    if record.state = .claimed then ({ record with state := .failed }, .answer true)
    else (record, .answer false)

/-- The next action of `ClaimRecord::result`. -/
inductive ReadOp where
  | peek
  | read

/-- One action of `ClaimRecord::result`. -/
def ReadOp.act (record : ClaimRecord) : ReadOp → Progress ReadOp (Option Bytes)
  | .peek => if record.state = .completed then .next .read else .answer none
  | .read => .answer record.result.join

end Catga.Memory
