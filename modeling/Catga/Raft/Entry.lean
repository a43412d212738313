/-!
# Raft log entries

The part of a raft-rs `Entry` that the owner loop, the apply worker and the log storage read.
-/

namespace Catga.Raft

/-- `eraftpb::EntryType`. -/
inductive EntryType where
  | entryNormal
  | entryConfChange
  | entryConfChangeV2
deriving DecidableEq

/-- `eraftpb::Entry`. -/
structure Entry where
  entryType : EntryType
  term : Nat
  index : Nat
  data : List UInt8
  context : List UInt8
deriving DecidableEq

namespace Entry

/-- A normal entry without data. -/
def bare (term index : Nat) : Entry :=
  { entryType := .entryNormal, term, index, data := [], context := [] }

/-- A committed normal entry with data is the only kind the state machine sees. -/
def IsPayload (entry : Entry) : Prop := entry.entryType = .entryNormal ∧ entry.data ≠ []
deriving Decidable

end Entry

end Catga.Raft
