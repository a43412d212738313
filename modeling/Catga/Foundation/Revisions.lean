import Mathlib.Logic.Function.Basic

/-!
# Keys with revisions

A bucket keeps the last message of every key under the revision it was given: a value, or the mark
of a deletion.  A write names the revision it expects the key to have.
-/

namespace Revisions

variable {κ α : Type*}

/-- The last message of a key; without a value it marks a deletion. -/
structure Slot (α : Type*) where
  revision : Nat
  value : Option α

/-- A bucket of keys with revisions. -/
structure Bucket (κ α : Type*) where
  slot : κ → Option (Slot α)
  last : Nat

namespace Bucket

/-- The value of a key that is not deleted, with its revision. -/
def entry (bucket : Bucket κ α) (key : κ) : Option (Nat × α) :=
  (bucket.slot key).bind fun held => held.value.map (held.revision, ·)

lemma revision_of_entry {bucket : Bucket κ α} {key held}
    (read : bucket.entry key = some held) :
    (bucket.slot key).map (·.revision) = some held.1 := by
  obtain ⟨slot, found, valued⟩ := Option.bind_eq_some_iff.mp read
  obtain ⟨stored, -, rfl⟩ := Option.map_eq_some_iff.mp valued
  simp [found]

variable [DecidableEq κ] (bucket : Bucket κ α) (key : κ) (value : Option α)

def put : Bucket κ α where
  slot := Function.update bucket.slot key (some ⟨bucket.last + 1, value⟩)
  last := bucket.last + 1

/-- Write a message, if the key has the expected revision: `none` stands for the revision zero of a
key without any message, a deletion included. -/
def write (expected : Option Nat) : Option (Bucket κ α) :=
  if (bucket.slot key).map (·.revision) = expected then some (bucket.put key value) else none

lemma entry_put : (bucket.put key value).entry =
    Function.update bucket.entry key (value.map (bucket.last + 1, ·)) := by
  funext other
  by_cases same : other = key
  · subst same
    simp [entry, put]
  · simp [entry, put, same]

end Bucket

end Revisions
