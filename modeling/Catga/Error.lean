import Mathlib.Algebra.Ring.Int.Defs
import Mathlib.Algebra.Ring.Nat

/-!
# Framework errors

The error every fallible operation of the core crate returns: a stable category and a message.
-/

namespace Catga

inductive ErrorCode where
  | validation
  | handlerFailed
  | handlerNotFound
  | pipelineFailed
  | persistenceFailed
  | lockFailed
  | transportFailed
  | serializationFailed
  | notFound
  | conflict
  | unauthorized
  | forbidden
  | cancelled
  | timeout
  | flowFailed
  | flowCancelled
  | flowTimeout
  | flowCompensating
  | unsupported
  | transient
  | unavailable
  | internal
deriving DecidableEq

structure CatgaError where
  code : ErrorCode
  message : String
deriving DecidableEq

abbrev CatgaResult (α : Type) := Except CatgaError α

lemma bind_eq_ok {ε α β : Type} {first : Except ε α} {next : α → Except ε β} {result : β} :
    first >>= next = .ok result ↔ ∃ value, first = .ok value ∧ next value = .ok result := by
  cases first <;> simp [bind, Except.bind]

end Catga
