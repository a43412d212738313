import Mathlib.Logic.Function.Basic

/-!
# Tables

A table is a function to options; it is set at one key by `Function.update`.
-/

namespace Foundation

variable {α β : Type*} [DecidableEq α] {table : α → Option β} {key other : α}

lemma update_eq_some {value found}
    (held : Function.update table key value other = some found) :
    (other = key ∧ value = some found) ∨ (other ≠ key ∧ table other = some found) := by
  by_cases here : other = key
  · subst here
    rw [Function.update_self] at held
    exact .inl ⟨rfl, held⟩
  · exact .inr ⟨here, (Function.update_of_ne here ..).symm.trans held⟩

lemma update_some_eq_none {value}
    (absent : Function.update table key (some value) other = none) :
    other ≠ key ∧ table other = none := by
  by_cases here : other = key
  · subst here
    rw [Function.update_self] at absent
    cases absent
  · exact ⟨here, (Function.update_of_ne here ..).symm.trans absent⟩

end Foundation
