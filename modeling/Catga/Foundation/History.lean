import Mathlib.Data.List.Basic

/-!
# Histories

A history is a list of events that grows at its end.  A law says which event may follow which
events; a history is lawful when every one of its events was permitted by those before it.
-/

namespace History

open List

variable {ε α : Type*}

lemma mem_concat {list} {last event : ε} (listed : event ∈ list ++ [last]) :
    event ∈ list ∨ event = last := (mem_append.mp listed).imp_right mem_singleton.mp

lemma concat_eq_append_cons {list before after} {last middle : ε}
    (split : list ++ [last] = before ++ middle :: after) :
    (after = [] ∧ before = list ∧ middle = last) ∨
      ∃ rest, after = rest ++ [last] ∧ list = before ++ middle :: rest := by
  rcases eq_nil_or_concat after with rfl | ⟨rest, other, rfl⟩
  · obtain ⟨rfl, same⟩ := append_inj' split rfl
    cases same
    exact .inl ⟨rfl, rfl, rfl⟩
  · rw [concat_eq_append, ← cons_append, ← append_assoc] at split
    obtain ⟨rfl, same⟩ := append_inj' split rfl
    cases same
    exact .inr ⟨rest, by rw [concat_eq_append], rfl⟩

/-- Every event was permitted by the events before it. -/
def Lawful (permits : List ε → ε → Prop) (history : List ε) : Prop :=
  ∀ before event after, history = before ++ event :: after → permits before event

namespace Lawful

variable {permits weaker : List ε → ε → Prop} {history : List ε} {event : ε}

lemma nil : Lawful permits [] := by
  intro before event after split
  cases before <;> cases split

lemma concat (lawful : Lawful permits history) (permitted : permits history event) :
    Lawful permits (history ++ [event]) := by
  intro before middle after split
  obtain ⟨-, rfl, rfl⟩ | ⟨rest, -, earlier⟩ := concat_eq_append_cons split
  · exact permitted
  · exact lawful before middle rest earlier

lemma mono (lawful : Lawful permits history)
    (weaken : ∀ {before event}, permits before event → weaker before event) :
    Lawful weaker history :=
  fun before event after split => weaken (lawful before event after split)

end Lawful

def last (select : ε → Option α) (history : List ε) : Option α :=
  (history.filterMap select).getLast?

section

variable {select : ε → Option α} {history : List ε} {event : ε}

lemma last_concat_of_some {value} (selected : select event = some value) :
    last select (history ++ [event]) = some value := by
  simp [last, filterMap_append, selected]

lemma last_concat_of_none (unselected : select event = none) :
    last select (history ++ [event]) = last select history := by
  simp [last, filterMap_append, unselected]

lemma mem_of_last {value} (found : last select history = some value) :
    ∃ event ∈ history, select event = some value := mem_filterMap.mp (mem_of_getLast? found)

end

end History
