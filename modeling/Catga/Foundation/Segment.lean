import Mathlib.Data.List.Basic

/-!
# Consecutively keyed lists

A segment is a list whose keys count up by one from a given start.  Positions, keys and lengths
determine each other, so cutting a segment by key is cutting it by position.
-/

namespace Foundation

open List

variable {α : Type*} (key : α → Nat)

/-- The keys of the list are `start`, `start + 1`, and so on. -/
def Segment : Nat → List α → Prop
  | _, [] => True
  | start, item :: items => key item = start ∧ Segment (start + 1) items

instance Segment.decidable : ∀ (start : Nat) (items : List α), Decidable (Segment key start items)
  | _, [] => .isTrue trivial
  | start, _ :: items =>
    have := Segment.decidable (start + 1) items
    inferInstanceAs (Decidable (_ ∧ _))

namespace Segment

variable {key} {start : Nat} {items left right : List α}

@[simp] lemma nil : Segment key start [] := trivial

lemma append_iff :
    Segment key start (left ++ right) ↔
      Segment key start left ∧ Segment key (start + left.length) right := by
  induction left generalizing start with
  | nil => simp
  | cons head tail ih =>
    simp only [cons_append, Segment, ih, length_cons, and_assoc]
    rw [show start + (tail.length + 1) = start + 1 + tail.length by omega]

section

variable (segment : Segment key start items)
include segment

lemma take (count : Nat) : Segment key start (items.take count) := by
  rw [← take_append_drop count items, append_iff] at segment
  exact segment.1

lemma drop (count : Nat) : Segment key (start + count) (items.drop count) := by
  induction count generalizing start items with
  | zero => exact segment
  | succ count ih =>
    cases items with
    | nil => exact nil
    | cons =>
      rw [drop_succ_cons, show start + (count + 1) = start + 1 + count by omega]
      exact ih segment.2

lemma map_key : items.map key = range' start items.length := by
  induction items generalizing start with
  | nil => rfl
  | cons head tail ih =>
    obtain ⟨rfl, rest⟩ := segment
    rw [map_cons, length_cons, range'_succ, ih rest]

lemma key_getElem? {position item} (found : items[position]? = some item) :
    key item = start + position := by
  have keys := congrArg (fun keys : List Nat => keys[position]?) segment.map_key
  obtain ⟨inside, rfl⟩ := List.getElem?_eq_some_iff.mp found
  simpa [getElem?_range', inside] using keys

end

lemma key_head {head tail} (segment : Segment key start (head :: tail)) :
    key head = start := segment.1

variable (segment : Segment key start items)
include segment

lemma key_getLast? (nonempty : items ≠ []) :
    items.getLast?.map key = some (start + items.length - 1) := by
  have length_pos := length_pos_iff.mpr nonempty
  have found : items[items.length - 1]? = some (items.getLast nonempty) := by
    rw [← getLast?_eq_getElem?, getLast?_eq_some_getLast nonempty]
  have key_eq := segment.key_getElem? found
  rw [getLast?_eq_some_getLast nonempty, Option.map_some, key_eq, Option.some.injEq]
  omega

lemma takeWhile_le (bound : Nat) :
    items.takeWhile (fun item => key item ≤ bound) = items.take (bound + 1 - start) := by
  induction items generalizing start with
  | nil => simp
  | cons head tail ih =>
    obtain ⟨rfl, rest⟩ := segment
    by_cases within : key head ≤ bound
    · rw [takeWhile_cons_of_pos (by simpa using within), ih rest,
        show bound + 1 - key head = (bound + 1 - (key head + 1)) + 1 by omega,
        take_succ_cons]
    · rw [takeWhile_cons_of_neg (by simpa using within),
        show bound + 1 - key head = 0 by omega, take_zero]

lemma find?_key {wanted} (from_start : start ≤ wanted) :
    items.find? (fun item => key item = wanted) = items[wanted - start]? := by
  induction items generalizing start with
  | nil => simp
  | cons head tail ih =>
    obtain ⟨rfl, rest⟩ := segment
    by_cases here : key head = wanted
    · subst here
      simp
    · rw [find?_cons_of_neg (by simpa using here), ih rest (by omega),
        show wanted - key head = wanted - (key head + 1) + 1 by omega, getElem?_cons_succ]

lemma find?_key_of_lt {wanted} (below : wanted < start) :
    items.find? (fun item => key item = wanted) = none := by
  induction items generalizing start with
  | nil => rfl
  | cons head tail ih =>
    obtain ⟨rfl, rest⟩ := segment
    rw [find?_cons_of_neg (by simp only [decide_eq_true_eq]; omega), ih rest (by omega)]

end Segment

/-- A list that is read off at consecutive keys has those keys. -/
lemma map_key_of_getElem? {key} {read : Nat → Option α} {items : List α}
    {low high}
    (at_position : ∀ position, items[position]? =
      if low + position < high then read (low + position) else none)
    (held : ∀ {index}, low ≤ index → index < high →
      ∃ item, read index = some item ∧ key item = index) :
    items.map key = range' low (high - low) := by
  refine ext_getElem? fun position => ?_
  rw [getElem?_map, at_position]
  split_ifs with inside
  · obtain ⟨item, found, key_eq⟩ := held (Nat.le_add_right low position) inside
    rw [found, getElem?_range' (by omega), Nat.one_mul, Option.map_some, key_eq]
  · rw [getElem?_eq_none (by rw [length_range']; omega)]
    rfl

end Foundation
