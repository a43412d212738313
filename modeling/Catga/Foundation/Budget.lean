import Mathlib.Algebra.BigOperators.Group.List.Basic
import Mathlib.Algebra.Ring.Nat
import Mathlib.Data.Nat.Find

/-!
# Prefixes within a size budget

Items are taken from the front of a list while their sizes fit a budget, but the first one is always
taken.  Taking in one pass, or from two parts of the list one after the other, gives the longest
prefix that fits.
-/

namespace Foundation

open List

variable {α : Type*} (size : α → Nat) (budget : Nat)

def totalSize (items : List α) : Nat := (items.map size).sum

/-- Take items while the sizes taken so far fit the budget; an item is always taken while nothing
has been spent. -/
def takeWithin : Nat → List α → List α
  | _, [] => []
  | spent, item :: items =>
    if spent = 0 ∨ spent + size item ≤ budget then
      item :: takeWithin (spent + size item) items
    else []

/-- The longest prefix that has at most one item or fits the budget. -/
def longestWithin (items : List α) : List α :=
  items.take (Nat.findGreatest
    (fun count => count ≤ 1 ∨ totalSize size (items.take count) ≤ budget) items.length)

variable {size budget} {items left right : List α} {spent : Nat}

@[simp] lemma totalSize_nil : totalSize size [] = 0 := rfl

@[simp] lemma totalSize_cons {item} :
    totalSize size (item :: items) = size item + totalSize size items := by
  simp [totalSize]

lemma takeWithin_isPrefix : takeWithin size budget spent items <+: items := by
  induction items generalizing spent with
  | nil => exact nil_prefix
  | cons item items ih =>
    simp only [takeWithin]
    split
    · exact prefix_cons_inj item |>.mpr ih
    · exact nil_prefix

lemma takeWithin_of_length_le_one (short : items.length ≤ 1) :
    takeWithin size budget 0 items = items := by
  match items, short with
  | [], _ => rfl
  | [item], _ => simp [takeWithin]

/-- Once an item of the left part is left out, nothing of the right part is taken. -/
lemma takeWithin_append_of_cut
    (cut : (takeWithin size budget spent left).length < left.length) :
    takeWithin size budget spent (left ++ right) = takeWithin size budget spent left := by
  induction left generalizing spent with
  | nil => simp at cut
  | cons item items ih =>
    simp only [takeWithin, cons_append] at cut ⊢
    split_ifs with fits
    · rw [if_pos fits, length_cons, length_cons] at cut
      rw [ih (by omega)]
    · rfl

lemma spent_takeWithin_le (positive : 0 < spent) (within : spent ≤ budget) :
    spent + totalSize size (takeWithin size budget spent items) ≤ budget := by
  induction items generalizing spent with
  | nil => simpa [takeWithin] using within
  | cons item items ih =>
    simp only [takeWithin]
    split_ifs with fits
    · have next := ih (by omega) (fits.resolve_left (by omega))
      rw [totalSize_cons]
      omega
    · simpa using within

lemma lt_spent_take (positive : 0 < spent) {count}
    (longer : (takeWithin size budget spent items).length < count) (inside : count ≤ items.length) :
    budget < spent + totalSize size (items.take count) := by
  induction items generalizing spent count with
  | nil =>
    simp only [length_nil] at inside
    omega
  | cons item items ih =>
    obtain ⟨count, rfl⟩ : ∃ rest, count = rest + 1 := ⟨count - 1, by omega⟩
    rw [take_succ_cons, totalSize_cons]
    simp only [takeWithin] at longer
    split_ifs at longer with exceeds
    · rw [length_cons] at longer inside
      have next : budget < spent + size item + totalSize size (items.take count) :=
        ih (by omega) (by omega) (by omega)
      omega
    · omega

lemma takeWithin_eq_longestWithin (positive : ∀ item ∈ items, 0 < size item) :
    takeWithin size budget 0 items = longestWithin size budget items := by
  cases items with
  | nil => rfl
  | cons item items =>
    have item_pos := positive item mem_cons_self
    have taken : takeWithin size budget 0 (item :: items) =
        item :: takeWithin size budget (size item) items := by
      simp [takeWithin]
    have from_front := prefix_iff_eq_take.mp
      (takeWithin_isPrefix : takeWithin size budget (size item) items <+: items)
    have greatest : Nat.findGreatest
        (fun count => count ≤ 1 ∨ totalSize size ((item :: items).take count) ≤ budget)
        (item :: items).length = (takeWithin size budget (size item) items).length + 1 := by
      rw [Nat.findGreatest_eq_iff]
      refine ⟨?_, fun _ => ?_, fun count longer inside fits => ?_⟩
      · have shorter : (takeWithin size budget (size item) items).length ≤ items.length :=
          takeWithin_isPrefix.length_le
        rw [length_cons]
        omega
      · rw [take_succ_cons, ← from_front, totalSize_cons]
        by_cases within : size item ≤ budget
        · exact .inr (spent_takeWithin_le item_pos within)
        · cases items with
          | nil => simp [takeWithin]
          | cons =>
            rw [takeWithin, if_neg (by omega)]
            simp
      · obtain ⟨count, rfl⟩ : ∃ rest, count = rest + 1 := ⟨count - 1, by omega⟩
        rw [length_cons] at inside
        have exceeds : budget < size item + totalSize size (items.take count) :=
          lt_spent_take item_pos (by omega) (by omega)
        rw [take_succ_cons, totalSize_cons] at fits
        omega
    rw [longestWithin, greatest, take_succ_cons, ← from_front, taken]

end Foundation
