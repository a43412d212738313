import Mathlib.Algebra.Ring.Nat
import Mathlib.Logic.Function.Basic

/-!
# Leases in memory

The process-local lease store: for each resource the owner's name and the time its lease ends.  A
lease belongs to whoever gives the owner's name.  The module says what an operation grants to its
owner, and that it leaves the running lease of any other owner alone.
-/

namespace Catga.Memory

open Function

variable {ρ : Type}

structure Lease where
  owner : String
  expiresAtMillis : Nat

def unixMillis (clock : Nat) : Nat := min (clock / 10 ^ 6) (2 ^ 64 - 1)

/-- The end of a lease that is given now. -/
def expiry (clock ttl : Nat) : Nat :=
  min (unixMillis clock + min (ttl / 10 ^ 6) (2 ^ 64 - 1)) (2 ^ 64 - 1)

lemma unixMillis_mono {clock time} (later : clock ≤ time) :
    unixMillis clock ≤ unixMillis time := by
  simp only [unixMillis]
  omega

abbrev MemoryLeases (ρ : Type) := ρ → Option Lease

namespace MemoryLeases

variable [DecidableEq ρ] (leases : MemoryLeases ρ) (resource : ρ) (owner : String)

/-- Acquire a resource that is free, one's own, or whose lease has ended. -/
def tryAcquire (expiry now : Nat) : Bool × MemoryLeases ρ :=
  match leases resource with
  | none => (true, Function.update leases resource (some ⟨owner, expiry⟩))
  | some lease =>
    if lease.owner = owner then
      (true, Function.update leases resource (some { lease with expiresAtMillis := expiry }))
    else if lease.expiresAtMillis ≤ now then
      (true, Function.update leases resource (some ⟨owner, expiry⟩))
    else (false, leases)

/-- Extend one's own lease before it has ended. -/
def renew (expiry now : Nat) : Bool × MemoryLeases ρ :=
  match leases resource with
  | none => (false, leases)
  | some lease =>
    if lease.owner ≠ owner ∨ lease.expiresAtMillis ≤ now then (false, leases)
    else (true, Function.update leases resource (some { lease with expiresAtMillis := expiry }))

def release : Bool × MemoryLeases ρ :=
  match leases resource with
  | some lease =>
    if lease.owner = owner then (true, Function.update leases resource none)
    else (false, leases)
  | none => (false, leases)

def Respects (leases : MemoryLeases ρ) (owner : String) (now : Nat) (after : MemoryLeases ρ) :
    Prop :=
  ∀ resource lease, leases resource = some lease → lease.owner ≠ owner →
    now < lease.expiresAtMillis → after resource = some lease

variable {leases resource owner} {now expiry : Nat}

omit [DecidableEq ρ] in
lemma Respects.refl : leases.Respects owner now leases := fun _ _ held _ _ => held

lemma Respects.update {value}
    (free : ∀ lease, leases resource = some lease → lease.owner ≠ owner →
      lease.expiresAtMillis ≤ now) :
    leases.Respects owner now (Function.update leases resource value) := by
  intro other lease held differs running
  by_cases here : other = resource
  · subst here
    exact absurd (free lease held differs) (not_le.mpr running)
  · rw [update_of_ne here]
    exact held

lemma tryAcquire_respects :
    leases.Respects owner now (leases.tryAcquire resource owner expiry now).2 := by
  simp only [tryAcquire]
  split
  · rename_i vacant
    exact .update fun lease held => by rw [vacant] at held; cases held
  · rename_i lease occupied
    split
    · rename_i own
      refine .update fun other held differs => ?_
      cases occupied.symm.trans held
      exact absurd own differs
    · split_ifs with ended
      · refine .update fun other held _ => ?_
        cases occupied.symm.trans held
        exact ended
      · exact .refl

lemma renew_respects : leases.Respects owner now (leases.renew resource owner expiry now).2 := by
  simp only [renew]
  split
  · exact .refl
  · rename_i lease occupied
    split_ifs with own
    · exact .refl
    · refine .update fun other held differs => ?_
      cases occupied.symm.trans held
      exact absurd (.inl differs) own

lemma release_respects : leases.Respects owner now (leases.release resource owner).2 := by
  simp only [release]
  split
  · rename_i lease occupied
    split_ifs with own
    · refine .update fun other held differs => ?_
      cases occupied.symm.trans held
      exact absurd own differs
    · exact .refl
  · exact .refl

lemma held_of_tryAcquire (granted : (leases.tryAcquire resource owner expiry now).1 = true) :
    (leases.tryAcquire resource owner expiry now).2 resource = some ⟨owner, expiry⟩ := by
  simp only [tryAcquire] at granted ⊢
  split at granted
  · exact update_self ..
  · split at granted
    · rename_i own
      subst own
      rw [if_pos rfl]
      exact update_self ..
    · rename_i foreign
      split at granted
      · rename_i ended
        rw [if_neg foreign, if_pos ended]
        exact update_self ..
      · cases granted

lemma held_of_renew (granted : (leases.renew resource owner expiry now).1 = true) :
    (leases.renew resource owner expiry now).2 resource = some ⟨owner, expiry⟩ := by
  simp only [renew] at granted ⊢
  split at granted
  · cases granted
  · rename_i lease _
    split at granted
    · cases granted
    · rename_i own
      rw [if_neg own]
      obtain rfl : lease.owner = owner := by
        by_contra foreign
        exact own (.inl foreign)
      exact update_self ..

lemma renew_refused (refused : (leases.renew resource owner expiry now).1 = false) :
    (leases.renew resource owner expiry now).2 = leases := by
  simp only [renew] at refused ⊢
  split at refused
  · rfl
  · split at refused
    · rename_i unfit
      rw [if_pos unfit]
    · cases refused

end MemoryLeases

end Catga.Memory
