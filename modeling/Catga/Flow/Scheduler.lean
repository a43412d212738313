import Catga.Flow.Suspension
import Mathlib.Data.List.AList

/-!
# The in-memory flow scheduler

`MemoryFlowScheduler` keeps scheduled resumes under their identity, one per `(flow, state)` target,
and hands due ones out under a lease.  Every operation runs under the scheduler's mutex and is one
function on its state.
-/

namespace Catga.Flow

open List AList

/-- Largest value of the scheduler's `u64` counters. -/
def maxCounter : Nat := 2 ^ 64 - 1

/-- A resume to come. -/
structure ScheduledResume where
  scheduleId : ScheduleId
  flowId : String
  stateId : String
  dueAt : Nat
deriving DecidableEq

abbrev ScheduleTarget := String × String

def ScheduledResume.target (schedule : ScheduledResume) : ScheduleTarget :=
  (schedule.flowId, schedule.stateId)

/-- An entry of the queue. -/
structure DueSchedule where
  availableAt : Nat
  /-- Its place among entries available at the same time. -/
  inspectionOrder : Nat
  dueAt : Nat
  scheduleId : ScheduleId
deriving DecidableEq

def DueSchedule.before (one two : DueSchedule) : Bool :=
  decide (one.availableAt < two.availableAt) ||
    (one.availableAt == two.availableAt && decide (one.inspectionOrder < two.inspectionOrder))

/-- A lease of a schedule. -/
structure ScheduleClaim where
  owner : String
  expiresAt : Nat

/-- The schedules and the claims of them. -/
structure MemoryFlowScheduler where
  nextId : Nat
  schedules : AList fun _ : ScheduleId => ScheduledResume
  targetSchedules : AList fun _ : ScheduleTarget => ScheduleId
  /-- The queue of due work, unordered; the head is the least entry. -/
  dueSchedules : List DueSchedule
  claims : AList fun _ : ScheduleId => ScheduleClaim
  nextInspectionOrder : Nat

namespace MemoryFlowScheduler

def new : MemoryFlowScheduler :=
  { nextId := 0, schedules := ∅, targetSchedules := ∅, dueSchedules := [], claims := ∅,
    nextInspectionOrder := 0 }

variable (scheduler : MemoryFlowScheduler) (scheduleId : ScheduleId)

def has : Bool := (scheduler.schedules.lookup scheduleId).isSome

def enqueueDue (availableAt dueAt : Nat)
    (scheduleId : ScheduleId) : CatgaResult MemoryFlowScheduler :=
  if scheduler.nextInspectionOrder < maxCounter then
    .ok { scheduler with
      nextInspectionOrder := scheduler.nextInspectionOrder + 1
      dueSchedules :=
        { availableAt, inspectionOrder := scheduler.nextInspectionOrder, dueAt, scheduleId } ::
          scheduler.dueSchedules }
  else .error ⟨.unavailable, "due-work inspection ordering is exhausted"⟩

/-- Drop queue entries of vanished resumes once they outnumber the live ones. -/
def compactCancelledSchedules : MemoryFlowScheduler :=
  if scheduler.dueSchedules.length ≤ scheduler.schedules.entries.length * 2 + 64 then scheduler
  else { scheduler with
    dueSchedules := scheduler.dueSchedules.filter fun due => scheduler.has due.scheduleId }

def removeDueSchedule : MemoryFlowScheduler :=
  { scheduler with
    dueSchedules := scheduler.dueSchedules.filter fun due => due.scheduleId != scheduleId }

/-- Make a resume available from its due time again. -/
def restoreDueEligibility (dueAt : Nat) : MemoryFlowScheduler :=
  { scheduler with
    dueSchedules := scheduler.dueSchedules.map fun due =>
      if due.scheduleId = scheduleId then { due with availableAt := dueAt } else due }

/-- Forget a resume and, if it is the one mapped there, its target. -/
def forget (schedule : ScheduledResume) : MemoryFlowScheduler :=
  { scheduler with
    schedules := scheduler.schedules.erase schedule.scheduleId
    targetSchedules :=
      if scheduler.targetSchedules.lookup schedule.target = some schedule.scheduleId then
        scheduler.targetSchedules.erase schedule.target
      else scheduler.targetSchedules }

def dropClaim : MemoryFlowScheduler :=
  { scheduler with claims := scheduler.claims.erase scheduleId }

/-- Whether somebody holds a lease that has not lapsed at `now`. -/
def liveClaim (now : Nat) : Bool :=
  (scheduler.claims.lookup scheduleId).any fun claim => decide (now < claim.expiresAt)

/-- Schedule a resume, or return the one its target already has, whatever its due time. -/
def scheduleResume (flowId stateId : String) (dueAt : Nat) :
    MemoryFlowScheduler × CatgaResult ScheduleId :=
  match scheduler.targetSchedules.lookup (flowId, stateId) with
  | some scheduleId => (scheduler, .ok scheduleId)
  | none =>
    if scheduler.nextId < maxCounter then
      let scheduleId : ScheduleId := ⟨scheduler.nextId⟩
      let allocated := { scheduler with nextId := scheduler.nextId + 1 }
      match allocated.enqueueDue dueAt dueAt scheduleId with
      | .error error => (allocated, .error error)
      | .ok queued =>
        ({ queued with
            targetSchedules := queued.targetSchedules.insert (flowId, stateId) scheduleId
            schedules := queued.schedules.insert scheduleId
              { scheduleId, flowId, stateId, dueAt } },
          .ok scheduleId)
    else (scheduler, .error ⟨.unavailable, "schedule identity space is exhausted"⟩)

def cancelResume (now : Nat) : MemoryFlowScheduler × Bool :=
  if scheduler.liveClaim scheduleId now then (scheduler, false)
  else
    let unclaimed := scheduler.dropClaim scheduleId
    match unclaimed.schedules.lookup scheduleId with
    | none => (unclaimed, false)
    | some schedule =>
      (((unclaimed.forget schedule).removeDueSchedule scheduleId).compactCancelledSchedules,
        true)

def peekDue : Option DueSchedule :=
  scheduler.dueSchedules.foldl (fun least due =>
    match least with
    | none => some due
    | some other => if due.before other then some due else some other) none

/-- The inspection loop of `claim_due`, for at most `limit` more entries. -/
def claimDueLoop (owner : String) (now expiresAt : Nat) :
    Nat → MemoryFlowScheduler → List ScheduledResume →
      MemoryFlowScheduler × CatgaResult (List ScheduledResume)
  | 0, scheduler, claimed => (scheduler, .ok claimed)
  | limit + 1, scheduler, claimed =>
    match scheduler.peekDue with
    | none => (scheduler, .ok claimed)
    | some due =>
      if now < due.availableAt then (scheduler, .ok claimed)
      else
        let popped := { scheduler with dueSchedules := scheduler.dueSchedules.erase due }
        match popped.schedules.lookup due.scheduleId with
        | none => claimDueLoop owner now expiresAt limit popped claimed
        | some schedule =>
          let canClaim := !popped.liveClaim schedule.scheduleId now
          -- A live foreign lease rotates behind work that became due after it.
          let availableAt := if canClaim then due.availableAt else now
          match popped.enqueueDue availableAt due.dueAt schedule.scheduleId with
          | .error error => (scheduler, .error error)
          | .ok queued =>
            if schedule.dueAt ≠ due.dueAt then
              claimDueLoop owner now expiresAt limit queued claimed
            else if canClaim then
              claimDueLoop owner now expiresAt limit
                { queued with
                  claims := queued.claims.insert schedule.scheduleId ⟨owner, expiresAt⟩ }
                (claimed ++ [schedule])
            else claimDueLoop owner now expiresAt limit queued claimed

def leaseDeadline (now leaseFor : Nat) : CatgaResult Nat :=
  if now + leaseFor ≤ latestTime then .ok (now + leaseFor)
  else .error ⟨.validation, "due-work lease deadline exceeds the supported SystemTime range"⟩

/-- Lease at most `limit` due resumes. -/
def claimDue (owner : String) (now leaseFor limit : Nat) :
    MemoryFlowScheduler × CatgaResult (List ScheduledResume) :=
  if leaseFor = 0 then
    (scheduler, .error ⟨.validation, "due-work lease duration must be greater than zero"⟩)
  else
    match leaseDeadline now leaseFor with
    | .error error => (scheduler, .error error)
    | .ok expiresAt => claimDueLoop owner now expiresAt limit scheduler []

/-- Acknowledge a leased resume; lapsed leases count as long as nobody else took them. -/
def ackDue (owner : String) (scheduleId : ScheduleId) : MemoryFlowScheduler × Bool :=
  if (scheduler.claims.lookup scheduleId).any fun claim => claim.owner == owner then
    match scheduler.schedules.lookup scheduleId with
    | none => (scheduler.dropClaim scheduleId, false)
    | some schedule =>
      ((((scheduler.forget schedule).dropClaim scheduleId).removeDueSchedule
          scheduleId).compactCancelledSchedules,
        true)
  else (scheduler, false)

def releaseDue (owner : String) (scheduleId : ScheduleId) : MemoryFlowScheduler × Bool :=
  if (scheduler.claims.lookup scheduleId).any fun claim => claim.owner == owner then
    let unclaimed := scheduler.dropClaim scheduleId
    match scheduler.schedules.lookup scheduleId with
    | none => (unclaimed, true)
    | some schedule => (unclaimed.restoreDueEligibility scheduleId schedule.dueAt, true)
  else (scheduler, false)

def renewDue (owner : String) (scheduleId : ScheduleId)
    (now leaseFor : Nat) : MemoryFlowScheduler × CatgaResult Bool :=
  if leaseFor = 0 then
    (scheduler, .error ⟨.validation, "due-work lease duration must be greater than zero"⟩)
  else
    match leaseDeadline now leaseFor with
    | .error error => (scheduler, .error error)
    | .ok expiresAt =>
      if (scheduler.claims.lookup scheduleId).any fun claim =>
          claim.owner == owner && decide (now < claim.expiresAt) then
        ({ scheduler with claims := scheduler.claims.insert scheduleId ⟨owner, expiresAt⟩ },
          .ok true)
      else (scheduler, .ok false)

/-- Identities are allocated in order, every target is mapped to a schedule of its own, and a queue
entry is not available before it is due. -/
structure Sound : Prop where
  ids : ∀ scheduleId schedule, scheduler.schedules.lookup scheduleId = some schedule →
    schedule.scheduleId = scheduleId ∧ scheduleId.id < scheduler.nextId
  targets : ∀ target scheduleId, scheduler.targetSchedules.lookup target = some scheduleId →
    ∃ schedule, scheduler.schedules.lookup scheduleId = some schedule ∧ schedule.target = target
  queue : ∀ due ∈ scheduler.dueSchedules, due.dueAt ≤ due.availableAt ∧
    due.scheduleId.id < scheduler.nextId ∧
    ∀ schedule, scheduler.schedules.lookup due.scheduleId = some schedule →
      schedule.dueAt = due.dueAt

variable {scheduler after : MemoryFlowScheduler} {scheduleId : ScheduleId} {owner : String}
  {flowId stateId : String}

lemma sound_new : new.Sound where
  ids := fun scheduleId _ found => by
    cases found
  targets := fun target _ found => by
    cases found
  queue := fun _ member => (not_mem_nil member).elim

section

variable (sound : scheduler.Sound)
include sound

lemma Sound.requeue {dueSchedules}
    {claims nextInspectionOrder}
    (queue : ∀ due ∈ dueSchedules, due.dueAt ≤ due.availableAt ∧
      due.scheduleId.id < scheduler.nextId ∧
      ∀ schedule, scheduler.schedules.lookup due.scheduleId = some schedule →
        schedule.dueAt = due.dueAt) :
    Sound { scheduler with dueSchedules, claims, nextInspectionOrder } :=
  ⟨sound.ids, sound.targets, queue⟩

lemma Sound.dropClaim : (scheduler.dropClaim scheduleId).Sound := sound.requeue sound.queue

lemma Sound.removeDueSchedule : (scheduler.removeDueSchedule scheduleId).Sound :=
  sound.requeue fun due member => sound.queue due (mem_of_mem_filter member)

lemma Sound.compact : scheduler.compactCancelledSchedules.Sound := by
  unfold compactCancelledSchedules
  split
  · exact sound
  · exact sound.requeue fun due member => sound.queue due (mem_of_mem_filter member)

lemma Sound.forget {schedule}
    (found : scheduler.schedules.lookup schedule.scheduleId = some schedule) :
    (scheduler.forget schedule).Sound := by
  have kept : ∀ other found, (scheduler.forget schedule).schedules.lookup other = some found →
      scheduler.schedules.lookup other = some found := by
    intro other still erased
    by_cases same : other = schedule.scheduleId
    · subst same
      rw [show (scheduler.forget schedule).schedules.lookup _ = none from lookup_erase ..]
        at erased
      cases erased
    · exact (lookup_erase_ne same).symm.trans erased
  refine ⟨fun other still erased => sound.ids other still (kept other still erased),
    fun target mapped found' => ?_, fun due member => ?_⟩
  · -- A target still mapped is not the forgotten schedule's own.
    have before : scheduler.targetSchedules.lookup target = some mapped ∧
        mapped ≠ schedule.scheduleId := by
      by_cases own : target = schedule.target
      · subst own
        simp only [MemoryFlowScheduler.forget] at found'
        split at found'
        · rw [lookup_erase] at found'
          cases found'
        · rename_i unmapped
          exact ⟨found', fun same => unmapped (same ▸ found')⟩
      · have still : scheduler.targetSchedules.lookup target = some mapped := by
          simp only [MemoryFlowScheduler.forget] at found'
          split at found'
          · exact (lookup_erase_ne own).symm.trans found'
          · exact found'
        refine ⟨still, fun same => own ?_⟩
        obtain ⟨other, held, hits⟩ := sound.targets target mapped still
        rw [same, found] at held
        rw [← hits, Option.some.inj held]
    obtain ⟨other, held, hits⟩ := sound.targets target mapped before.1
    exact ⟨other, (lookup_erase_ne before.2).trans held, hits⟩
  · obtain ⟨due_le, allocated, agrees⟩ := sound.queue due member
    exact ⟨due_le, allocated, fun still erased => agrees still (kept _ still erased)⟩

end

lemma enqueueDue_eq_ok {availableAt dueAt}
    (queued : scheduler.enqueueDue availableAt dueAt scheduleId = .ok after) :
    after = { scheduler with
      nextInspectionOrder := scheduler.nextInspectionOrder + 1
      dueSchedules :=
        { availableAt, inspectionOrder := scheduler.nextInspectionOrder, dueAt, scheduleId } ::
          scheduler.dueSchedules } := by
  unfold enqueueDue at queued
  split at queued
  · exact (Except.ok.inj queued).symm
  · cases queued

lemma Sound.insert {dueAt order} (sound : scheduler.Sound) :
    Sound { scheduler with
      nextId := scheduler.nextId + 1
      nextInspectionOrder := order + 1
      dueSchedules :=
        { availableAt := dueAt, inspectionOrder := order, dueAt
          scheduleId := ⟨scheduler.nextId⟩ } :: scheduler.dueSchedules
      targetSchedules := scheduler.targetSchedules.insert (flowId, stateId) ⟨scheduler.nextId⟩
      schedules := scheduler.schedules.insert ⟨scheduler.nextId⟩
        { scheduleId := ⟨scheduler.nextId⟩, flowId, stateId, dueAt } } := by
  have old : ∀ {other}, other.id < scheduler.nextId →
      (scheduler.schedules.insert (⟨scheduler.nextId⟩ : ScheduleId)
        { scheduleId := ⟨scheduler.nextId⟩, flowId, stateId, dueAt }).lookup other =
      scheduler.schedules.lookup other := by
    intro other allocated
    refine lookup_insert_ne fun same => ?_
    rw [same] at allocated
    exact absurd allocated (lt_irrefl _)
  refine ⟨fun other found held => ?_, fun target mapped found => ?_, fun due member => ?_⟩
  · by_cases fresh : other = ⟨scheduler.nextId⟩
    · subst fresh
      rw [lookup_insert] at held
      cases held
      exact ⟨rfl, Nat.lt_succ_self _⟩
    · rw [lookup_insert_ne fresh] at held
      obtain ⟨own, allocated⟩ := sound.ids other found held
      exact ⟨own, Nat.lt_succ_of_lt allocated⟩
  · by_cases own : target = (flowId, stateId)
    · subst own
      rw [lookup_insert] at found
      cases found
      exact ⟨_, lookup_insert .., rfl⟩
    · rw [lookup_insert_ne own] at found
      obtain ⟨schedule, held, hits⟩ := sound.targets target mapped found
      exact ⟨schedule, (old (sound.ids _ _ held).2).trans held, hits⟩
  · rcases mem_cons.mp member with rfl | member
    · refine ⟨le_refl _, Nat.lt_succ_self _, fun schedule held => ?_⟩
      rw [lookup_insert] at held
      cases held
      rfl
    · obtain ⟨due_le, allocated, agrees⟩ := sound.queue due member
      exact ⟨due_le, Nat.lt_succ_of_lt allocated, fun schedule held =>
        agrees schedule ((old allocated).symm.trans held)⟩

lemma scheduleResume_spec {dueAt result}
    (sound : scheduler.Sound)
    (scheduled : scheduler.scheduleResume flowId stateId dueAt = (after, result)) :
    after.Sound ∧ scheduler.nextId ≤ after.nextId ∧
      (after.schedules = scheduler.schedules ∧
          (∀ scheduleId, result = .ok scheduleId →
            scheduler.targetSchedules.lookup (flowId, stateId) = some scheduleId) ∨
        result = .ok ⟨scheduler.nextId⟩ ∧ scheduler.nextId < after.nextId ∧
          after.schedules = scheduler.schedules.insert ⟨scheduler.nextId⟩
            { scheduleId := ⟨scheduler.nextId⟩, flowId, stateId, dueAt }) := by
  unfold scheduleResume at scheduled
  split at scheduled
  · rename_i mapped found
    cases scheduled
    refine ⟨sound, le_refl _, .inl ⟨rfl, fun scheduleId same => ?_⟩⟩
    rw [found, Except.ok.inj same]
  · split at scheduled
    · dsimp only at scheduled
      split at scheduled
      · cases scheduled
        refine ⟨⟨fun other found held => ?_, sound.targets, fun due member => ?_⟩,
          Nat.le_succ _, .inl ⟨rfl, fun _ same => by cases same⟩⟩
        · obtain ⟨own, allocated⟩ := sound.ids other found held
          exact ⟨own, Nat.lt_succ_of_lt allocated⟩
        · obtain ⟨due_le, allocated, agrees⟩ := sound.queue due member
          exact ⟨due_le, Nat.lt_succ_of_lt allocated, agrees⟩
      · rename_i queued enqueued
        obtain rfl := enqueueDue_eq_ok enqueued
        cases scheduled
        exact ⟨sound.insert, Nat.le_succ _, .inr ⟨rfl, Nat.lt_succ_self _, rfl⟩⟩
    · cases scheduled
      exact ⟨sound, le_refl _, .inl ⟨rfl, fun _ same => by cases same⟩⟩

lemma mem_of_peekDue {due} (head : scheduler.peekDue = some due) :
    due ∈ scheduler.dueSchedules := by
  have least : ∀ (queue : List DueSchedule) (start : Option DueSchedule),
      queue.foldl (fun least due =>
        match least with
        | none => some due
        | some other => if due.before other then some due else some other) start = some due →
      start = some due ∨ due ∈ queue := by
    intro queue
    induction queue with
    | nil => exact fun start same => .inl same
    | cons first queue ih =>
      intro start reached
      rcases ih _ reached with here | later
      · dsimp only at here
        split at here
        · exact .inr (mem_cons.mpr (.inl (Option.some.inj here).symm))
        · split at here
          · exact .inr (mem_cons.mpr (.inl (Option.some.inj here).symm))
          · exact .inl here
      · exact .inr (mem_cons_of_mem _ later)
  exact (least _ _ head).resolve_left fun never => by cases never

/-- The inspection loop keeps every schedule, and what it leases is kept and due. -/
lemma claimDueLoop_spec {now expiresAt limit claimed}
    (sound : scheduler.Sound)
    (due : ∀ schedule ∈ claimed,
      scheduler.schedules.lookup schedule.scheduleId = some schedule ∧ schedule.dueAt ≤ now) :
    let looped := claimDueLoop owner now expiresAt limit scheduler claimed
    looped.1.Sound ∧ looped.1.schedules = scheduler.schedules ∧
      looped.1.nextId = scheduler.nextId ∧
      ∀ schedules, looped.2 = .ok schedules → ∀ schedule ∈ schedules,
        scheduler.schedules.lookup schedule.scheduleId = some schedule ∧ schedule.dueAt ≤ now := by
  induction limit generalizing scheduler claimed with
  | zero =>
    exact ⟨sound, rfl, rfl, fun schedules same => by cases same; exact due⟩
  | succ limit ih =>
    have stops : scheduler.Sound ∧ scheduler.schedules = scheduler.schedules ∧
        scheduler.nextId = scheduler.nextId ∧
        ∀ schedules, (.ok claimed : CatgaResult (List ScheduledResume)) = .ok schedules →
          ∀ schedule ∈ schedules,
            scheduler.schedules.lookup schedule.scheduleId = some schedule ∧
              schedule.dueAt ≤ now :=
      ⟨sound, rfl, rfl, fun schedules same => by cases same; exact due⟩
    simp only [claimDueLoop]
    split
    · exact stops
    rename_i head peeked
    obtain ⟨head_le, allocated, agrees⟩ := sound.queue head (mem_of_peekDue peeked)
    have popped : Sound { scheduler with dueSchedules := scheduler.dueSchedules.erase head } :=
      sound.requeue fun other member => sound.queue other (mem_of_mem_erase member)
    split
    · exact stops
    split
    · exact ih popped due
    rename_i schedule found
    obtain ⟨own, -⟩ := sound.ids _ _ found
    have head_due : schedule.dueAt ≤ now := by
      have := agrees schedule found
      omega
    split
    · exact ⟨sound, rfl, rfl, fun schedules same => by cases same⟩
    rename_i queued enqueued
    -- Whether or not the lease is taken, the entry returns no earlier than it is due.
    have requeued : queued.Sound := by
      obtain rfl := enqueueDue_eq_ok enqueued
      refine popped.requeue fun other member => ?_
      rcases mem_cons.mp member with rfl | member
      · refine ⟨?_, own ▸ allocated, fun other held => agrees other (own ▸ held)⟩
        dsimp only
        split <;> omega
      · exact popped.queue other member
    have kept : queued.schedules = scheduler.schedules ∧ queued.nextId = scheduler.nextId := by
      obtain rfl := enqueueDue_eq_ok enqueued
      exact ⟨rfl, rfl⟩
    rw [← kept.1] at due found
    rw [← kept.1, ← kept.2]
    split
    · exact ih requeued due
    split
    · refine ih (requeued.requeue requeued.queue) fun other member => ?_
      rcases mem_append.mp member with old | new
      · exact due other old
      · obtain rfl := mem_singleton.mp new
        exact ⟨own ▸ found, head_due⟩
    · exact ih requeued due

lemma claimDue_spec (owner : String) (now leaseFor limit : Nat) (sound : scheduler.Sound) :
    let claimed := scheduler.claimDue owner now leaseFor limit
    claimed.1.Sound ∧ claimed.1.schedules = scheduler.schedules ∧
      claimed.1.nextId = scheduler.nextId ∧
      ∀ schedules, claimed.2 = .ok schedules → ∀ schedule ∈ schedules,
        scheduler.schedules.lookup schedule.scheduleId = some schedule ∧ schedule.dueAt ≤ now := by
  unfold claimDue
  split
  · exact ⟨sound, rfl, rfl, fun schedules same => by cases same⟩
  · split
    · exact ⟨sound, rfl, rfl, fun schedules same => by cases same⟩
    · exact claimDueLoop_spec sound fun _ member => (not_mem_nil member).elim

@[simp] lemma schedules_compact :
    scheduler.compactCancelledSchedules.schedules = scheduler.schedules := by
  unfold compactCancelledSchedules
  split <;> rfl

@[simp] lemma nextId_compact :
    scheduler.compactCancelledSchedules.nextId = scheduler.nextId := by
  unfold compactCancelledSchedules
  split <;> rfl

variable (owner : String) (scheduleId : ScheduleId) (sound : scheduler.Sound)
include sound

lemma ackDue_spec :
    (scheduler.ackDue owner scheduleId).1.Sound ∧
      (scheduler.ackDue owner scheduleId).1.nextId = scheduler.nextId ∧
      ((scheduler.ackDue owner scheduleId).1.schedules = scheduler.schedules ∨
        (scheduler.ackDue owner scheduleId).1.schedules =
          scheduler.schedules.erase scheduleId) := by
  unfold ackDue
  split
  · split
    · exact ⟨sound.dropClaim, rfl, .inl rfl⟩
    · rename_i schedule found
      obtain ⟨own, -⟩ := sound.ids _ _ found
      subst own
      refine ⟨(sound.forget found).dropClaim.removeDueSchedule.compact, ?_, .inr ?_⟩
      · rw [nextId_compact]; rfl
      · rw [schedules_compact]; rfl
  · exact ⟨sound, rfl, .inl rfl⟩

lemma releaseDue_spec :
    (scheduler.releaseDue owner scheduleId).1.Sound ∧
      (scheduler.releaseDue owner scheduleId).1.nextId = scheduler.nextId ∧
      (scheduler.releaseDue owner scheduleId).1.schedules = scheduler.schedules := by
  unfold releaseDue
  split
  · split
    · exact ⟨sound.dropClaim, rfl, rfl⟩
    · rename_i schedule found
      refine ⟨sound.dropClaim.requeue fun due member => ?_, rfl, rfl⟩
      obtain ⟨old, inside, rfl⟩ := mem_map.mp member
      obtain ⟨due_le, allocated, agrees⟩ := sound.queue old inside
      by_cases same : old.scheduleId = scheduleId
      · rw [if_pos same]
        exact ⟨le_of_eq (agrees schedule (same ▸ found)).symm, allocated, agrees⟩
      · rw [if_neg same]
        exact ⟨due_le, allocated, agrees⟩
  · exact ⟨sound, rfl, rfl⟩

lemma renewDue_spec (now leaseFor : Nat) :
    (scheduler.renewDue owner scheduleId now leaseFor).1.Sound ∧
      (scheduler.renewDue owner scheduleId now leaseFor).1.nextId = scheduler.nextId ∧
      (scheduler.renewDue owner scheduleId now leaseFor).1.schedules = scheduler.schedules := by
  unfold renewDue
  split
  · exact ⟨sound, rfl, rfl⟩
  · split
    · exact ⟨sound, rfl, rfl⟩
    · split
      · exact ⟨sound.requeue sound.queue, rfl, rfl⟩
      · exact ⟨sound, rfl, rfl⟩

end MemoryFlowScheduler

end Catga.Flow
