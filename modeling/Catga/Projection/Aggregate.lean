import Catga.Error

/-!
# Saving an aggregate

`save` appends the pending events and clears them before it asks the snapshot store, whose error it
returns although the events are in the stream.
-/

namespace Catga.AggregateRepository

variable {ε : Type}

/-- The stream of an aggregate, and the aggregate of the caller. -/
structure World (ε : Type) where
  stream : List ε
  version : Int
  pending : List ε

/-- What the stores answer to the calls of one `save`. -/
structure Answers where
  append : CatgaResult Int
  /-- Whether an append that fails has stored its events nevertheless. -/
  committed : Bool
  load : CatgaResult (Option Int)
  save : CatgaResult Unit

/-- The pending events are appended and cleared. -/
def World.saved (world : World ε) : World ε :=
  { world with stream := world.stream ++ world.pending, pending := [] }

/-- The append of the pending events, and the snapshot after it. -/
def commit (shouldSnapshot : Int → Int → Bool) (answers : Answers) (world : World ε) :
    CatgaResult Unit × World ε :=
  match answers.append with
  | .error error =>
    (.error error, if answers.committed then
      { world with stream := world.stream ++ world.pending } else world)
  | .ok _ =>
    match answers.load with
    | .error error => (.error error, world.saved)
    | .ok snapshot =>
      if shouldSnapshot world.version (snapshot.getD (-1)) then (answers.save, world.saved)
      else (.ok (), world.saved)

def save (shouldSnapshot : Int → Int → Bool) (answers : Answers) (world : World ε) :
    CatgaResult Unit × World ε :=
  if world.pending.isEmpty then (.ok (), world)
  else if 2 ^ 63 ≤ world.pending.length then
    (.error ⟨.validation,
      "aggregate pending event count exceeds the supported stream version range"⟩, world)
  else if world.version - world.pending.length < -2 ^ 63 then
    (.error ⟨.validation, "aggregate version is lower than its pending event count"⟩, world)
  else commit shouldSnapshot answers world

/-- The results of the calls of `save` one after the other, and what they leave. -/
def saves (shouldSnapshot : Int → Int → Bool) :
    List Answers → World ε → List (CatgaResult Unit) × World ε
  | [], world => ([], world)
  | answers :: later, world =>
    let first := save shouldSnapshot answers world
    let rest := saves shouldSnapshot later first.2
    (first.1 :: rest.1, rest.2)

/-- A call that fails leaves the stream and the pending events, and one that succeeds has appended
them. -/
def AllOrNothing (before : World ε) (outcome : CatgaResult Unit × World ε) : Prop :=
  match outcome.1 with
  | .ok _ => outcome.2 = before.saved
  | .error _ => outcome.2 = before

variable (shouldSnapshot : Int → Int → Bool) (world : World ε)

/-- If it comes to the append, then an append that fails stores nothing, and after one that succeeds
the snapshot store answers the calls that are made. -/
def Answers.Sound (answers : Answers) : Prop :=
  world.pending ≠ [] → world.pending.length < 2 ^ 63 →
  -2 ^ 63 ≤ world.version - world.pending.length →
    match answers.append with
    | .error _ => answers.committed = false
    | .ok _ => ∃ snapshot, answers.load = .ok snapshot ∧
        (shouldSnapshot world.version (snapshot.getD (-1)) → answers.save = .ok ())

variable {world}

lemma World.saved_of_nil (nil : world.pending = []) : world.saved = world := by
  cases world
  simp_all [saved]

lemma World.saved_ne (nonempty : world.pending ≠ []) : world.saved ≠ world :=
  fun same => nonempty (congrArg World.pending same).symm

lemma allOrNothing_commit {answers : Answers} (nonempty : world.pending ≠ []) :
    AllOrNothing world (commit shouldSnapshot answers world) ↔
      match answers.append with
      | .error _ => answers.committed = false
      | .ok _ => ∃ snapshot, answers.load = .ok snapshot ∧
          (shouldSnapshot world.version (snapshot.getD (-1)) → answers.save = .ok ()) := by
  have changed := world.saved_ne nonempty
  unfold commit
  cases answers.append with
  | error =>
    cases answers.committed
    · exact iff_of_true rfl rfl
    · refine iff_of_false (fun same => nonempty ?_) Bool.noConfusion
      simpa [AllOrNothing] using congrArg World.stream same
  | ok =>
    cases answers.load with
    | error => exact iff_of_false changed (by simp)
    | ok snapshot =>
      dsimp only
      split_ifs with wanted
      · cases answers.save with
        | error => exact iff_of_false changed (by simp [wanted])
        | ok => exact iff_of_true rfl ⟨snapshot, rfl, fun _ => rfl⟩
      · exact iff_of_true rfl ⟨snapshot, rfl, fun asked => absurd asked wanted⟩

lemma allOrNothing_save (answers : Answers) :
    AllOrNothing world (save shouldSnapshot answers world) ↔
      answers.Sound shouldSnapshot world := by
  unfold save Answers.Sound
  split_ifs with empty long early
  · have nil := List.isEmpty_iff.mp empty
    exact iff_of_true (World.saved_of_nil nil).symm fun nonempty => absurd nil nonempty
  · exact iff_of_true rfl fun _ short => absurd long (Nat.not_le.mpr short)
  · exact iff_of_true rfl fun _ _ late => absurd early (Int.not_lt.mpr late)
  · have nonempty : world.pending ≠ [] := fun nil => empty (List.isEmpty_iff.mpr nil)
    rw [allOrNothing_commit shouldSnapshot nonempty, imp_iff_right nonempty,
      imp_iff_right (Nat.not_le.mp long), imp_iff_right (Int.not_lt.mp early)]

lemma saves_saved (attempts : List Answers) :
    (saves shouldSnapshot attempts world.saved).2 = world.saved := by
  induction attempts with
  | nil => rfl
  | cons answers later ih => simpa [saves, save, World.saved] using ih

/-- A call of `save` is all or nothing just when the answers are sound.  While they are, calls leave
everything as it is until one succeeds, and the events are appended once. -/
theorem saves_once (world : World ε) :
    (∀ answers, AllOrNothing world (save shouldSnapshot answers world) ↔
      answers.Sound shouldSnapshot world) ∧
    ∀ attempts : List Answers, (∀ answers ∈ attempts, answers.Sound shouldSnapshot world) →
      (saves shouldSnapshot attempts world).2 =
        if .ok () ∈ (saves shouldSnapshot attempts world).1 then world.saved else world := by
  refine ⟨allOrNothing_save shouldSnapshot, fun attempts sound => ?_⟩
  induction attempts with
  | nil => simp [saves]
  | cons answers later ih =>
    obtain ⟨first, rest⟩ := List.forall_mem_cons.mp sound
    have outcome := (allOrNothing_save shouldSnapshot answers).mpr first
    rcases reached : save shouldSnapshot answers world with ⟨error | done, after⟩
    · rw [reached] at outcome
      obtain rfl : after = world := outcome
      simp [saves, reached, ih rest]
    · rw [reached] at outcome
      obtain rfl : after = world.saved := outcome
      simp [saves, reached, saves_saved]

theorem saved_at_second_attempt :
    let attempts : List Answers :=
      [⟨.error ⟨.conflict, ""⟩, false, .ok none, .ok ()⟩, ⟨.ok 0, false, .ok none, .ok ()⟩]
    (saves (fun _ _ => true) attempts ⟨[], 0, ["created"]⟩).2 = ⟨["created"], 0, []⟩ :=
  (saves_once (fun _ _ => true) ⟨[], 0, ["created"]⟩).2 _ (by simp [Answers.Sound])

/-- The call fails because there is a newer snapshot, and has appended the event. -/
theorem failed_save_appends :
    save (fun _ _ => true) ⟨.ok 0, false, .ok none, .error ⟨.conflict,
      "a newer snapshot already exists for this stream"⟩⟩ ⟨[], 0, ["created"]⟩ =
    (.error ⟨.conflict, "a newer snapshot already exists for this stream"⟩,
      ⟨["created"], 0, []⟩) := rfl

end Catga.AggregateRepository
