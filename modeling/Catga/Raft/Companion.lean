import Catga.Foundation.Threads
import Catga.Raft.Storage
import Mathlib.Data.Nat.Basic

/-!
# Concurrent writers of the companion file

`set_hard_state`, `set_conf_state`, `persist_snapshot_state` and `provider_snapshot` change the core
under its lock, copy it under the lock again, and write the copy outside of it through one shared
temporary path.  Calls whose copies and renames overlap can publish an older core after a newer one,
or a temporary file that another call has just truncated.
-/

namespace Catga.Raft.Storage

open Transition Threads List

/-- The calls that rewrite the companion file. -/
inductive Request where
  | setHardState (hardState : HardState)
  | setConfState (confState : ConfState)
  | persistSnapshotState (snapshotIndex : Nat)
  | providerSnapshot (index term : Nat)
deriving DecidableEq

def Request.update : Request → PersistedCore → PersistedCore
  | .setHardState hardState, core => { core with hardState }
  | .setConfState confState, core => { core with confState }
  | .persistSnapshotState snapshotIndex, core =>
    { core with durableLastIndex := max core.durableLastIndex snapshotIndex }
  | .providerSnapshot index term, core =>
    if core.snapshotIndex < index then { core with snapshotIndex := index, snapshotTerm := term }
    else core

/-- The core in memory and the directory of the companion file. -/
structure Companion where
  core : PersistedCore
  history : List PersistedCore
  /-- What the bytes of each file decode to; nothing while a file is truncated or half written. -/
  files : List (Option PersistedCore)
  tmp : Option Nat
  target : Nat
  /-- Position in the history of the copy that the last rename published. -/
  landed : Nat

variable (companion : Companion)

def Companion.decoded : Option PersistedCore := companion.files[companion.target]?.join

/-- The directory of an opened storage; a crash may have left a temporary file. -/
def Companion.init (core : PersistedCore) (leftover : Option (Option PersistedCore)) : Companion :=
  { core, history := [core], files := some core.image :: leftover.toList
    tmp := leftover.map fun _ => 1, target := 0, landed := 0 }

/-- A call between its critical sections and the steps of `write_atomic`. -/
inductive Writer where
  | called (request : Request)
  | updated (version : Nat)
  | copied (version seen : Nat) (image : PersistedCore)
  | created (version seen : Nat) (image : PersistedCore) (file : Nat)
  | written (version seen file : Nat)
  | returned (version : Nat) (ok : Bool)
deriving DecidableEq

namespace Writer

/-- Between the copy and the rename. -/
def Persisting : Writer → Prop
  | .copied _ _ _ | .created _ _ _ _ | .written _ _ _ => True
  | .called _ | .updated _ | .returned _ _ => False

instance : ∀ writer : Writer, Decidable writer.Persisting := by
  rintro ⟨⟩ <;> dsimp only [Writer.Persisting] <;> infer_instance

def Copies : Writer → Prop
  | .updated _ => True
  | .called _ | .copied _ _ _ | .created _ _ _ _ | .written _ _ _ | .returned _ _ => False

instance : ∀ writer : Writer, Decidable writer.Copies
  | .updated _ => .isTrue trivial
  | .called _ | .copied _ _ _ | .created _ _ _ _ | .written _ _ _ | .returned _ _ => .isFalse id

/-- Position in the history of the update that a call has made. -/
def version : Writer → Option Nat
  | .called _ => none
  | .updated version | .copied version _ _ | .created version _ _ _ | .written version _ _
  | .returned version _ => some version

/-- The next step of a call; `succeeds` says whether the operating system does what is asked. -/
def act (succeeds : Bool) : Writer → Companion → Option (Companion × Writer)
  | .called request, companion =>
    let core := request.update companion.core
    some ({ companion with core, history := companion.history ++ [core] },
      .updated companion.history.length)
  | .updated version, companion =>
    some (companion, .copied version (companion.history.length - 1) companion.core.image)
  | .copied version seen image, companion =>
    if succeeds then
      match companion.tmp with
      | some file =>
        some ({ companion with files := companion.files.set file none },
          .created version seen image file)
      | none =>
        some ({ companion with
            files := companion.files ++ [none], tmp := some companion.files.length },
          .created version seen image companion.files.length)
    else some (companion, .returned version false)
  | .created version seen image file, companion =>
    if succeeds then
      some ({ companion with files := companion.files.set file (some image) },
        .written version seen file)
    else
      some ({ companion with files := companion.files.set file none }, .returned version false)
  | .written version seen _, companion =>
    match succeeds, companion.tmp with
    | true, some file =>
      some ({ companion with target := file, tmp := none, landed := seen },
        .returned version true)
    | _, _ => some (companion, .returned version false)
  | .returned _ _, _ => none

end Writer

/-- Any number of calls on one storage; nothing else touches the directory. -/
def writers : Machine Companion Writer Bool Empty Request where
  act := Writer.act
  env := fun event => event.elim
  enter := fun request _ => .called request

/-- No call copies the core while another one is between its copy and its rename. -/
def Serialized : Threads.Label Bool Empty Request → System Companion Writer → Prop
  | .act index _, system =>
    ∀ writer ∈ system.threads[index]?, writer.Copies →
      ∀ rival ∈ system.threads, ¬rival.Persisting
  | .env _, _ | .spawn _, _ => True

instance : ∀ label system, Decidable (Serialized label system) := by
  rintro ⟨⟩ system <;> dsimp only [Serialized] <;> infer_instance

def Companion.Recorded (position : Nat) (image : PersistedCore) : Prop :=
  ∃ core, companion.history[position]? = some core ∧ image = core.image

def Writer.Holds : Writer → Prop
  | .called _ => True
  | .updated version => version < companion.history.length
  | .copied version seen image =>
    version ≤ seen ∧ companion.landed ≤ seen ∧ companion.Recorded seen image
  | .created version seen image file =>
    version ≤ seen ∧ companion.landed ≤ seen ∧ companion.Recorded seen image ∧
      companion.tmp = some file ∧ file ≠ companion.target ∧ file < companion.files.length
  | .written version seen file =>
    version ≤ seen ∧ companion.landed ≤ seen ∧
      (∃ image, companion.files[file]? = some (some image) ∧ companion.Recorded seen image) ∧
      companion.tmp = some file ∧ file ≠ companion.target
  | .returned version ok => ok = true → version ≤ companion.landed

/-- The file at the target is complete and the temporary path names another one. -/
structure Companion.Sound : Prop where
  published : ∃ image, companion.files[companion.target]? = some (some image) ∧
    companion.Recorded companion.landed image
  present : companion.history.getLast? = some companion.core
  apart : ∀ file ∈ companion.tmp, file ≠ companion.target ∧ file < companion.files.length

/-- At most one call is between its copy and its rename. -/
def outline : Machine.Outline Companion Writer where
  shared := Companion.Sound
  thread := Writer.Holds
  pair := fun one two => ¬(one.Persisting ∧ two.Persisting)

namespace Companion

variable {companion : Companion} {position : Nat} {image core : PersistedCore}

lemma Recorded.lt (recorded : companion.Recorded position image) :
    position < companion.history.length := by
  obtain ⟨core, found, -⟩ := recorded
  exact (List.getElem?_eq_some_iff.mp found).1

lemma Recorded.update (recorded : companion.Recorded position image) :
    Recorded { companion with core, history := companion.history ++ [core] } position image := by
  have inside := recorded.lt
  obtain ⟨old, found, image_eq⟩ := recorded
  refine ⟨old, ?_, image_eq⟩
  rw [getElem?_append_left inside]
  exact found

lemma Sound.recorded (sound : companion.Sound) :
    companion.Recorded (companion.history.length - 1) companion.core.image := by
  refine ⟨companion.core, ?_, rfl⟩
  rw [← getLast?_eq_getElem?]
  exact sound.present

/-- Writing to the temporary file leaves the published one. -/
lemma Sound.overwrite (sound : companion.Sound) {file} (tmp_eq : companion.tmp = some file)
    (content : Option PersistedCore) :
    Sound { companion with files := companion.files.set file content } := by
  obtain ⟨image, stored, recorded⟩ := sound.published
  refine ⟨⟨image, (getElem?_set_ne (sound.apart file tmp_eq).1).trans stored, recorded⟩,
    sound.present, fun other same => ?_⟩
  obtain ⟨apart, inside⟩ := sound.apart other same
  exact ⟨apart, by simpa using inside⟩

end Companion

namespace Writer

variable {companion after : Companion} {writer next bystander : Writer} {succeeds : Bool}

/-- What holds of a call that is not persisting depends on the history and on what has landed. -/
lemma Holds.stable (holds : bystander.Holds companion) (outside : ¬bystander.Persisting)
    (longer : companion.history.length ≤ after.history.length)
    (later : companion.landed ≤ after.landed) : bystander.Holds after := by
  cases bystander with
  | called => trivial
  | updated => exact lt_of_lt_of_le holds longer
  | copied | created | written => exact absurd trivial outside
  | returned => exact fun returned => le_trans (holds returned) later

lemma Holds.failed {version} : Holds companion (.returned version false) := by
  intro succeeded
  cases succeeded

lemma Holds.update {core} (holds : bystander.Holds companion) :
    bystander.Holds { companion with core, history := companion.history ++ [core] } := by
  cases bystander with
  | called => trivial
  | updated =>
    refine lt_of_lt_of_le holds ?_
    simp
  | copied =>
    obtain ⟨in_order, behind, recorded⟩ := holds
    exact ⟨in_order, behind, recorded.update⟩
  | created =>
    obtain ⟨in_order, behind, recorded, rest⟩ := holds
    exact ⟨in_order, behind, recorded.update, rest⟩
  | written =>
    obtain ⟨in_order, behind, ⟨image, stored, recorded⟩, rest⟩ := holds
    exact ⟨in_order, behind, ⟨image, stored, recorded.update⟩, rest⟩
  | returned => exact holds

/-- A step keeps the directory sound and moves the history and the published copy forward. -/
lemma act_keeps (sound : companion.Sound) (holds : writer.Holds companion)
    (taken : writer.act succeeds companion = some (after, next)) :
    after.Sound ∧ next.Holds after ∧ companion.history.length ≤ after.history.length ∧
      companion.landed ≤ after.landed := by
  obtain ⟨image, stored, recorded⟩ := sound.published
  cases writer with
  | called =>
    cases taken
    refine ⟨⟨⟨image, stored, recorded.update⟩, by simp, sound.apart⟩, ?_, by simp, le_rfl⟩
    change companion.history.length < (companion.history ++ [_]).length
    simp
  | updated version =>
    cases taken
    have current := sound.recorded
    have landed_lt := recorded.lt
    have version_lt : version < companion.history.length := holds
    exact ⟨sound, ⟨by omega, by omega, current⟩, le_rfl, le_rfl⟩
  | copied version seen copy =>
    obtain ⟨in_order, behind, kept⟩ := holds
    simp only [act] at taken
    split at taken
    · split at taken <;> cases taken
      · rename_i file tmp_eq
        obtain ⟨apart, inside⟩ := sound.apart file tmp_eq
        exact ⟨sound.overwrite tmp_eq _, ⟨in_order, behind, kept, tmp_eq, apart,
          by simpa using inside⟩, le_rfl, le_rfl⟩
      · rename_i tmp_eq
        have target_lt := (List.getElem?_eq_some_iff.mp stored).1
        have fresh : companion.files.length ≠ companion.target := by omega
        refine ⟨⟨⟨image, ?_, recorded⟩, sound.present, ?_⟩, ⟨in_order, behind, kept, rfl,
          fresh, ?_⟩, le_rfl, le_rfl⟩
        · exact (getElem?_append_left target_lt).trans stored
        · intro other same
          obtain rfl : companion.files.length = other := Option.some.inj same
          exact ⟨fresh, by simp⟩
        · simp
    · cases taken
      exact ⟨sound, .failed, le_rfl, le_rfl⟩
  | created version seen copy =>
    obtain ⟨in_order, behind, kept, tmp_eq, apart, inside⟩ := holds
    simp only [act] at taken
    split at taken <;> cases taken
    · exact ⟨sound.overwrite tmp_eq _, ⟨in_order, behind, ⟨copy, getElem?_set_self inside, kept⟩,
        tmp_eq, apart⟩, le_rfl, le_rfl⟩
    · exact ⟨sound.overwrite tmp_eq _, .failed, le_rfl, le_rfl⟩
  | written version seen file =>
    obtain ⟨in_order, behind, ⟨copy, complete, kept⟩, tmp_eq, apart⟩ := holds
    simp only [act, tmp_eq] at taken
    split at taken
    · rename_i other same
      cases same
      cases taken
      refine ⟨⟨⟨copy, complete, kept⟩, sound.present, ?_⟩, fun _ => in_order, le_rfl, behind⟩
      intro other absent
      cases absent
    · cases taken
      exact ⟨sound, .failed, le_rfl, le_rfl⟩
  | returned => cases taken

lemma persisting_of_act (taken : writer.act succeeds companion = some (after, next))
    (persisting : next.Persisting) : writer.Persisting ∨ writer.Copies := by
  cases writer with
  | called =>
    cases taken
    exact persisting.elim
  | updated => exact .inr trivial
  | copied | created | written => exact .inl trivial
  | returned => cases taken

end Writer

lemma outline_valid : outline.Valid writers Serialized where
  own := by
    intro system index choice writer next after holds _ here taken
    have kept := Writer.act_keeps holds.shared (holds.thread here) taken
    exact ⟨kept.1, kept.2.1⟩
  other := by
    intro system index rival choice writer next bystander after holds serialized here taken
      elsewhere found
    have kept := Writer.act_keeps holds.shared (holds.thread here) taken
    have exclusive : ¬(next.Persisting ∧ bystander.Persisting) := by
      rintro ⟨persisting, other⟩
      rcases Writer.persisting_of_act taken persisting with already | copies
      · exact holds.pair (Ne.symm elsewhere) here found ⟨already, other⟩
      · exact serialized writer here copies bystander (mem_of_getElem? found) other
    refine ⟨?_, exclusive, fun both => exclusive both.symm⟩
    by_cases outside : bystander.Persisting
    · have apart := holds.pair (Ne.symm elsewhere) here found
      cases writer with
      | called =>
        cases taken
        exact (holds.thread found).update
      | updated =>
        cases taken
        exact holds.thread found
      | copied | created | written => exact absurd ⟨trivial, outside⟩ apart
      | returned => cases taken
    · exact (holds.thread found).stable outside kept.2.2.1 kept.2.2.2
  env := fun {_ event} => event.elim
  enter := by
    intro system request holds _
    exact ⟨trivial, fun _ => ⟨fun both => both.1, fun both => both.2⟩⟩

/-- Some call has made the last update of the core, unless none was made. -/
def Attributed (system : System Companion Writer) : Prop :=
  system.shared.history.length = 1 ∨
    ∃ writer ∈ system.threads, writer.version = some (system.shared.history.length - 1)

lemma Writer.version_of_act {companion after} {writer next : Writer}
    {succeeds} (taken : writer.act succeeds companion = some (after, next)) :
    next.version = some companion.history.length ∧
        after.history.length = companion.history.length + 1 ∨
      next.version = writer.version ∧ after.history.length = companion.history.length := by
  cases writer with
  | called =>
    cases taken
    exact .inl ⟨rfl, by simp⟩
  | updated =>
    cases taken
    exact .inr ⟨rfl, rfl⟩
  | copied =>
    simp only [act] at taken
    split at taken
    · split at taken <;> cases taken <;> exact .inr ⟨rfl, rfl⟩
    · cases taken
      exact .inr ⟨rfl, rfl⟩
  | created | written =>
    simp only [act] at taken
    split at taken <;> cases taken <;> exact .inr ⟨rfl, rfl⟩
  | returned => cases taken

lemma Attributed.step {system after}
    {label : Threads.Label Bool Empty Request} (attributed : Attributed system)
    (taken : writers.step label system = some after) : Attributed after := by
  cases label with
  | act index =>
    obtain ⟨writer, shared, next, here, acted, rfl⟩ := Machine.step_act taken
    have inside := (List.getElem?_eq_some_iff.mp here).1
    have placed : next ∈ system.threads.set index next := mem_set inside next
    rcases Writer.version_of_act acted with ⟨version_eq, length_eq⟩ | ⟨version_eq, length_eq⟩
    · refine .inr ⟨next, placed, ?_⟩
      change next.version = some (shared.history.length - 1)
      rw [version_eq, length_eq, Nat.add_sub_cancel]
    · rcases attributed with untouched | ⟨last, mem, last_eq⟩
      · exact .inl (length_eq.trans untouched)
      · refine .inr ?_
        change ∃ last ∈ system.threads.set index next,
          last.version = some (shared.history.length - 1)
        rw [length_eq]
        by_cases same : last.version = writer.version
        · exact ⟨next, placed, version_eq.trans (same.symm.trans last_eq)⟩
        · exact ⟨last, Machine.mem_set_of_ne here mem (fun equal => same (equal ▸ rfl)) next,
            last_eq⟩
  | env event => exact event.elim
  | spawn =>
    cases taken
    rcases attributed with untouched | ⟨last, mem, last_eq⟩
    · exact .inl untouched
    · exact .inr ⟨last, mem_append_left _ mem, last_eq⟩

/-- In every run in which no call copies the core while another one is between its copy and its
rename, the file always decodes to a core that was current, and once all calls have returned `Ok` to
the present one. -/
theorem companion_of_serialized {core : PersistedCore} {leftover : Option (Option PersistedCore)}
    {labels : List (Threads.Label Bool Empty Request)} {finish : System Companion Writer}
    (run : Runs writers.step Serialized ⟨.init core leftover, []⟩ labels finish) :
    (∃ current ∈ finish.shared.history, finish.shared.decoded = some current.image) ∧
      ((∀ writer ∈ finish.threads, ∃ version, writer = .returned version true) →
        finish.shared.decoded = some finish.shared.core.image) := by
  have start : (Companion.init core leftover).Sound := by
    refine ⟨⟨core.image, rfl, core, rfl, rfl⟩, rfl, ?_⟩
    intro file present
    cases leftover with
    | none => cases present
    | some =>
      obtain rfl : 1 = file := Option.some.inj present
      exact ⟨Nat.one_ne_zero, by simp [Companion.init]⟩
  have holds := outline_valid.runs start run
  have initial : Attributed ⟨.init core leftover, []⟩ := .inl rfl
  have attributed : Attributed finish :=
    run.invariant initial fun kept _ taken => kept.step taken
  obtain ⟨image, stored, current, found, image_eq⟩ := holds.shared.published
  have decoded : finish.shared.decoded = some current.image := by
    unfold Companion.decoded
    rw [stored, image_eq]
    rfl
  refine ⟨⟨current, mem_of_getElem? found, decoded⟩, fun returned => ?_⟩
  have landed_last : finish.shared.landed = finish.shared.history.length - 1 := by
    have landed_lt := (List.getElem?_eq_some_iff.mp found).1
    rcases attributed with untouched | ⟨writer, mem, version_eq⟩
    · omega
    · obtain ⟨version, rfl⟩ := returned writer mem
      obtain ⟨position, here⟩ := mem_iff_getElem?.mp mem
      have behind : version ≤ finish.shared.landed := holds.thread here rfl
      have version_eq : version = finish.shared.history.length - 1 := Option.some.inj version_eq
      omega
  rw [landed_last, ← getLast?_eq_getElem?, holds.shared.present] at found
  rw [decoded, Option.some.inj found]

/-- The calls that the two tasks of a node make: the persist worker's hard state and the owner's
membership change. -/
private def hardStateAndMembership : List (Threads.Label Bool Empty Request) :=
  [.spawn (.setHardState { term := 2, vote := 1, commit := 4 }),
    .spawn (.setConfState { ConfState.default with voters := [1, 2, 3] })]

/-- Both updates are made before either call copies, then one call writes after the other. -/
theorem companion_after_overlapping_updates :
    ∃ finish, Runs writers.step Serialized ⟨.init .default none, []⟩
      (hardStateAndMembership ++
        [.act 0 true, .act 1 true, .act 0 true, .act 0 true, .act 0 true, .act 0 true,
          .act 1 true, .act 1 true, .act 1 true, .act 1 true]) finish ∧
      finish.shared.core.hardState.term = 2 ∧ finish.shared.core.confState.voters = [1, 2, 3] ∧
      finish.shared.decoded = some finish.shared.core.image := by
  refine Runs.exists_of_test (fun system => system.shared.core.hardState.term = 2 ∧
    system.shared.core.confState.voters = [1, 2, 3] ∧
    system.threads = [.returned 1 true, .returned 2 true]) (by decide) fun run reached => ?_
  obtain ⟨term_eq, voters_eq, returned⟩ := reached
  refine ⟨term_eq, voters_eq, (companion_of_serialized run).2 fun writer mem => ?_⟩
  rw [returned] at mem
  rcases mem_pair.mp mem with rfl | rfl
  · exact ⟨1, rfl⟩
  · exact ⟨2, rfl⟩

/-- The worker copies the core before the owner changes the membership and writes its copy later:
both calls return `Ok` and the file has lost the membership.  If the owner truncates the temporary
file before the worker renames it, the file does not decode at all. -/
theorem companion_update_lost :
    (∃ finish, Runs writers.step (fun _ _ => True) ⟨.init .default none, []⟩
      (hardStateAndMembership ++
        [.act 0 true, .act 0 true, .act 1 true, .act 1 true, .act 1 true, .act 1 true,
          .act 1 true, .act 0 true, .act 0 true, .act 0 true]) finish ∧
      finish.threads = [.returned 1 true, .returned 2 true] ∧
      finish.shared.core.confState.voters = [1, 2, 3] ∧
      finish.shared.decoded.map (fun core => core.confState.voters) = some []) ∧
    ∃ finish, Runs writers.step (fun _ _ => True) ⟨.init .default none, []⟩
      (hardStateAndMembership ++
        [.act 0 true, .act 0 true, .act 0 true, .act 0 true, .act 1 true, .act 1 true,
          .act 1 true, .act 0 true]) finish ∧
      finish.shared.decoded = none := by
  constructor <;> exact Runs.exists_of_execWhile _ _ _ _ _ (by decide)

end Catga.Raft.Storage
