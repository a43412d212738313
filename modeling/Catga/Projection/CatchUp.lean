import Catga.Foundation.History
import Catga.Projection.Runner

/-!
# Projections and lost events

A checkpoint stands for events that were applied.  A reset takes the applied events away, and the
checkpoints are deleted by a second operation; where this fails, a later run starts from checkpoints
that stand for nothing.  Where every run starts from checkpoints deleted after the last reset, a
call that succeeds has applied every event that was there when it began.
-/

namespace Catga.Projection

open History Transition List

variable {ι ε : Type}

variable {event : StoredEvent ε} {events : List (StoredEvent ε)} {rest : Rest ι} {stream : ι}
  {task : Task ι ε} {more : Option Nat}

/-- Every event that was there when the call started has been applied since the last reset. -/
def World.Complete (world : World ι ε) : Prop :=
  ∀ stream version event, (world.known stream)[version]? = some event →
    (stream, ⟨version, event⟩) ∈ world.applied

def inOrder (before : List (ι × StoredEvent ε)) (next : ι × StoredEvent ε) : Prop :=
  ∀ version < next.2.version, ∃ earlier ∈ before, earlier.1 = next.1 ∧ earlier.2.version = version

/-- A run is called only when the checkpoints were deleted after the last reset. -/
def fromClean : Label ι ε → World ι ε → Bool
  | .run, world => world.clean
  | _, _ => true

lemma getElem?_of_grows {list longer} {index : Nat} {value : ε}
    (grows : list <+: longer) (found : list[index]? = some value) :
    longer[index]? = some value := by
  obtain ⟨more, rfl⟩ := grows
  obtain ⟨inside, -⟩ := List.getElem?_eq_some_iff.mp found
  rw [getElem?_append_left inside]
  exact found

section

variable {store : EventStore ι ε} {fromVersion maxCount : Nat}

lemma readPage_getElem? {index}
    (found : (store.readPage stream fromVersion maxCount).events[index]? = some event) :
    event.version = fromVersion + index ∧
      (store.events stream)[event.version]? = some event.envelope := by
  simp only [EventStore.readPage, getElem?_map, Option.map_eq_some_iff] at found
  obtain ⟨⟨envelope, version⟩, found, rfl⟩ := found
  rw [getElem?_zipIdx, Option.map_eq_some_iff] at found
  obtain ⟨_, found, same⟩ := found
  obtain ⟨rfl, rfl⟩ := Prod.mk.inj same
  refine ⟨rfl, ?_⟩
  rw [getElem?_take] at found
  split at found
  · rwa [getElem?_drop] at found
  · cases found

lemma length_le_of_readPage_eq_nil (positive : 0 < maxCount)
    (empty : (store.readPage stream fromVersion maxCount).events = []) :
    (store.events stream).length ≤ fromVersion := by
  simp only [EventStore.readPage, map_eq_nil_iff, zipIdx_eq_nil_iff,
    take_eq_nil_iff, drop_eq_nil_iff] at empty
  omega

lemma length_le_of_nextVersion_eq_none
    (page : (store.readPage stream fromVersion maxCount).events = event :: events)
    (last : (store.readPage stream fromVersion maxCount).nextVersion = none) :
    (store.events stream).length ≤ fromVersion + (events.length + 1) := by
  obtain ⟨final, found⟩ : ∃ final, (event :: events)[events.length]? = some final :=
    ⟨_, getElem?_eq_getElem (Nat.lt_succ_self _)⟩
  have version : final.version = fromVersion + events.length := by
    rw [← page] at found
    exact (readPage_getElem? found).1
  have next : (store.readPage stream fromVersion maxCount).nextVersion =
      (store.readPage stream fromVersion maxCount).events.getLast?.bind fun event =>
        if event.version + 1 < (store.events stream).length then some (event.version + 1)
        else none := rfl
  rw [next, page, getLast?_eq_getElem?, length_cons, Nat.add_sub_cancel, found,
    Option.bind_some] at last
  split at last
  · cases last
  · omega

variable [LinearOrder ι]

lemma mem_streamIdsPage {after} (listed : stream ∈ store.ids)
    (later : ∀ cursor ∈ after, cursor < stream)
    (within : ∀ cursor ∈ (store.streamIdsPage after maxCount).nextStreamId, stream ≤ cursor)
    (positive : 0 < maxCount) : stream ∈ (store.streamIdsPage after maxCount).ids := by
  obtain ⟨sorted, same⟩ : ∃ sorted, sorted =
      (store.ids.filter fun stream => after.all (· < stream)).insertionSort (· ≤ ·) := ⟨_, rfl⟩
  have ordered : sorted.Pairwise (· ≤ ·) := same ▸ pairwise_insertionSort _ _
  have present : stream ∈ sorted := by
    rw [same, mem_insertionSort, mem_filter]
    refine ⟨listed, ?_⟩
    cases after with
    | none => rfl
    | some cursor => exact decide_eq_true (later cursor rfl)
  have ids : (store.streamIdsPage after maxCount).ids = sorted.take maxCount := by rw [same]; rfl
  have next : (store.streamIdsPage after maxCount).nextStreamId =
      if maxCount < sorted.length then (sorted.take maxCount).getLast? else none := by
    rw [same]
    rfl
  rw [ids]
  rw [next] at within
  by_cases more : maxCount < sorted.length
  · rw [if_pos more] at within
    rw [← take_append_drop maxCount sorted, mem_append] at present
    rcases present with inside | behind
    · exact inside
    · -- What is behind the page is not before its last identifier.
      have nonempty : sorted.take maxCount ≠ [] := by
        simp only [ne_eq, take_eq_nil_iff, not_or]
        exact ⟨Nat.ne_of_gt positive, fun empty => by rw [empty] at behind; simp at behind⟩
      obtain ⟨cursor, last⟩ : ∃ cursor, (sorted.take maxCount).getLast? = some cursor :=
        ⟨_, getLast?_eq_some_getLast nonempty⟩
      have inside := mem_of_getLast? last
      rw [← take_append_drop maxCount sorted] at ordered
      have above := (pairwise_append.mp ordered).2.2 cursor inside stream behind
      rwa [le_antisymm (within cursor last) above]
  · rwa [take_of_length_le (not_lt.mp more)]

end

section

variable (world : World ι ε) (stream : ι)

/-- The events of a stream before a version are there and have been applied. -/
def World.Covers (version : Nat) : Prop :=
  version ≤ (world.store.events stream).length ∧
    ∀ earlier event, earlier < version → (world.store.events stream)[earlier]? = some event →
      (stream, ⟨earlier, event⟩) ∈ world.applied

/-- A stream is done: all its events that were there when the call started have been applied. -/
def World.Done : Prop := world.Covers stream (world.known stream).length

/-- Streams that are neither left of the page nor behind its cursor are done. -/
def World.Left [LinearOrder ι] (world : World ι ε) (ids : List ι) (next : Option ι) : Prop :=
  ∀ stream, world.known stream ≠ [] → stream ∉ ids → (∀ cursor ∈ next, stream ≤ cursor) →
    world.Done stream

structure World.Page (event : StoredEvent ε)
    (events : List (StoredEvent ε)) (more : Option Nat) : Prop where
  consecutive : ∀ index other, (event :: events)[index]? = some other →
    other.version = event.version + index ∧
      (world.store.events stream)[other.version]? = some other.envelope
  last : more = none → (world.known stream).length ≤ event.version + (events.length + 1)

end

def World.Progress [LinearOrder ι] (world : World ι ε) : Task ι ε → Prop
  | .reset => True
  | .deleteAll => world.applied = []
  | .list after => world.clean ∧ ∀ stream, world.known stream ≠ [] →
      (∃ cursor ∈ after, stream ≤ cursor) → world.Done stream
  | .load stream rest => world.clean ∧ world.Left (stream :: rest.ids) rest.next
  | .read stream version rest => world.clean ∧ world.Left (stream :: rest.ids) rest.next ∧
      world.Covers stream version
  | .apply stream event events more rest => world.clean ∧
      world.Left (stream :: rest.ids) rest.next ∧ world.Covers stream event.version ∧
      world.Page stream event events more
  | .save stream event events more rest => world.clean ∧
      world.Left (stream :: rest.ids) rest.next ∧ world.Covers stream event.version ∧
      world.Page stream event events more ∧ (stream, event) ∈ world.applied
  | .returned (.ok _) => world.Complete
  | .returned (.error _) => True

/-- What holds of every state. -/
structure World.Sound [LinearOrder ι] (world : World ι ε) : Prop where
  grown : ∀ stream, world.known stream <+: world.store.events stream
  lawful : Lawful inOrder world.applied
  covered : world.clean → ∀ stream version, world.checkpoints stream = some version →
    world.Covers stream (version + 1)
  progress : world.Progress world.call.task

section

variable {world : World ι ε} {version : Nat}

lemma World.Covers.succ (covers : world.Covers stream version) {event}
    (here : (world.store.events stream)[version]? = some event)
    (applied : (stream, ⟨version, event⟩) ∈ world.applied) :
    world.Covers stream (version + 1) := by
  obtain ⟨inside, -⟩ := List.getElem?_eq_some_iff.mp here
  refine ⟨inside, fun earlier other before found => ?_⟩
  rcases Nat.lt_succ_iff_lt_or_eq.mp before with before | rfl
  · exact covers.2 earlier other before found
  · cases here.symm.trans found
    exact applied

lemma World.Covers.zero : world.Covers stream 0 := ⟨Nat.zero_le _, fun _ _ before => by omega⟩

lemma World.Covers.mono {lower} (covers : world.Covers stream version)
    (le : lower ≤ version) : world.Covers stream lower :=
  ⟨le_trans le covers.1, fun earlier event before =>
    covers.2 earlier event (lt_of_lt_of_le before le)⟩

lemma World.Covers.done (covers : world.Covers stream version)
    (enough : (world.known stream).length ≤ version) : world.Done stream := covers.mono enough

lemma World.Covers.inOrder (covers : world.Covers stream event.version) :
    inOrder world.applied (stream, event) := by
  intro version before
  obtain ⟨there, applied⟩ := covers
  have inside : version < (world.store.events stream).length := lt_of_lt_of_le before there
  exact ⟨_, applied version _ before (getElem?_eq_getElem inside), rfl, rfl⟩

lemma World.complete_of_left [LinearOrder ι] (grown : ∀ stream, world.known stream <+:
      world.store.events stream) (left : world.Left [] none) : world.Complete := by
  intro stream version event found
  have known : world.known stream ≠ [] := by
    intro nothing
    rw [nothing] at found
    cases found
  have done := left stream known not_mem_nil (fun _ cursor => by cases cursor)
  obtain ⟨inside, -⟩ := List.getElem?_eq_some_iff.mp found
  exact done.2 version event inside (getElem?_of_grows (grown stream) found)

variable {after : World ι ε} {next : Option ι}

lemma World.Covers.grow (covers : world.Covers stream version)
    (grows : world.store.events stream <+: after.store.events stream)
    (applied : world.applied ⊆ after.applied) : after.Covers stream version := by
  refine ⟨le_trans covers.1 grows.length_le, fun earlier event before found => applied ?_⟩
  have inside : earlier < (world.store.events stream).length := lt_of_lt_of_le before covers.1
  have same := getElem?_of_grows grows (getElem?_eq_getElem inside)
  cases same.symm.trans found
  exact covers.2 earlier _ before (getElem?_eq_getElem inside)

lemma World.Left.grow [LinearOrder ι] {ids} (left : world.Left ids next)
    (known : after.known = world.known)
    (grows : ∀ stream, world.store.events stream <+: after.store.events stream)
    (applied : world.applied ⊆ after.applied) : after.Left ids next := by
  intro stream nonempty outside within
  rw [known] at nonempty
  have done := left stream nonempty outside within
  rw [World.Done, known]
  exact done.grow (grows stream) applied

lemma World.Page.grow (page : world.Page stream event events more)
    (known : after.known = world.known)
    (grows : world.store.events stream <+: after.store.events stream) :
    after.Page stream event events more where
  consecutive := by
    intro index other found
    obtain ⟨at_index, there⟩ := page.consecutive index other found
    exact ⟨at_index, getElem?_of_grows grows there⟩
  last := by
    rw [known]
    exact page.last

variable [LinearOrder ι]

lemma World.Progress.grow (progress : world.Progress task) (known : after.known = world.known)
    (clean : after.clean = world.clean)
    (grows : ∀ stream, world.store.events stream <+: after.store.events stream)
    (applied : after.applied = world.applied) : after.Progress task := by
  have subset : world.applied ⊆ after.applied := by
    rw [applied]
    exact List.Subset.refl _
  cases task with
  | reset => trivial
  | deleteAll => exact applied.trans progress
  | list =>
    refine ⟨clean.trans progress.1, fun stream nonempty within => ?_⟩
    rw [known] at nonempty
    rw [World.Done, known]
    exact (progress.2 stream nonempty within).grow (grows stream) subset
  | load => exact ⟨clean.trans progress.1, progress.2.grow known grows subset⟩
  | read stream =>
    obtain ⟨was, left, covers⟩ := progress
    exact ⟨clean.trans was, left.grow known grows subset, covers.grow (grows stream) subset⟩
  | apply stream =>
    obtain ⟨was, left, covers, page⟩ := progress
    exact ⟨clean.trans was, left.grow known grows subset, covers.grow (grows stream) subset,
      page.grow known (grows stream)⟩
  | save stream =>
    obtain ⟨was, left, covers, page, done⟩ := progress
    exact ⟨clean.trans was, left.grow known grows subset, covers.grow (grows stream) subset,
      page.grow known (grows stream), subset done⟩
  | returned result =>
    cases result with
    | error => trivial
    | ok =>
      intro stream version event found
      rw [known] at found
      exact subset (progress stream version event found)

lemma World.Progress.call (progress : world.Progress task) (call)
    (checkpoints : ι → Option Nat) : World.Progress { world with checkpoints, call } task :=
  progress.grow rfl rfl (fun _ => prefix_refl _) rfl

lemma World.progress_visit (clean : world.clean = true)
    (grown : ∀ stream, world.known stream <+: world.store.events stream)
    (left : world.Left rest.ids rest.next) (run) :
    world.Progress (rest.visit run : Call ι ε).task := by
  obtain ⟨ids, next⟩ := rest
  cases ids with
  | cons => exact ⟨clean, left⟩
  | nil =>
    cases next with
    | none => exact World.complete_of_left grown left
    | some =>
      refine ⟨clean, fun stream nonempty within => left stream nonempty not_mem_nil ?_⟩
      intro cursor here
      cases here
      obtain ⟨_, same, le⟩ := within
      cases same
      exact le

lemma World.Left.visited {ids} (left : world.Left (stream :: ids) next)
    (done : world.Done stream) : world.Left ids next := by
  intro other nonempty outside within
  by_cases here : other = stream
  · exact here ▸ done
  · exact left other nonempty (fun member => (mem_cons.mp member).elim here outside) within

end

section

variable [LinearOrder ι] {runner : CatchUpProjectionRunner} {world after : World ι ε}

lemma events_append_grows (store : EventStore ι ε) (stream other : ι) (batch : List ε) :
    store.events other <+: (store.append stream batch).events other := by
  by_cases here : other = stream
  · subst here
    show _ <+: Function.update store.events other _ other
    rw [Function.update_self]
    exact prefix_append _ _
  · have same : (store.append stream batch).events other = store.events other :=
      Function.update_of_ne here ..
    exact same ▸ prefix_refl _

section

variable (sound : world.Sound)
include sound

lemma progress_list {cursor} (progress : world.Progress (.list cursor))
    (run) :
    world.Progress (Rest.visit ⟨(world.store.streamIdsPage cursor maxEventStorePageSize).ids,
      (world.store.streamIdsPage cursor maxEventStorePageSize).nextStreamId⟩ run :
        Call ι ε).task := by
  refine World.progress_visit progress.1 sound.grown ?_ run
  intro stream nonempty outside within
  by_cases before : ∃ passed ∈ cursor, stream ≤ passed
  · exact progress.2 stream nonempty before
  · refine absurd (mem_streamIdsPage ?_ ?_ within (by decide)) outside
    · refine world.store.listed stream fun nothing => nonempty ?_
      exact prefix_nil.mp (nothing ▸ sound.grown stream)
    · intro passed here
      by_contra above
      exact before ⟨passed, here, not_lt.mp above⟩

lemma progress_read (runner : CatchUpProjectionRunner) {version}
    (progress : world.Progress (.read stream version rest)) (run) :
    world.Progress (match (world.store.readPage stream version runner.batchSize).events with
      | [] => rest.visit run
      | event :: events => ⟨.apply stream event events
          (world.store.readPage stream version runner.batchSize).nextVersion rest, run⟩ :
            Call ι ε).task := by
  obtain ⟨clean, left, covers⟩ := progress
  have known := (sound.grown stream).length_le
  split
  · rename_i empty
    have exceeds := length_le_of_readPage_eq_nil runner.positive empty
    exact World.progress_visit clean sound.grown
      (left.visited (covers.done (le_trans known exceeds))) run
  · rename_i event events page
    have first : event.version = version := by
      have found : (world.store.readPage stream version runner.batchSize).events[0]? =
          some event := by rw [page]; rfl
      exact (readPage_getElem? found).1
    refine ⟨clean, left, first ▸ covers, ?_, fun last => ?_⟩
    · intro index other found
      rw [← page] at found
      rw [first]
      exact readPage_getElem? found
    · rw [first]
      exact le_trans known (length_le_of_nextVersion_eq_none page last)

lemma progress_load (progress : world.Progress (.load stream rest)) (run) :
    world.Progress (match world.checkpoints stream with
      | none => ⟨.read stream 0 rest, run⟩
      | some version => continuing run (fun next => ⟨.read stream next rest, run⟩)
          (nextVersionAfter version) : Call ι ε).task := by
  obtain ⟨clean, left⟩ := progress
  split
  · exact ⟨clean, left, .zero⟩
  · rename_i version saved
    simp only [nextVersionAfter]
    split
    · exact ⟨clean, left, sound.covered clean stream version saved⟩
    · trivial

lemma progress_save (progress : world.Progress (.save stream event events more rest))
    (run) :
    world.Covers stream (event.version + 1) ∧
      world.Progress (continuing run
        (following stream events more rest { run with applied := run.applied + 1 })
        (nextVersionAfter event.version)).task := by
  obtain ⟨clean, left, covers, page, applied⟩ := progress
  have covers := covers.succ (page.consecutive 0 event rfl).2 applied
  refine ⟨covers, ?_⟩
  by_cases inside : event.version < 2 ^ 63 - 1
  · simp only [nextVersionAfter, if_pos inside, continuing]
    cases events with
    | cons next =>
      have following := (page.consecutive 1 next rfl).1
      refine ⟨clean, left, following ▸ covers, fun index other found => ?_, fun last => ?_⟩
      · obtain ⟨at_index, there⟩ := page.consecutive (index + 1) other found
        exact ⟨by omega, there⟩
      · have enough := page.last last
        simp only [length_cons] at enough
        omega
    | nil =>
      cases more with
      | none =>
        exact World.progress_visit clean sound.grown
          (left.visited (covers.done (page.last rfl))) _
      | some => exact ⟨clean, left, covers⟩
  · simp only [nextVersionAfter, if_neg inside, continuing]
    trivial

lemma sound_succeed (taken : runner.succeed world = some after) : after.Sound := by
  have progress := sound.progress
  simp only [CatchUpProjectionRunner.succeed] at taken
  split at taken <;> cases taken
  · refine ⟨sound.grown, .nil, fun clean => ?_, rfl⟩
    cases clean
  · rename_i task
    rw [task] at progress
    refine ⟨sound.grown, sound.lawful, fun _ _ _ saved => ?_, rfl, ?_⟩
    · cases saved
    · rintro _ _ ⟨_, never, _⟩
      cases never
  · rename_i cursor task
    rw [task] at progress
    have next := progress_list sound progress world.call.run
    exact { sound with progress := next.call .. }
  · rename_i stream rest task
    rw [task] at progress
    have next := progress_load sound progress world.call.run
    exact { sound with progress := next.call .. }
  · rename_i stream version rest task
    rw [task] at progress
    have next := progress_read sound runner progress world.call.run
    exact { sound with progress := next.call .. }
  · rename_i stream event events more rest task
    rw [task] at progress
    obtain ⟨clean, left, covers, page⟩ := progress
    have subset : world.applied ⊆ world.applied ++ [(stream, event)] :=
      subset_append_left _ _
    exact ⟨sound.grown, sound.lawful.concat covers.inOrder,
      fun clean other version saved =>
        (sound.covered clean other version saved).grow (prefix_refl _) subset,
      clean, left.grow rfl (fun _ => prefix_refl _) subset,
      covers.grow (prefix_refl _) subset, page.grow rfl (prefix_refl _), by simp⟩
  · rename_i stream event events more rest task
    rw [task] at progress
    obtain ⟨covers, next⟩ := progress_save sound progress world.call.run
    refine ⟨sound.grown, sound.lawful, fun clean other version saved => ?_, next.call ..⟩
    obtain ⟨rfl, ⟨⟩⟩ | ⟨-, saved⟩ := Foundation.update_eq_some saved
    · exact covers
    · exact sound.covered clean other version saved

lemma sound_fail {error reached}
    (taken : CatchUpProjectionRunner.fail world error reached = some after) : after.Sound := by
  have progress := sound.progress
  simp only [CatchUpProjectionRunner.fail] at taken
  split at taken <;> cases taken
  · refine ⟨sound.grown, sound.lawful, fun clean other version saved => ?_, trivial⟩
    replace saved : (if other ∈ reached then none else world.checkpoints other) =
      some version := saved
    split at saved
    · cases saved
    · exact sound.covered clean other version saved
  · rename_i stream event events more rest task
    rw [task] at progress
    have covers := (progress_save sound progress world.call.run).1
    refine ⟨sound.grown, sound.lawful, fun clean other version saved => ?_, trivial⟩
    replace saved : (if stream ∈ reached then
        Function.update world.checkpoints stream (some event.version)
      else world.checkpoints) other = some version := saved
    split at saved
    · obtain ⟨rfl, ⟨⟩⟩ | ⟨-, saved⟩ := Foundation.update_eq_some saved
      · exact covers
      · exact sound.covered clean other version saved
    · exact sound.covered clean other version saved
  · exact { sound with progress := trivial }

lemma sound_start (task)
    (first : ∀ world : World ι ε, world.clean = true ∨ task = .reset → world.Progress task)
    (clean : world.clean = true ∨ task = .reset)
    (taken : CatchUpProjectionRunner.start world task = some after) : after.Sound := by
  simp only [CatchUpProjectionRunner.start] at taken
  split at taken <;> cases taken
  exact ⟨fun _ => prefix_refl _, sound.lawful, sound.covered, first _ clean⟩

lemma sound_step {label} (admitted : fromClean label world = true)
    (taken : runner.step label world = some after) : after.Sound := by
  cases label with
  | append =>
    cases taken
    exact
      { grown := fun other => (sound.grown other).trans (events_append_grows ..)
        lawful := sound.lawful
        covered := fun clean other version saved =>
          (sound.covered clean other version saved).grow (events_append_grows ..)
            (List.Subset.refl _)
        progress := sound.progress.grow rfl rfl (fun _ => events_append_grows ..) rfl }
  | run =>
    refine sound_start sound (.list none) (fun world clean => ⟨?_, ?_⟩) (.inl admitted) taken
    · exact clean.resolve_right (by simp)
    · rintro _ _ ⟨_, never, _⟩
      cases never
  | rebuild => exact sound_start sound .reset (fun _ _ => trivial) (.inr rfl) taken
  | go => exact sound_succeed sound taken
  | fail => exact sound_fail sound taken

end

end

/-- In any run in which every `run` starts from checkpoints that were deleted after the last reset:
when a call succeeds, every event that was there when it started has been applied since the reset,
and those of each stream in the order of their versions. -/
theorem complete_of_fromClean [LinearOrder ι] (runner : CatchUpProjectionRunner)
    (store : EventStore ι ε) {labels : List (Label ι ε)} {world : World ι ε}
    (run : Runs runner.step (fun label before => fromClean label before = true)
      (World.start store) labels world) :
    (∀ result, world.call.task = .returned (.ok result) → world.Complete) ∧
      Lawful inOrder world.applied := by
  have initial : (World.start store).Sound :=
    { grown := fun _ => nil_prefix
      lawful := .nil
      covered := fun _ _ _ saved => by cases saved
      progress := fun _ _ _ found => by cases found }
  have sound : world.Sound := run.invariant initial fun sound => sound_step sound
  refine ⟨fun result returned => ?_, sound.lawful⟩
  have progress := sound.progress
  rwa [returned] at progress

/-- What a call that has returned successfully has done. -/
def Task.succeeded : Task ι ε → Option ProjectionRun
  | .returned (.ok run) => some run
  | _ => none

lemma Task.eq_of_succeeded {run} (succeeded : task.succeeded = some run) :
    task = .returned (.ok run) := by
  cases task with
  | returned result =>
    cases result with
    | ok => rw [Option.some.inj succeeded]
    | error => cases succeeded
  | _ => cases succeeded

def twoAtATime : CatchUpProjectionRunner := .withBatchSize 2 (by decide)

def threeEvents : EventStore Nat Nat := EventStore.empty.append 7 [10, 20, 30]

/-- A run applies the events, and a rebuild that succeeds applies them once more. -/
theorem complete_after_rebuild :
    ∃ world : World Nat Nat,
      Runs twoAtATime.step (fun label before => fromClean label before = true)
        (World.start threeEvents)
        (.run :: replicate 10 .go ++ .rebuild :: replicate 12 .go) world ∧
      world.call.task.succeeded = some ⟨3, 1⟩ ∧
      ((∀ result, world.call.task = .returned (.ok result) → world.Complete) ∧
        Lawful inOrder world.applied) :=
  Runs.exists_and_of_execWhile (by decide) fun run _ => complete_of_fromClean twoAtATime _ run

/-- A rebuild resets the projection and fails to delete the checkpoints.  The run after it succeeds
although none of the three events has been applied since the reset. -/
theorem lost_by_failed_rebuild :
    ∃ (world : World Nat Nat) (result : ProjectionRun),
      Runs twoAtATime.step (fun _ _ => True) (World.start threeEvents)
        (.run :: replicate 10 .go ++
          [.rebuild, .go, .fail ⟨.transient, "unreachable"⟩ [], .run, .go, .go, .go]) world ∧
      world.call.task = .returned (.ok result) ∧ ¬world.Complete := by
  simp only [exists_and_left]
  refine Runs.exists_of_test (fun world => world.call.task.succeeded = some ⟨0, 1⟩ ∧
    (world.known 7)[0]? = some 10 ∧ world.applied = []) (by decide) fun _ passed => ?_
  obtain ⟨returned, known, applied⟩ := passed
  refine ⟨⟨0, 1⟩, Task.eq_of_succeeded returned, fun complete => ?_⟩
  have lost := complete 7 0 10 known
  rw [applied] at lost
  cases lost

end Catga.Projection
