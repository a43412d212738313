import Catga.Projection.CatchUp
import Mathlib.Data.List.MinMax
import Mathlib.Data.String.Basic

/-!
# Appending to the in-memory event store

`append` creates a stream that is missing before the stream checks the expected version.  A refused
append leaves the events of every stream alone, but a new stream stays listed.
-/

namespace Catga.Projection.EventStore

variable {ι ε : Type}

/-- The error of a version that is not an `i64`. -/
def exhausted : CatgaError := ⟨.internal, "event stream version is exhausted"⟩

/-- The version after some events, as an `i64`. -/
def eventStreamVersion (eventCount : Nat) : CatgaResult Int :=
  if eventCount < 2 ^ 63 then .ok (eventCount - 1) else .error exhausted

/-- The version after some more events. -/
def checkedAppendedEventVersion (current : Int) (eventCount : Nat) : CatgaResult Int :=
  if eventCount < 2 ^ 63 ∧ current + eventCount < 2 ^ 63 then .ok (current + eventCount)
  else .error exhausted

/-- A call of `append`; `reserved` says whether the allocation succeeds. -/
structure Append (ι ε : Type) where
  stream : ι
  batch : List ε
  expected : Option Int
  reserved : Bool

/-- The checks of `MemoryEventStream::append`: the version before and after it. -/
def Append.check (call : Append ι ε) (stored : List ε) : CatgaResult (Int × Int) := do
  let version ← eventStreamVersion stored.length
  if call.expected.any (· ≠ version) then throw ⟨.conflict, "event stream version conflict"⟩
  let appended ← checkedAppendedEventVersion version call.batch.length
  if call.reserved then return (version, appended)
  throw ⟨.internal, "event stream allocation exceeds memory range"⟩

/-- The events that the loop of `MemoryEventStream::append` stores before it ends or fails. -/
def push (version : Int) : List ε → CatgaResult Unit × List ε
  | [] => (.ok (), [])
  | envelope :: later =>
    if version + 1 < 2 ^ 63 then
      let pushed := push (version + 1) later
      (pushed.1, envelope :: pushed.2)
    else (.error exhausted, [])

/-- `MemoryEventStream::append`: its answer, and the events it adds to those stored. -/
def Append.run (call : Append ι ε) (stored : List ε) : CatgaResult Int × List ε :=
  match call.check stored with
  | .error error => (.error error, [])
  | .ok (version, appended) =>
    let pushed := push version call.batch
    (pushed.1.map fun _ => appended, pushed.2)

/-- `MemoryEventStore::append`. -/
def appendExpected [DecidableEq ι] (store : EventStore ι ε) (call : Append ι ε) :
    CatgaResult Int × EventStore ι ε :=
  if call.batch.isEmpty then (eventStreamVersion (store.events call.stream).length, store)
  else
    let created := store.append call.stream []
    let run := call.run (created.events call.stream)
    (run.1, created.append call.stream run.2)

/-- No read tells two stores apart: a stream without events reads like one that is missing. -/
def Unseen [LinearOrder ι] (store after : EventStore ι ε) : Prop :=
  after.events = store.events ∧ ∀ cursor count, 0 < count → count ≤ maxEventStorePageSize →
    after.streamIdsPage cursor count = store.streamIdsPage cursor count

lemma push_eq {version : Int} {batch : List ε} (fits : version + batch.length < 2 ^ 63) :
    push version batch = (.ok (), batch) := by
  induction batch generalizing version with
  | nil => rfl
  | cons envelope later ih =>
    simp only [List.length_cons] at fits
    rw [push, if_pos (by omega), ih (by omega)]

/-- The checks leave room for the whole batch, so that the loop does not fail. -/
lemma run_of_error {call : Append ι ε} {stored error}
    (failed : (call.run stored).1 = .error error) :
    (call.run stored).2 = [] := by
  unfold Append.run at failed ⊢
  cases checked : call.check stored with
  | error => rfl
  | ok versions =>
    simp only [checked] at failed
    have fits : versions.1 + call.batch.length < 2 ^ 63 := by
      simp only [Append.check, checkedAppendedEventVersion, bind, Except.bind] at checked
      split at checked
      · cases checked
      · split_ifs at checked with conflict room
        cases checked
        exact room.2
    rw [push_eq fits] at failed
    cases failed

section

variable [DecidableEq ι] {store : EventStore ι ε}

lemma events_append_nil (stream : ι) : (store.append stream []).events = store.events := by
  funext other
  by_cases same : other = stream
  · subst same
    simp [append]
  · exact Function.update_of_ne same ..

lemma mem_ids_append (stream : ι) : stream ∈ (store.append stream []).ids := by
  simp only [append]
  split_ifs with listed
  · exact listed
  · exact List.mem_cons_self

lemma append_nil_of_mem {stream : ι} (listed : stream ∈ store.ids) :
    store.append stream [] = store := by
  have events : (store.append stream []).events = store.events := events_append_nil stream
  cases store
  simp_all [append]

lemma appendExpected_of_error {call : Append ι ε} {after error} (nonempty : call.batch ≠ [])
    (refused : store.appendExpected call = (.error error, after)) :
    after = store.append call.stream [] := by
  simp only [appendExpected, List.isEmpty_iff, nonempty, if_false, Prod.mk.injEq] at refused
  rw [← refused.2, run_of_error refused.1]
  exact append_nil_of_mem (mem_ids_append call.stream)

end

variable [LinearOrder ι]

lemma mem_of_mem_streamIdsPage {store : EventStore ι ε} {stream : ι} {cursor count}
    (shown : stream ∈ (store.streamIdsPage cursor count).ids) :
    stream ∈ store.ids ∧ cursor.all (· < stream) :=
  List.mem_filter.mp ((List.mem_insertionSort _).mp (List.mem_of_mem_take shown))

/-- A stream is on the page behind the last identifier before it. -/
lemma exists_streamIdsPage {store : EventStore ι ε} {stream : ι} (listed : stream ∈ store.ids) :
    ∃ cursor, stream ∈ (store.streamIdsPage cursor 1).ids := by
  have next : ∀ cursor, ∀ other ∈ (store.streamIdsPage cursor 1).nextStreamId,
      other ∈ store.ids ∧ cursor.all (· < other) := by
    intro cursor other last
    simp only [streamIdsPage, Option.mem_def] at last
    split_ifs at last
    exact mem_of_mem_streamIdsPage (List.mem_of_getLast? last)
  cases last : (store.ids.filter (· < stream)).maximum with
  | bot =>
    have first := List.filter_eq_nil_iff.mp (List.maximum_eq_bot.mp last)
    refine ⟨none, mem_streamIdsPage listed (by simp) (fun other shown => ?_) one_pos⟩
    simpa using first other (next _ other shown).1
  | coe cursor =>
    obtain ⟨before, least⟩ := List.maximum_eq_coe_iff.mp last
    refine ⟨some cursor, mem_streamIdsPage listed (by simpa using (List.mem_filter.mp before).2)
      (fun other shown => ?_) one_pos⟩
    obtain ⟨known, behind⟩ := next _ other shown
    by_contra earlier
    have := least other (List.mem_filter.mpr ⟨known, by simpa using earlier⟩)
    exact absurd (of_decide_eq_true behind) (not_lt.mpr this)

/-- A refused append is not seen just when its stream exists or its batch is empty. -/
theorem refused_append_unseen (store after : EventStore ι ε) (call : Append ι ε)
    {error : CatgaError}
    (refused : store.appendExpected call = (.error error, after)) :
    store.Unseen after ↔ call.stream ∈ store.ids ∨ call.batch = [] := by
  by_cases empty : call.batch = []
  · simp only [appendExpected, empty, List.isEmpty_nil, if_true, Prod.mk.injEq] at refused
    rw [← refused.2]
    exact iff_of_true ⟨rfl, fun _ _ _ _ => rfl⟩ (.inr empty)
  · obtain rfl := appendExpected_of_error empty refused
    simp only [empty, or_false]
    constructor
    · rintro ⟨-, pages⟩
      obtain ⟨cursor, shown⟩ : ∃ cursor, call.stream ∈
          ((store.append call.stream []).streamIdsPage cursor 1).ids :=
        exists_streamIdsPage (mem_ids_append call.stream)
      rw [pages cursor 1 (by decide) (by decide)] at shown
      exact (mem_of_mem_streamIdsPage shown).1
    · intro listed
      rw [append_nil_of_mem listed]
      exact ⟨rfl, fun _ _ _ _ => rfl⟩

/-- An append that expects a version which no stream has yet. -/
def early : Append String Unit := ⟨"orders", [()], some 5, true⟩

theorem early_append_unseen :
    (empty.append "orders" [()]).Unseen ((empty.append "orders" [()]).appendExpected early).2 :=
  (refused_append_unseen _ _ early rfl).mpr (.inl (by decide))

/-- On a new stream the append is refused as well, and the stream is listed. -/
theorem early_append_listed :
    (empty.appendExpected early).1 = .error ⟨.conflict, "event stream version conflict"⟩ ∧
      ((empty.appendExpected early).2.streamIdsPage none 8).ids = ["orders"] ∧
      ((empty : EventStore String Unit).streamIdsPage none 8).ids = [] :=
  ⟨rfl, rfl, rfl⟩

end Catga.Projection.EventStore
