import Catga.Error
import Catga.Foundation.Transition

/-!
# The event store on JetStream

A batch of events is one message of the stream's subject.  The broker does not store a message whose
identity it has seen lately, and the identity of a batch is taken from its bytes alone: a batch that
is appended twice is stored once.  Reading gives up after 1024 messages.
-/

namespace Catga.Nats

open Transition List

variable {ε π μ : Type}

/-- How batches of events are written, read back and identified. -/
structure EventCodec (ε π μ : Type) where
  encode : List ε → CatgaResult π
  decode : π → CatgaResult (List ε)
  /-- `append_message_id` on a subject; the versions play no part. -/
  appendMessageId : π → μ

/-- A stored message, with the events it was made from. -/
structure Message (ε π μ : Type) where
  version : Int
  batchCount : Nat
  payload : π
  messageId : μ
  events : List ε

/-- A subject of the broker, with the identities in its deduplication window. -/
structure Subject (ε π μ : Type) where
  messages : List (Message ε π μ)
  recent : List μ

open Subject

namespace Subject

def events (subject : Subject ε π μ) : List ε := subject.messages.flatMap (·.events)

def currentVersion (subject : Subject ε π μ) : Int :=
  (subject.messages.getLast?.map (·.version)).getD (-1)

variable [DecidableEq μ]

/-- A publish that expects the subject to have `last` messages; whether it is a duplicate. -/
def publish (subject : Subject ε π μ) (message : Message ε π μ) (last : Nat) :
    CatgaResult Bool × Subject ε π μ :=
  if message.messageId ∈ subject.recent then (.ok true, subject)
  else if last = subject.messages.length then
    (.ok false, ⟨subject.messages ++ [message], message.messageId :: subject.recent⟩)
  else (.error ⟨.conflict, "event stream version conflict"⟩, subject)

variable (codec : EventCodec ε π μ)

def attempt (events : List ε) (payload : π) (expected : Option Int) :
    Nat → Subject ε π μ → CatgaResult Int × Subject ε π μ
  | 0, subject => (.error
      ⟨.conflict, "event stream append contention exceeded the retry limit"⟩, subject)
  | tries + 1, subject =>
    if expected.any (· ≠ subject.currentVersion) then
      (.error ⟨.conflict, "event stream version conflict"⟩, subject)
    else
      let finalVersion := subject.currentVersion + events.length
      if 2 ^ 63 ≤ finalVersion then
        (.error ⟨.internal, "event stream version is exhausted"⟩, subject)
      else
        match subject.publish ⟨finalVersion, events.length, payload,
          codec.appendMessageId payload, events⟩ subject.messages.length with
        | (.ok true, after) =>
          (.ok ((after.messages.getLast?.map (·.version)).getD finalVersion), after)
        | (.ok false, after) => (.ok finalVersion, after)
        | (.error error, after) =>
          if expected.isNone && error.code = .conflict then
            attempt events payload expected tries after
          else (.error error, after)

def append (subject : Subject ε π μ) (events : List ε) (expected : Option Int) :
    CatgaResult Int × Subject ε π μ :=
  match events, codec.encode events with
  | [], _ => (.ok subject.currentVersion, subject)
  | _, .error error => (.error error, subject)
  | events, .ok payload =>
    attempt codec events payload expected (if expected.isNone then 64 else 1) subject

end Subject

/-- A subject, and the events of all appends that have succeeded. -/
structure History (ε π μ : Type) where
  subject : Subject ε π μ
  appended : List ε

inductive Label (ε μ : Type) where
  | append (events : List ε) (expected : Option Int)
  | forget (kept : List μ)

def History.empty : History ε π μ := ⟨⟨[], []⟩, []⟩

/-- Messages carry the version of their last event, the first one being at `start`. -/
def Numbered : Nat → List (Message ε π μ) → Prop
  | _, [] => True
  | start, message :: messages =>
    message.events ≠ [] ∧ message.batchCount = message.events.length ∧
      message.version + 1 = start + message.events.length ∧
      Numbered (start + message.events.length) messages

variable {codec : EventCodec ε π μ} {subject : Subject ε π μ} {events : List ε}
  {expected : Option Int} {messages : List (Message ε π μ)} {history after : History ε π μ}
  {labels : List (Label ε μ)} {message : Message ε π μ} {history : History ε π μ}
  {label : Label ε μ}

lemma numbered_concat {start} :
    Numbered start (messages ++ [message]) ↔ Numbered start messages ∧ message.events ≠ [] ∧
      message.batchCount = message.events.length ∧ message.version + 1 =
        start + (messages.flatMap (·.events)).length + message.events.length := by
  induction messages generalizing start with
  | nil => simp [Numbered]
  | cons first rest ih =>
    simp only [cons_append, Numbered, ih, flatMap_cons, length_append]
    push_cast
    constructor
    · rintro ⟨nonempty, count, version, numbered, nonempty', count', version'⟩
      exact ⟨⟨nonempty, count, version, numbered⟩, nonempty', count', by omega⟩
    · rintro ⟨⟨nonempty, count, version, numbered⟩, nonempty', count', version'⟩
      exact ⟨nonempty, count, version, numbered, nonempty', count', by omega⟩

lemma currentVersion_eq (numbered : Numbered 0 subject.messages) :
    subject.currentVersion + 1 = subject.events.length := by
  simp only [currentVersion, Subject.events]
  rcases eq_nil_or_concat' subject.messages with empty | ⟨messages, message, split⟩
  · simp [empty]
  · rw [split] at numbered ⊢
    have version := (numbered_concat.mp numbered).2.2.2
    simp only [getLast?_concat, Option.map_some, Option.getD_some, flatMap_append,
      flatMap_singleton, length_append]
    push_cast
    omega

section

variable [DecidableEq μ]

def step (codec : EventCodec ε π μ) : Label ε μ → History ε π μ → Option (History ε π μ)
  | .append events expected, history =>
    let appended := history.subject.append codec events expected
    some ⟨appended.2, match appended.1 with
      | .ok _ => history.appended ++ events
      | .error _ => history.appended⟩
  | .forget kept, history =>
    if ∀ id ∈ kept, id ∈ history.subject.recent then
      some { history with subject := { history.subject with recent := kept } }
    else none

section

variable (subject : Subject ε π μ) (codec : EventCodec ε π μ) (events : List ε)

def Subject.batch (payload : π) : Message ε π μ :=
  ⟨subject.currentVersion + events.length, events.length, payload, codec.appendMessageId payload,
    events⟩

/-- An append that is not refused before it publishes. -/
def Subject.Publishes (expected : Option Int) (payload : π) : Prop :=
  codec.encode events = .ok payload ∧ (∀ version ∈ expected, version = subject.currentVersion) ∧
    subject.currentVersion + events.length < 2 ^ 63

end

lemma append_cases (codec) (subject : Subject ε π μ) (expected : Option Int)
    (nonempty : events ≠ []) :
    (∃ error, subject.append codec events expected = (.error error, subject) ∧
      ∀ payload, ¬subject.Publishes codec events expected payload) ∨
    ∃ payload, subject.Publishes codec events expected payload ∧
      subject.append codec events expected =
        if codec.appendMessageId payload ∈ subject.recent then
          (.ok ((subject.messages.getLast?.map (·.version)).getD
            (subject.currentVersion + events.length)), subject)
        else (.ok (subject.currentVersion + events.length),
          ⟨subject.messages ++ [subject.batch codec events payload],
            codec.appendMessageId payload :: subject.recent⟩) := by
  obtain ⟨first, rest, rfl⟩ := exists_cons_of_ne_nil nonempty
  cases encoded : codec.encode (first :: rest) with
  | error error =>
    refine .inl ⟨error, by simp [append, encoded], fun payload publishes => ?_⟩
    rw [Subject.Publishes, encoded] at publishes
    cases publishes.1
  | ok payload =>
    obtain ⟨tries, enough⟩ : ∃ tries, (if expected.isNone then 64 else 1) = tries + 1 := by
      cases expected <;> exact ⟨_, rfl⟩
    simp only [append, encoded, enough, attempt]
    by_cases stale : expected.any (· ≠ subject.currentVersion) = true
    · refine .inl ⟨_, if_pos stale, fun _ publishes => ?_⟩
      cases expected with
      | none => cases stale
      | some version => exact of_decide_eq_true stale (publishes.2.1 version rfl)
    · by_cases full : (2 : Int) ^ 63 ≤ subject.currentVersion + (first :: rest).length
      · refine .inl ⟨_, (if_neg stale).trans (if_pos full), fun _ publishes => ?_⟩
        exact absurd publishes.2.2 (Int.not_lt.mpr full)
      · refine .inr ⟨payload, ⟨encoded, fun version same => ?_, Int.not_le.mp full⟩, ?_⟩
        · obtain rfl := Option.mem_def.mp same
          by_contra differs
          exact stale (decide_eq_true differs)
        · rw [if_neg stale, if_neg full]
          by_cases seen : codec.appendMessageId payload ∈ subject.recent
          · simp [publish, if_pos seen]
          · simp [publish, if_neg seen, batch]

lemma numbered_step (numbered : Numbered 0 history.subject.messages)
    (taken : step codec label history = some after) : Numbered 0 after.subject.messages := by
  cases label with
  | forget =>
    simp only [step] at taken
    split_ifs at taken
    cases taken
    exact numbered
  | append events expected =>
    cases taken
    cases events with
    | nil => exact numbered
    | cons first rest =>
      rcases append_cases codec history.subject expected
        (cons_ne_nil first rest) with ⟨error, refused, -⟩ | ⟨payload, -, done⟩
      · simp only [refused]
        exact numbered
      · simp only [done]
        split_ifs
        · exact numbered
        · refine numbered_concat.mpr ⟨numbered, cons_ne_nil _ _, rfl, ?_⟩
          have version := currentVersion_eq numbered
          simp only [batch, Subject.events] at version ⊢
          push_cast
          omega

lemma numbered_of_run {guard}
    (run : Runs (step codec) guard .empty labels history) :
    Numbered 0 history.subject.messages := by
  induction run with
  | nil => trivial
  | snoc _ _ taken numbered => exact numbered_step numbered taken

/-- In every run, whatever is refused, taken for a duplicate or forgotten, the events have the
versions from zero on, and the current version is that of the last event. -/
theorem versions_contiguous {labels : List (Label ε μ)} {history : History ε π μ}
    (run : Runs (step codec) (fun _ _ => True) .empty labels history) :
    Numbered 0 history.subject.messages ∧
      history.subject.currentVersion + 1 = history.subject.events.length := by
  have numbered := numbered_of_run run
  exact ⟨numbered, currentVersion_eq numbered⟩

/-- A successful append returns the version behind its events and has appended them, exactly if it
is refused or its batch is not in the deduplication window. -/
theorem append_reports_iff {labels : List (Label ε μ)} {history : History ε π μ}
    (run : Runs (step codec) (fun _ _ => True) .empty labels history) (events : List ε)
    (nonempty : events ≠ []) (expected : Int) :
    (∀ version after, history.subject.append codec events (some expected) = (.ok version, after) →
        version = expected + events.length ∧
          (after.events.drop (expected + 1).toNat).take events.length = events) ↔
      ∀ payload, history.subject.Publishes codec events (some expected) payload →
        codec.appendMessageId payload ∉ history.subject.recent := by
  have current := currentVersion_eq (numbered_of_run run)
  rcases append_cases codec history.subject (some expected) nonempty
    with ⟨error, refused, never⟩ | ⟨payload, publishes, done⟩
  · refine ⟨fun _ payload publishes => absurd publishes (never payload), ?_⟩
    intro _ version after ok
    rw [refused] at ok
    cases ok
  · have here := publishes.2.1 expected rfl
    constructor
    · intro reports other publishes' seen
      obtain rfl : payload = other := Except.ok.inj (publishes.1.symm.trans publishes'.1)
      rw [if_pos seen] at done
      have lost := (reports _ _ done).2
      rw [drop_of_length_le (by omega), take_nil] at lost
      exact nonempty lost.symm
    · intro fresh version after ok
      rw [done, if_neg (fresh payload publishes)] at ok
      cases ok
      refine ⟨by rw [here], ?_⟩
      have place : (expected + 1).toNat = history.subject.events.length := by omega
      rw [place]
      simp [Subject.events, Subject.batch]

end

def verbatim : EventCodec Nat (List Nat) (List Nat) := ⟨.ok, .ok, id⟩

/-- An event, then a batch of two. -/
def threeEvents : History Nat (List Nat) (List Nat) :=
  ⟨⟨[⟨0, 1, [7], [7], [7]⟩, ⟨2, 2, [8, 9], [8, 9], [8, 9]⟩], [[8, 9], [7]]⟩, [7, 8, 9]⟩

/-- The appends of `threeEvents`; a third one expects another version and is refused. -/
def threeAppends : List (Label Nat (List Nat)) :=
  [.append [7] (some (-1)), .append [8, 9] none, .append [6] (some 0)]

lemma threeEvents_run : Runs (step verbatim) (fun _ _ => True) .empty threeAppends threeEvents :=
  .snoc (.snoc (.snoc .nil trivial rfl) trivial rfl) trivial rfl

theorem versions_of_threeEvents : Numbered 0 threeEvents.subject.messages ∧
    threeEvents.subject.currentVersion + 1 = threeEvents.subject.events.length :=
  versions_contiguous threeEvents_run

theorem append_reports_other :
    threeEvents.subject.append verbatim [8] (some 2) = (.ok 3,
      ⟨threeEvents.subject.messages ++ [⟨3, 1, [8], [8], [8]⟩], [[8], [8, 9], [7]]⟩) ∧
    ∀ version after, threeEvents.subject.append verbatim [8] (some 2) = (.ok version, after) →
      version = 2 + [8].length ∧ (after.events.drop (2 + 1 : Int).toNat).take [8].length = [8] := by
  refine ⟨rfl, (append_reports_iff threeEvents_run [8] (by decide) 2).mpr ?_⟩
  rintro payload ⟨encoded, -⟩
  cases encoded
  decide

/-- The same event appended again, at the right version: the append succeeds with the version from
before, and nothing has been stored. -/
theorem repeated_append_lost : ∃ history,
    Runs (step verbatim) (fun _ _ => True) .empty [.append [7] (some (-1))] history ∧
      history.subject.append verbatim [7] (some 0) = (.ok 0, history.subject) ∧
      history.subject.events = [7] := ⟨_, .snoc .nil trivial rfl, rfl, rfl⟩

/-- Events with their versions, from `version` on. -/
def number : Int → List ε → List (Int × ε)
  | _, [] => []
  | version, event :: events => (version, event) :: number (version + 1) events

def decodeMessage (codec : EventCodec ε π μ) (message : Message ε π μ) :
    CatgaResult (List (Int × ε)) :=
  if message.batchCount = 0 then .error ⟨.internal, "JetStream event has an empty batch"⟩
  else match codec.decode message.payload with
    | .error error => .error error
    | .ok events =>
      if events.length ≠ message.batchCount then
        .error ⟨.internal, "JetStream event batch count does not match its payload"⟩
      else .ok (number (message.version - message.batchCount + 1) events)

/-- The loop of `entries_from`, with `fuel` messages left to scan. -/
def scan (codec : EventCodec ε π μ) (fromVersion : Int) (maxCount : Nat) :
    Nat → List (Message ε π μ) → List (Int × ε) → CatgaResult (List (Int × ε))
  | 0, _, _ =>
    .error ⟨.unavailable, "NATS event history scan limit reached before filling page"⟩
  | _ + 1, [], events => .ok events
  | fuel + 1, message :: messages, events =>
    match decodeMessage codec message with
    | .error error => .error error
    | .ok decoded =>
      let found := events ++ decoded.filter (fromVersion ≤ ·.1)
      if maxCount ≤ found.length then .ok (found.take maxCount)
      else scan codec fromVersion maxCount fuel messages found

def maxEventStoreHistoryScan : Nat := 1024

/-- A page of the stream, and the version the next page starts at. -/
def readPage (codec : EventCodec ε π μ) (subject : Subject ε π μ) (fromVersion maxCount : Nat) :
    CatgaResult (List (Int × ε) × Option Nat) :=
  if maxCount = 0 ∨ 1024 < maxCount then .error ⟨.validation,
    "event-store page size must be between 1 and MAX_EVENT_STORE_PAGE_SIZE"⟩
  else match scan codec (min fromVersion (2 ^ 63 - 1)) maxCount maxEventStoreHistoryScan
      subject.messages [] with
    | .error error => .error error
    | .ok events => .ok (events, events.getLast?.bind fun event =>
        if event.1 < subject.currentVersion then some (event.1 + 1).toNat else none)

variable (version : Int)

variable (count : Nat)

/-- What an append needs to be read back: its batch decodes to what was written, is not in the
deduplication window, and leaves the scan of the subject below its limit. -/
def Retained (codec : EventCodec ε π μ) : Label ε μ → History ε π μ → Prop
  | .append events expected, history => events ≠ [] → ∀ payload,
    history.subject.Publishes codec events expected payload →
      codec.decode payload = .ok events ∧ codec.appendMessageId payload ∉ history.subject.recent ∧
        history.subject.messages.length + 1 < maxEventStoreHistoryScan
  | .forget _, _ => True

section

variable [DecidableEq μ]

end

end Catga.Nats
