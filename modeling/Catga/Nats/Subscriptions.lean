import Catga.Error
import Catga.Foundation.Revisions
import Catga.Foundation.Transition

/-!
# Persistent subscriptions in a key-value bucket

A subscription and its checkpoints are one record, written at the revision it was read with.  The
calls of a client run beside the map of subscriptions they stand for.  A deletion leaves a mark, but
`save` creates a record only under a key without any message: not after a deletion.
-/

namespace Catga.Nats

open Function Revisions Transition

structure PersistentSubscription where
  name : String
  streamPattern : String
  eventTypes : List String

structure StoredCheckpoint where
  streamId : String
  version : Int

structure SubscriptionCheckpoint extends StoredCheckpoint where
  subscriptionName : String

structure StoredSubscription extends PersistentSubscription where
  checkpoints : List StoredCheckpoint

/-- Replace the first checkpoint of the stream, or add one. -/
def setCheckpoint (checkpoint : StoredCheckpoint) : List StoredCheckpoint → List StoredCheckpoint
  | [] => [checkpoint]
  | existing :: rest =>
    if existing.streamId = checkpoint.streamId then checkpoint :: rest
    else existing :: setCheckpoint checkpoint rest

namespace StoredSubscription

variable (stored : StoredSubscription)

def saveCheckpoint (checkpoint : StoredCheckpoint) : StoredSubscription :=
  { stored with checkpoints := setCheckpoint checkpoint stored.checkpoints }

def checkpoint (streamId : String) : Option StoredCheckpoint :=
  stored.checkpoints.find? (·.streamId = streamId)

/-- The definition, and the checkpoints of its streams. -/
def contents : PersistentSubscription × (String → Option StoredCheckpoint) :=
  (stored.toPersistentSubscription, stored.checkpoint)

lemma checkpoint_saveCheckpoint (saved : StoredCheckpoint) :
    (stored.saveCheckpoint saved).checkpoint =
      update stored.checkpoint saved.streamId (some saved) := by
  obtain ⟨definition, checkpoints⟩ := stored
  funext streamId
  simp only [saveCheckpoint, update_apply, checkpoint]
  induction checkpoints with
  | nil => grind [setCheckpoint]
  | cons existing rest ih => grind [setCheckpoint]

end StoredSubscription

/-- The keys of the definitions, and the codec of their records with the envelope around them. -/
structure Records (κ β : Type) where
  definitionKey : String → κ
  encode : StoredSubscription → CatgaResult β
  decode : β → CatgaResult StoredSubscription

inductive Request where
  | save (subscription : PersistentSubscription)
  | load (name : String)
  | delete (name : String)
  | saveCheckpoint (checkpoint : SubscriptionCheckpoint)
  | loadCheckpoint (subscriptionName streamId : String)

inductive Answer where
  | done
  | subscription (found : Option PersistentSubscription)
  | checkpoint (found : Option SubscriptionCheckpoint)

def missing : CatgaError := ⟨.notFound, "NATS subscription does not exist"⟩

def casError (operation : String) : CatgaError :=
  ⟨.transient, "NATS subscription " ++ operation ++ " compare-and-set did not stabilize"⟩

/-- What a call returns, and what it leaves. -/
abbrev Reply (σ : Type) := CatgaResult Answer × σ

def maxCasRetries : Nat := 8

/-- Repeat an attempt that loses to another write. -/
def retry {σ : Type} (operation : String) (attempt : σ → CatgaResult (Option σ)) (store : σ) :
    Nat → Reply σ
  | 0 => (.error (casError operation), store)
  | retries + 1 =>
    match attempt store with
    | .error error => (.error error, store)
    | .ok (some after) => (.ok .done, after)
    | .ok none => retry operation attempt store retries

lemma retry_of_attempt {σ : Type} {operation store after}
    {attempt : σ → CatgaResult (Option σ)} (attempted : attempt store = .ok (some after)) :
    retry operation attempt store maxCasRetries = (.ok .done, after) := by
  simp [maxCasRetries, retry, attempted]

/-- The subscriptions by name, each with the checkpoints of its streams. -/
abbrev Subscriptions :=
  String → Option (PersistentSubscription × (String → Option StoredCheckpoint))

def Subscriptions.serve (held : Subscriptions) : Request → Reply Subscriptions
  | .save subscription =>
    let kept := ((held subscription.name).map (·.2)).getD fun _ => none
    (.ok .done, update held subscription.name (some (subscription, kept)))
  | .load name => (.ok (.subscription ((held name).map (·.1))), held)
  | .delete name => (.ok .done, update held name none)
  | .saveCheckpoint ⟨checkpoint, name⟩ =>
    match held name with
    | none => (.error missing, held)
    | some (subscription, kept) =>
      let kept := update kept checkpoint.streamId (some checkpoint)
      (.ok .done, update held name (some (subscription, kept)))
  | .loadCheckpoint name streamId =>
    (.ok (.checkpoint (((held name).bind (·.2 streamId)).map (⟨·, name⟩))), held)

/-- The bucket and the subscriptions it stands for, with the answers both gave. -/
structure Service (κ β : Type) where
  bucket : Bucket κ β
  held : Subscriptions
  answers : List (CatgaResult Answer × CatgaResult Answer)

def Service.init {κ β : Type} : Service κ β := ⟨⟨fun _ => none, 0⟩, fun _ => none, []⟩

namespace Records

variable {κ β : Type} [DecidableEq κ] (records : Records κ β) (bucket : Bucket κ β) (name : String)

/-- The record of a subscription that is not deleted, with its revision. -/
def read : CatgaResult (Option (Nat × StoredSubscription)) :=
  match bucket.entry (records.definitionKey name) with
  | none => .ok none
  | some entry => do return some (entry.1, ← records.decode entry.2)

/-- `compare_and_set`, and `create_subscription` where no revision is expected. -/
def compareAndSet (stored : StoredSubscription) (expected : Option Nat) :
    CatgaResult (Option (Bucket κ β)) :=
  (records.encode stored).map fun value =>
    bucket.write (records.definitionKey name) (some value) expected

def save (subscription : PersistentSubscription) : Reply (Bucket κ β) :=
  retry "save" (fun bucket => do
    match ← records.read bucket subscription.name with
    | none => records.compareAndSet bucket subscription.name ⟨subscription, []⟩ none
    | some (revision, stored) =>
      records.compareAndSet bucket subscription.name ⟨subscription, stored.checkpoints⟩
        (some revision)) bucket maxCasRetries

def load : CatgaResult Answer :=
  (records.read bucket name).map fun found =>
    .subscription (found.map (·.2.toPersistentSubscription))

/-- The lease is left out: nothing here acquires one. -/
def delete : Reply (Bucket κ β) :=
  retry "delete" (fun bucket =>
    match bucket.entry (records.definitionKey name) with
    | none => .ok (some bucket)
    | some entry => .ok (bucket.write (records.definitionKey name) none (some entry.1)))
    bucket maxCasRetries

def saveCheckpoint (checkpoint : SubscriptionCheckpoint) : Reply (Bucket κ β) :=
  retry "save checkpoint" (fun bucket => do
    match ← records.read bucket checkpoint.subscriptionName with
    | none => throw missing
    | some (revision, stored) =>
      records.compareAndSet bucket checkpoint.subscriptionName
        (stored.saveCheckpoint checkpoint.toStoredCheckpoint) (some revision)) bucket maxCasRetries

def loadCheckpoint (streamId : String) : CatgaResult Answer :=
  (records.read bucket name).map fun found =>
    .checkpoint ((found.bind (·.2.checkpoint streamId)).map (⟨·, name⟩))

def serve : Request → Reply (Bucket κ β)
  | .save subscription => records.save bucket subscription
  | .load name => (records.load bucket name, bucket)
  | .delete name => records.delete bucket name
  | .saveCheckpoint checkpoint => records.saveCheckpoint bucket checkpoint
  | .loadCheckpoint name streamId => (records.loadCheckpoint bucket name streamId, bucket)

def step (request : Request) (service : Service κ β) : Option (Service κ β) :=
  let (answer, bucket) := records.serve service.bucket request
  let (expected, held) := service.held.serve request
  some ⟨bucket, held, (answer, expected) :: service.answers⟩

/-- The codec gives the record back. -/
def Carries (stored : StoredSubscription) : Prop :=
  ∃ value, records.encode stored = .ok value ∧ records.decode value = .ok stored

/-- The codec gives back the record that a call stores, and none is stored over the mark of a
deletion. -/
def Admits : Request → Service κ β → Prop
  | .save subscription, ⟨bucket, _, _⟩ =>
    (∀ slot ∈ bucket.slot (records.definitionKey subscription.name), slot.value.isSome) ∧
      ∀ found, records.read bucket subscription.name = .ok found →
        records.Carries ⟨subscription, (found.map (·.2.checkpoints)).getD []⟩
  | .saveCheckpoint checkpoint, ⟨bucket, _, _⟩ =>
    ∀ found, records.read bucket checkpoint.subscriptionName = .ok (some found) →
      records.Carries (found.2.saveCheckpoint checkpoint.toStoredCheckpoint)
  | _, _ => True

/-- The bucket has the records of the subscriptions that are held, and no others. -/
def Stands (held : Subscriptions) : Prop :=
  ∀ name, ∃ found, records.read bucket name = .ok found ∧
    held name = found.map (·.2.contents)

/-- The bucket stands for the subscriptions, and both gave the same answers. -/
structure Agrees (service : Service κ β) : Prop where
  stands : records.Stands service.bucket service.held
  same : ∀ answer ∈ service.answers, answer.1 = answer.2

variable {records bucket name} {held : Subscriptions} {stored : StoredSubscription}
  {found : Option (Nat × StoredSubscription)}

omit [DecidableEq κ] in
lemma revision_of_read (read : records.read bucket name = .ok found)
    (unmarked : found = none →
      ∀ slot ∈ bucket.slot (records.definitionKey name), slot.value.isSome) :
    (bucket.slot (records.definitionKey name)).map (·.revision) = found.map (·.1) := by
  unfold Records.read at read
  split at read
  · cases read
    cases slot : bucket.slot (records.definitionKey name) with
    | none => rfl
    | some => simp_all [Bucket.entry]
  · rename_i entry here
    obtain ⟨stored, -, read⟩ := bind_eq_ok.mp read
    cases read
    exact Bucket.revision_of_entry here

section

variable (injective : Injective records.definitionKey)
include injective

lemma Stands.put (stands : records.Stands bucket held) {value}
    (here : records.read (bucket.put (records.definitionKey name) value) name = .ok found) :
    records.Stands (bucket.put (records.definitionKey name) value)
      (update held name (found.map (·.2.contents))) := by
  intro other
  by_cases same : other = name
  · subst same
    exact ⟨found, here, update_self ..⟩
  · simpa [Records.read, Bucket.entry_put, same, injective.ne same] using stands other

lemma Stands.compareAndSet (stands : records.Stands bucket held)
    (carried : records.Carries stored) {expected}
    (current : (bucket.slot (records.definitionKey name)).map (·.revision) = expected) :
    ∃ after, records.compareAndSet bucket name stored expected = .ok (some after) ∧
      records.Stands after (update held name (some stored.contents)) := by
  obtain ⟨value, encoded, decoded⟩ := carried
  have read : records.read (bucket.put (records.definitionKey name) (some value)) name =
      .ok (some (bucket.last + 1, stored)) := by
    simp [Records.read, Bucket.entry_put, decoded, bind, Except.bind, pure, Except.pure]
  refine ⟨_, ?_, stands.put injective read⟩
  simp [Records.compareAndSet, encoded, Bucket.write, current, Except.map]

lemma Stands.delete (stands : records.Stands bucket held) (name : String) :
    ∃ after, records.delete bucket name = (.ok .done, after) ∧
      records.Stands after (update held name none) := by
  cases here : bucket.entry (records.definitionKey name) with
  | none =>
    obtain ⟨found, read, same⟩ := stands name
    simp only [Records.read, here, Except.ok.injEq] at read
    subst read
    refine ⟨bucket, retry_of_attempt (by simp [here]), ?_⟩
    rwa [update_eq_self_iff.mpr same.symm]
  | some =>
    have read : records.read (bucket.put (records.definitionKey name) none) name = .ok none := by
      simp [Records.read, Bucket.entry_put]
    refine ⟨_, retry_of_attempt ?_, stands.put injective read⟩
    simp [here, Bucket.write, Bucket.revision_of_entry here]

lemma Agrees.step {before after request}
    (agrees : records.Agrees before) (admitted : records.Admits request before)
    (taken : records.step request before = some after) : records.Agrees after := by
  obtain ⟨stands, same⟩ := agrees
  suffices served : (records.serve before.bucket request).1 = (before.held.serve request).1 ∧
      records.Stands (records.serve before.bucket request).2 (before.held.serve request).2 by
    cases taken
    exact ⟨served.2, List.forall_mem_cons.mpr ⟨served.1, same⟩⟩
  cases request with
  | save subscription =>
    obtain ⟨unmarked, carried⟩ := admitted
    obtain ⟨found, read, same⟩ := stands subscription.name
    obtain ⟨after, written, stands⟩ :=
      stands.compareAndSet injective (carried found read) (revision_of_read read fun _ => unmarked)
    have saved : records.save before.bucket subscription = (.ok .done, after) := by
      refine retry_of_attempt ?_
      simp only [read]
      cases found <;> exact written
    simp only [serve, saved, Subscriptions.serve, same, true_and]
    cases found <;> exact stands
  | load name =>
    obtain ⟨found, read, same⟩ := stands name
    refine ⟨?_, stands⟩
    simp only [serve, load, Subscriptions.serve, read, same, Option.map_map]
    rfl
  | delete name =>
    obtain ⟨after, deleted, stands⟩ := stands.delete injective name
    simp only [serve, deleted]
    exact ⟨rfl, stands⟩
  | saveCheckpoint checkpoint =>
    obtain ⟨found, read, same⟩ := stands checkpoint.subscriptionName
    cases found with
    | none =>
      simp only [serve, saveCheckpoint, maxCasRetries, retry, read,
        Subscriptions.serve, same]
      exact ⟨rfl, stands⟩
    | some found =>
      obtain ⟨after, written, stands⟩ := stands.compareAndSet injective (admitted found read)
        (revision_of_read read (by simp))
      have saved : records.saveCheckpoint before.bucket checkpoint = (.ok .done, after) :=
        retry_of_attempt (by simp only [read]; exact written)
      rw [StoredSubscription.contents, StoredSubscription.checkpoint_saveCheckpoint] at stands
      simp only [serve, saved, Subscriptions.serve, same]
      exact ⟨rfl, stands⟩
  | loadCheckpoint name =>
    obtain ⟨found, read, same⟩ := stands name
    refine ⟨?_, stands⟩
    simp only [serve, loadCheckpoint, Subscriptions.serve, read, same]
    cases found <;> rfl

end

end Records

/-- Every call is answered as the map of subscriptions answers it, as long as no subscription is
saved again after it was deleted. -/
theorem answers_agree {κ β : Type} [DecidableEq κ] {records : Records κ β}
    (injective : Injective records.definitionKey) {requests : List Request} {service : Service κ β}
    (run : Runs records.step records.Admits .init requests service) :
    ∀ answer ∈ service.answers, answer.1 = answer.2 := by
  have agrees : records.Agrees service := run.invariant
    ⟨fun _ => ⟨none, rfl, rfl⟩, by simp [Service.init]⟩
    fun agrees admitted taken => agrees.step injective admitted taken
  exact agrees.same

/-- Records that are kept as they are, under their names. -/
def plain : Records String StoredSubscription := ⟨id, .ok, .ok⟩

def orders : PersistentSubscription := ⟨"orders", "order-*", []⟩

def untilDeletion : List Request :=
  [.save orders, .saveCheckpoint ⟨⟨"order-1", 7⟩, "orders"⟩, .save orders, .delete "orders"]

/-- A definition is saved again over its checkpoints, and deleted. -/
theorem answers_agree_until_deletion : ∃ service,
    Runs plain.step plain.Admits .init untilDeletion service ∧
      ∀ answer ∈ service.answers, answer.1 = answer.2 := by
  obtain ⟨service, run⟩ : ∃ service,
      Runs plain.step plain.Admits .init untilDeletion service := by
    refine ⟨_, .snoc (.snoc (.snoc (.snoc .nil ⟨?_, fun _ _ => ⟨_, rfl, rfl⟩⟩ rfl)
      (fun _ _ => ⟨_, rfl, rfl⟩) rfl) ⟨?_, fun _ _ => ⟨_, rfl, rfl⟩⟩ rfl) trivial rfl⟩
    all_goals
      rintro slot ⟨⟩
      try rfl
  exact ⟨service, run, answers_agree injective_id run⟩

/-- A subscription is not saved again after it was deleted. -/
theorem save_fails_after_deletion : ∃ requests service,
    Runs plain.step (fun _ _ => True) .init requests service ∧
      (.error (casError "save"), .ok .done) ∈ service.answers :=
  ⟨[.save orders, .delete "orders", .save orders], _,
    .snoc (.snoc (.snoc .nil trivial rfl) trivial rfl) trivial rfl, .head _⟩

end Catga.Nats
