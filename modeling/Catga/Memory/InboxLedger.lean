import Catga.Memory.Inbox

/-!
# What holds of an inbox

The store of an inbox satisfies an invariant that ties the words of each record to the history: who
claimed last, what is retained and when it was listed.  Every change of the store keeps the
invariant, and touches one message only.
-/

namespace Catga.Memory

open History Function

section

variable (messageId : Nat)

def Event.claimOf : Event → Option Ticket
  | .claimed ticket => if ticket.claim.messageId = messageId then some ticket else none
  | _ => none

def lastClaim (history : List Event) : Option Ticket := last (Event.claimOf messageId) history

/-- A completion whose record is retained. -/
structure Kept where
  result : Option Bytes
  stampedAt : Option Nat

/-- What an event changes about the retained completion of a message. -/
def Event.keep (kept : Option Kept) : Event → Option Kept
  | .completed ticket result =>
    if ticket.claim.messageId = messageId then some ⟨result, none⟩ else kept
  | .stamped own completedAt =>
    if own = messageId then kept.map ({ · with stampedAt := some completedAt }) else kept
  | .removed own _ _ _ => if own = messageId then none else kept
  | _ => kept

def retained (history : List Event) : Option Kept := history.foldl (Event.keep messageId) none

end

/-- A claim is completed or failed only while no later claim of its message has been returned. -/
def fencing (before : List Event) : Event → Prop
  | .completed ticket _ | .failed ticket => lastClaim ticket.claim.messageId before = some ticket
  | _ => True

/-- A message is completed once and then retained: its result is returned, and it is completed again
only after a cleanup found it listed for longer than the retention. -/
def retaining (before : List Event) : Event → Prop
  | .completed ticket _ => retained ticket.claim.messageId before = none
  | .removed messageId completedAt now retention =>
    retention ≤ now - completedAt ∧
      ∃ result, retained messageId before = some ⟨result, some completedAt⟩
  | .observed messageId since result =>
    ∀ kept, retained messageId (before.take since) = some kept → result = kept.result
  | _ => True

def law (fenced : Prop) (before : List Event) (event : Event) : Prop :=
  (fenced → fencing before event) ∧ retaining before event

def Event.messageId : Event → Nat
  | .claimed ticket | .completed ticket _ | .failed ticket => ticket.claim.messageId
  | .stamped messageId _ | .removed messageId _ _ _ | .observed messageId _ _ => messageId

section

variable {messageId : Nat} {history : List Event} {event : Event} {ticket : Ticket}

lemma claimOf_eq_some (found : event.claimOf messageId = some ticket) :
    event = .claimed ticket ∧ ticket.claim.messageId = messageId := by
  cases event with
  | claimed own =>
    simp only [Event.claimOf] at found
    split at found <;> cases found
    rename_i same
    exact ⟨rfl, same⟩
  | _ => cases found

lemma mem_of_lastClaim (found : lastClaim messageId history = some ticket) :
    .claimed ticket ∈ history ∧ ticket.claim.messageId = messageId := by
  obtain ⟨event, listed, selected⟩ := mem_of_last found
  obtain ⟨rfl, same⟩ := claimOf_eq_some selected
  exact ⟨listed, same⟩

lemma lastClaim_concat_claimed (ticket) :
    lastClaim ticket.claim.messageId (history ++ [.claimed ticket]) = some ticket :=
  last_concat_of_some (by simp [Event.claimOf])

lemma lastClaim_concat (quiet : event.claimOf messageId = none) :
    lastClaim messageId (history ++ [event]) = lastClaim messageId history :=
  last_concat_of_none quiet

lemma claimOf_of_ne (other : event.messageId ≠ messageId) : event.claimOf messageId = none := by
  cases event with
  | claimed => exact if_neg other
  | _ => rfl

lemma keep_of_ne (other : event.messageId ≠ messageId) (kept) :
    event.keep messageId kept = kept := by
  cases event with
  | completed | stamped | removed => exact if_neg other
  | _ => rfl

lemma keep_removed_of_ne {own completedAt now retention} (other : own ≠ messageId)
    (kept) :
    Event.keep messageId kept (.removed own completedAt now retention) = kept := if_neg other

lemma keep_completed_of_ne {result} (other : ticket.claim.messageId ≠ messageId)
    (kept) :
    Event.keep messageId kept (.completed ticket result) = kept := if_neg other

end

namespace Store

def Latest (store : Store) (messageId identity generation : Nat) : Prop :=
  ∃ ticket, lastClaim messageId store.history = some ticket ∧ ticket.identity = identity ∧
    ticket.claim.generation = generation

/-- A completion is listed for an old record, or for the current one, at that time. -/
def Listed (store : Store) (messageId : Nat) (entry : CompletedRecord) : Prop :=
  entry.recordIdentity < store.nextIdentity ∧
    (store.index messageId = some entry.recordIdentity →
      ∃ result, retained messageId store.history = some ⟨result, some entry.completedAt⟩)

/-- What holds of every store. -/
structure Sound (fenced : Prop) (store : Store) : Prop where
  present : ∀ {messageId identity}, store.index messageId = some identity →
    ∃ record, store.records identity = some record ∧ record.messageId = messageId
  fresh : ∀ {identity record}, store.records identity = some record →
    identity < store.nextIdentity
  retired : ∀ {identity record}, store.records identity = some record →
    store.index record.messageId ≠ some identity → record.state = .completed
  latest : ∀ {identity record}, store.records identity = some record →
    store.index record.messageId = some identity → record.state ≠ .claiming →
    store.Latest record.messageId identity record.generation
  known : ∀ {ticket}, .claimed ticket ∈ store.history →
    ∃ record, store.records ticket.identity = some record ∧
      record.messageId = ticket.claim.messageId ∧ ticket.claim.generation ≤ record.generation
  distinct : ∀ {ticket other}, .claimed ticket ∈ store.history →
    .claimed other ∈ store.history → ticket.identity = other.identity →
    ticket.claim.generation = other.claim.generation → ticket = other
  unset : ∀ {identity record}, store.records identity = some record →
    record.state ≠ .completing → record.state ≠ .completed → record.result = none
  kept : ∀ {identity record}, store.records identity = some record →
    store.index record.messageId = some identity → record.state = .completed →
    ∃ kept, retained record.messageId store.history = some kept ∧ record.result = some kept.result
  unkept : ∀ {identity record}, store.records identity = some record →
    store.index record.messageId = some identity → record.state ≠ .completed →
    retained record.messageId store.history = none
  absent : ∀ {messageId}, store.index messageId = none →
    retained messageId store.history = none
  listed : ∀ {messageId entry},
    store.completed messageId = some entry → store.Listed messageId entry
  lawful : Lawful (law fenced) store.history

/-- A change is about one message. -/
structure Keeps (messageId : Nat) (store after : Store) : Prop where
  grows : store.history <+: after.history
  stays : ∀ {identity record}, store.records identity = some record →
    ∃ next, after.records identity = some next ∧ next.messageId = record.messageId ∧
      (record.state = .completed → next = record)
  apart : ∀ {identity record}, store.records identity = some record →
    record.messageId ≠ messageId → after.records identity = some record
  index : ∀ {other}, other ≠ messageId → after.index other = store.index other
  claims : ∀ {ticket}, .claimed ticket ∈ after.history →
    .claimed ticket ∈ store.history ∨ ticket.claim.messageId = messageId
  lastClaim : ∀ {other}, other ≠ messageId →
    lastClaim other after.history = lastClaim other store.history
  retained : ∀ {other}, other ≠ messageId →
    retained other after.history = retained other store.history
  listed : ∀ {other entry}, store.Listed other entry →
    after.Listed other entry

/-- Some call has taken the state of a record, or has yet to list its completion. -/
def Busy (store : Store) (identity : Nat) : Prop :=
  ∃ record, store.records identity = some record ∧
    store.index record.messageId = some identity ∧
    (record.state = .claiming ∨ record.state = .completing ∨
      ∃ result, retained record.messageId store.history = some ⟨result, none⟩)

end Store

lemma Store.sound_empty (fenced : Prop) : Store.empty.Sound fenced where
  present := fun found => by cases found
  fresh := fun found => by cases found
  retired := fun found => by cases found
  latest := fun found => by cases found
  known := fun listed => absurd listed List.not_mem_nil
  distinct := fun listed => absurd listed List.not_mem_nil
  unset := fun found => by cases found
  kept := fun found => by cases found
  unkept := fun found => by cases found
  absent := fun _ => rfl
  listed := fun found => by cases found
  lawful := .nil

namespace Store

section

variable {fenced : Prop} {store : Store} {identity : Nat} {record next : ClaimRecord}

variable {other own messageId : Nat} {held : ClaimRecord} {entry : Option CompletedRecord}
  {event : Event}

lemma put_eq_some (found : (store.put identity next).records other = some held) :
    (other = identity ∧ held = next) ∨ (other ≠ identity ∧ store.records other = some held) := by
  obtain ⟨rfl, ⟨⟩⟩ | elsewhere := Foundation.update_eq_some found
  · exact .inl ⟨rfl, rfl⟩
  · exact .inr elsewhere

@[simp] lemma put_self (store : Store) (identity : Nat) (record) :
    (store.put identity record).records identity = some record := update_self ..

lemma put_of_ne (store : Store) (record) (differs : other ≠ identity) :
    (store.put identity record).records other = store.records other := update_of_ne differs ..

lemma put_same (found : store.records identity = some record) :
    store.put identity record = store := by
  rw [put, ← found, update_eq_self]

lemma put_over (next : ClaimRecord) (found : store.records identity = some record)
    (message : next.messageId = record.messageId) (newer : record.generation ≤ next.generation)
    (at_other : store.records other = some held) :
    ∃ now, (store.put identity next).records other = some now ∧
      now.messageId = held.messageId ∧ held.generation ≤ now.generation := by
  by_cases same : other = identity
  · subst same
    cases found.symm.trans at_other
    exact ⟨next, put_self .., message, newer⟩
  · exact ⟨held, (put_of_ne store next same).trans at_other, rfl, le_rfl⟩

/-- New words of a record that is not completed. -/
structure Rewrites (store : Store) (identity : Nat) (record next : ClaimRecord) : Prop where
  found : store.records identity = some record
  indexed : store.index record.messageId = some identity
  unfinished : record.state ≠ .completed
  message : next.messageId = record.messageId
  generation : record.generation ≤ next.generation
  latest : next.state ≠ .claiming → store.Latest record.messageId identity next.generation
  unset : next.state ≠ .completing → next.result = none
  uncompleted : next.state ≠ .completed

lemma Sound.put (sound : store.Sound fenced) (rewrites : store.Rewrites identity record next) :
    (store.put identity next).Sound fenced where
  __ := sound
  present := by
    intro messageId other found
    obtain ⟨held, at_other, message⟩ := sound.present found
    obtain ⟨now, at_now, same, -⟩ :=
      put_over next rewrites.found rewrites.message rewrites.generation at_other
    exact ⟨now, at_now, same.trans message⟩
  fresh := by
    intro other held found
    obtain ⟨rfl, -⟩ | ⟨-, found⟩ := put_eq_some found
    · exact sound.fresh rewrites.found
    · exact sound.fresh found
  retired := by
    intro other held found outside
    obtain ⟨rfl, rfl⟩ | ⟨-, found⟩ := put_eq_some found
    · exact absurd (rewrites.message ▸ rewrites.indexed) outside
    · exact sound.retired found outside
  latest := by
    intro other held found indexed free
    obtain ⟨rfl, rfl⟩ | ⟨-, found⟩ := put_eq_some found
    · rw [rewrites.message]
      exact rewrites.latest free
    · exact sound.latest found indexed free
  known := by
    intro ticket listed
    obtain ⟨held, found, message, le⟩ := sound.known listed
    obtain ⟨now, at_now, same, newer⟩ :=
      put_over next rewrites.found rewrites.message rewrites.generation found
    exact ⟨now, at_now, same.trans message, le_trans le newer⟩
  unset := by
    intro other held found
    obtain ⟨rfl, rfl⟩ | ⟨-, found⟩ := put_eq_some found
    · exact fun free _ => rewrites.unset free
    · exact sound.unset found
  kept := by
    intro other held found indexed completed
    obtain ⟨rfl, rfl⟩ | ⟨-, found⟩ := put_eq_some found
    · exact absurd completed rewrites.uncompleted
    · exact sound.kept found indexed completed
  unkept := by
    intro other held found indexed unfinished
    obtain ⟨rfl, rfl⟩ | ⟨-, found⟩ := put_eq_some found
    · rw [rewrites.message]
      exact sound.unkept rewrites.found rewrites.indexed rewrites.unfinished
    · exact sound.unkept found indexed unfinished

lemma Keeps.refl (messageId : Nat) (store) : Keeps messageId store store where
  grows := List.prefix_refl _
  stays := fun found => ⟨_, found, rfl, fun _ => rfl⟩
  apart := fun found _ => found
  index := fun _ => rfl
  claims := .inl
  lastClaim := fun _ => rfl
  retained := fun _ => rfl
  listed := id

lemma Keeps.put (found : store.records identity = some record)
    (unfinished : record.state ≠ .completed) (message : next.messageId = record.messageId) :
    Keeps record.messageId store (store.put identity next) := by
  refine { Keeps.refl record.messageId store with stays := ?_, apart := ?_ }
  · intro other held at_other
    by_cases same : other = identity
    · subst same
      rw [found] at at_other
      cases at_other
      exact ⟨next, put_self .., message, fun completed => absurd completed unfinished⟩
    · exact ⟨held, by rw [put_of_ne _ _ same, at_other], rfl, fun _ => rfl⟩
  · intro other held at_other differs
    have elsewhere : other ≠ identity := by
      rintro rfl
      rw [found] at at_other
      cases at_other
      exact differs rfl
    rw [put_of_ne _ _ elsewhere, at_other]

/-- An event that may be noted. -/
structure Notes (fenced : Prop) (store : Store) (event : Event) : Prop where
  permitted : law fenced store.history event
  issue : ∀ ticket, event = .claimed ticket →
    ∃ record, store.records ticket.identity = some record ∧
      record.messageId = ticket.claim.messageId ∧ record.state = .claiming ∧
      store.index record.messageId = some ticket.identity ∧
      ticket.claim.generation ≤ record.generation ∧
      ∀ other, .claimed other ∈ store.history → other.identity = ticket.identity →
        other.claim.generation < ticket.claim.generation
  kept : ∀ {identity record kept},
    store.records identity = some record → store.index record.messageId = some identity →
    record.messageId = event.messageId → record.state = .completed →
    retained event.messageId store.history = some kept →
    ∃ next, event.keep event.messageId (some kept) = some next ∧ next.result = kept.result
  unkept : ∀ {identity record}, store.records identity = some record →
    store.index record.messageId = some identity → record.messageId = event.messageId →
    record.state ≠ .completed → event.keep event.messageId none = none
  absent : store.index event.messageId = none → event.keep event.messageId none = none
  dated : ∀ {identity result time},
    store.index event.messageId = some identity →
    retained event.messageId store.history = some ⟨result, some time⟩ →
    event.keep event.messageId (some ⟨result, some time⟩) = some ⟨result, some time⟩

lemma retained_log (store : Store) (event) (messageId : Nat) :
    retained messageId (store.log event).history =
      event.keep messageId (retained messageId store.history) := by
  simp [retained, Store.log]

lemma mem_log {event noted} :
    noted ∈ (store.log event).history ↔ noted ∈ store.history ∨ noted = event := by
  simp [log]

lemma Listed.log {entry} (listed : store.Listed messageId entry)
    (dated : ∀ {identity result time},
      store.index event.messageId = some identity →
      retained event.messageId store.history = some ⟨result, some time⟩ →
      event.keep event.messageId (some ⟨result, some time⟩) = some ⟨result, some time⟩) :
    (store.log event).Listed messageId entry := by
  refine ⟨listed.1, fun indexed => ?_⟩
  obtain ⟨result, held⟩ := listed.2 indexed
  refine ⟨result, ?_⟩
  rw [retained_log, held]
  by_cases same : event.messageId = messageId
  · subst same
    exact dated indexed held
  · exact keep_of_ne same _

lemma Sound.log (sound : store.Sound fenced) (notes : store.Notes fenced event) :
    (store.log event).Sound fenced where
  __ := sound
  latest := by
    intro other held found indexed free
    obtain ⟨ticket, last, same_identity, same_generation⟩ := sound.latest found indexed free
    refine ⟨ticket, ?_, same_identity, same_generation⟩
    refine (lastClaim_concat ?_).trans last
    -- a claim of this message would be on this record, which is being claimed then
    cases claims : event.claimOf held.messageId with
    | none => rfl
    | some claim =>
      obtain ⟨rfl, message⟩ := claimOf_eq_some claims
      obtain ⟨own, at_own, own_message, claiming, own_indexed, -⟩ := notes.issue claim rfl
      rw [own_message, message] at own_indexed
      cases own_indexed.symm.trans indexed
      cases at_own.symm.trans found
      exact absurd claiming free
  known := by
    intro ticket listed
    obtain listed | same := mem_log.mp listed
    · exact sound.known listed
    · obtain ⟨own, at_own, message, -, -, le, -⟩ := notes.issue ticket same.symm
      exact ⟨own, at_own, message, le⟩
  distinct := by
    intro ticket other listed other_listed same_identity same_generation
    obtain listed | same := mem_log.mp listed <;>
      obtain other_listed | other_same := mem_log.mp other_listed
    · exact sound.distinct listed other_listed same_identity same_generation
    · obtain ⟨-, -, -, -, -, -, fresh⟩ := notes.issue other other_same.symm
      exact absurd same_generation (Nat.ne_of_lt (fresh ticket listed same_identity))
    · obtain ⟨-, -, -, -, -, -, fresh⟩ := notes.issue ticket same.symm
      exact absurd same_generation.symm
        (Nat.ne_of_lt (fresh other other_listed same_identity.symm))
    · exact Event.claimed.inj (same.trans other_same.symm)
  kept := by
    intro other held found indexed completed
    obtain ⟨kept, retains, result⟩ := sound.kept found indexed completed
    rw [retained_log, retains]
    by_cases same : event.messageId = held.messageId
    · rw [← same] at retains ⊢
      obtain ⟨next, keeps, same_result⟩ := notes.kept found indexed same.symm completed retains
      exact ⟨next, keeps, by rw [result, same_result]⟩
    · exact ⟨kept, keep_of_ne same _, result⟩
  unkept := by
    intro other held found indexed unfinished
    rw [retained_log, sound.unkept found indexed unfinished]
    by_cases same : event.messageId = held.messageId
    · rw [← same]
      exact notes.unkept found indexed same.symm unfinished
    · exact keep_of_ne same _
  absent := by
    intro messageId missing
    rw [retained_log, sound.absent missing]
    by_cases same : event.messageId = messageId
    · subst same
      exact notes.absent missing
    · exact keep_of_ne same _
  listed := fun found => (sound.listed found).log notes.dated
  lawful := sound.lawful.concat notes.permitted

lemma Keeps.log (event) (own : event.messageId = messageId)
    (dated : ∀ {identity result time},
      store.index messageId = some identity →
      Memory.retained messageId store.history = some ⟨result, some time⟩ →
      event.keep messageId (some ⟨result, some time⟩) = some ⟨result, some time⟩) :
    Keeps messageId store (store.log event) where
  grows := List.prefix_append _ _
  stays := fun found => ⟨_, found, rfl, fun _ => rfl⟩
  apart := fun found _ => found
  index := fun _ => rfl
  claims := by
    intro ticket listed
    obtain listed | rfl := mem_log.mp listed
    · exact .inl listed
    · exact .inr own
  lastClaim := fun differs => lastClaim_concat (claimOf_of_ne (own ▸ differs.symm))
  retained := fun differs => (retained_log ..).trans (keep_of_ne (own ▸ differs.symm) _)
  listed := fun listed => listed.log (own ▸ dated)

lemma Keeps.quiet (messageId : Nat) (claimless : ∀ own, event.claimOf own = none)
    (keeps : ∀ own kept, event.keep own kept = kept) :
    Keeps messageId store (store.log event) where
  grows := List.prefix_append _ _
  stays := fun found => ⟨_, found, rfl, fun _ => rfl⟩
  apart := fun found _ => found
  index := fun _ => rfl
  claims := by
    intro ticket listed
    obtain listed | rfl := mem_log.mp listed
    · exact .inl listed
    · exact absurd (claimless ticket.claim.messageId) (by simp [Event.claimOf])
  lastClaim := fun _ => lastClaim_concat (claimless _)
  retained := fun _ => (retained_log ..).trans (keeps _ _)
  listed := fun listed => listed.log fun _ _ => keeps _ _

lemma Keeps.trans {middle after} (first : Keeps messageId store middle)
    (second : Keeps messageId middle after) : Keeps messageId store after where
  grows := first.grows.trans second.grows
  stays := by
    intro other held found
    obtain ⟨next, found, message, same⟩ := first.stays found
    obtain ⟨last, at_last, last_message, last_same⟩ := second.stays found
    refine ⟨last, at_last, last_message.trans message, fun completed => ?_⟩
    have unchanged := same completed
    exact (last_same (unchanged ▸ completed)).trans unchanged
  apart := fun found differs => second.apart (first.apart found differs) differs
  index := fun differs => (second.index differs).trans (first.index differs)
  claims := fun listed => (second.claims listed).elim first.claims .inr
  lastClaim := fun differs => (second.lastClaim differs).trans (first.lastClaim differs)
  retained := fun differs => (second.retained differs).trans (first.retained differs)
  listed := fun listed => second.listed (first.listed listed)

lemma Keeps.put_log (event) (found : store.records identity = some record)
    (unfinished : record.state ≠ .completed) (message : next.messageId = record.messageId)
    (own : event.messageId = record.messageId)
    (undated : ∀ result time,
      Memory.retained record.messageId store.history ≠ some ⟨result, some time⟩) :
    Keeps record.messageId store ((store.put identity next).log event) :=
  (Keeps.put found unfinished message).trans
    (.log event own fun _ held => absurd held (undated _ _))

lemma message_ne (indexed : store.index record.messageId = some identity)
    (message : own = record.messageId) (there : store.index held.messageId = some other)
    (differs : other ≠ identity) : own ≠ held.messageId := by
  intro same
  rw [← same, message, indexed] at there
  exact differs (Option.some.inj there).symm

lemma Sound.publish {ticket bytes} (sound : store.Sound fenced)
    (found : store.records identity = some record)
    (indexed : store.index record.messageId = some identity)
    (completing : record.state = .completing) (result : record.result = some bytes)
    (message : ticket.claim.messageId = record.messageId)
    (last : fenced → lastClaim ticket.claim.messageId store.history = some ticket) :
    ((store.put identity { record with state := .completed }).log
      (.completed ticket bytes)).Sound fenced where
  present := by
    intro own other there
    obtain ⟨held, at_other, held_message⟩ := sound.present there
    obtain ⟨now, at_now, same, -⟩ :=
      put_over { record with state := .completed } found rfl le_rfl at_other
    exact ⟨now, at_now, same.trans held_message⟩
  fresh := by
    intro other held at_other
    obtain ⟨rfl, -⟩ | ⟨-, at_other⟩ := put_eq_some at_other
    · exact sound.fresh found
    · exact sound.fresh at_other
  retired := by
    intro other held at_other outside
    obtain ⟨-, rfl⟩ | ⟨-, at_other⟩ := put_eq_some at_other
    · rfl
    · exact sound.retired at_other outside
  latest := by
    intro other held at_other there free
    obtain ⟨rfl, rfl⟩ | ⟨-, at_other⟩ := put_eq_some at_other
    · obtain ⟨own, last, rest⟩ := sound.latest found there (by simp [completing])
      exact ⟨own, (lastClaim_concat rfl).trans last, rest⟩
    · obtain ⟨own, last, rest⟩ := sound.latest at_other there free
      exact ⟨own, (lastClaim_concat rfl).trans last, rest⟩
  known := by
    intro own listed
    obtain ⟨held, at_own, held_message, le⟩ := sound.known ((mem_log.mp listed).resolve_right nofun)
    obtain ⟨now, at_now, same, newer⟩ :=
      put_over { record with state := .completed } found rfl le_rfl at_own
    exact ⟨now, at_now, same.trans held_message, le_trans le newer⟩
  distinct := fun listed other_listed =>
    sound.distinct ((mem_log.mp listed).resolve_right nofun)
      ((mem_log.mp other_listed).resolve_right nofun)
  unset := by
    intro other held at_other
    obtain ⟨-, rfl⟩ | ⟨-, at_other⟩ := put_eq_some at_other
    · exact fun _ done => absurd rfl done
    · exact sound.unset at_other
  kept := by
    intro other held at_other there completed
    rw [retained_log]
    obtain ⟨-, rfl⟩ | ⟨differs, at_other⟩ := put_eq_some at_other
    · exact ⟨⟨bytes, none⟩, if_pos message, result⟩
    · rw [keep_completed_of_ne (message_ne indexed message there differs)]
      exact sound.kept at_other there completed
  unkept := by
    intro other held at_other there unfinished
    rw [retained_log]
    obtain ⟨-, rfl⟩ | ⟨differs, at_other⟩ := put_eq_some at_other
    · exact absurd rfl unfinished
    · rw [keep_completed_of_ne (message_ne indexed message there differs)]
      exact sound.unkept at_other there unfinished
  absent := by
    intro own missing
    rw [retained_log, keep_completed_of_ne]
    · exact sound.absent missing
    · rintro rfl
      rw [message] at missing
      cases indexed.symm.trans missing
  listed := by
    intro own entry listed
    refine (sound.listed listed).log fun _ dated => ?_
    have unkept := sound.unkept found indexed (by simp [completing])
    rw [← message] at unkept
    cases unkept.symm.trans dated
  lawful := by
    refine sound.lawful.concat ⟨last, ?_⟩
    have unkept := sound.unkept found indexed (by simp [completing])
    rwa [← message] at unkept

lemma insert_eq_some (found : (store.insert next).records other = some held) :
    (other = store.nextIdentity ∧ held = next) ∨
      (other ≠ store.nextIdentity ∧ store.records other = some held) := put_eq_some found

lemma insert_index_cases (found : (store.insert next).index messageId = some other) :
    (messageId = next.messageId ∧ other = store.nextIdentity) ∨
      (messageId ≠ next.messageId ∧ store.index messageId = some other) := by
  obtain ⟨rfl, ⟨⟩⟩ | elsewhere := Foundation.update_eq_some found
  · exact .inl ⟨rfl, rfl⟩
  · exact .inr elsewhere

lemma insert_index_of_ne (differs : messageId ≠ next.messageId) :
    (store.insert next).index messageId = store.index messageId := update_of_ne differs ..

lemma insert_index_self : (store.insert next).index next.messageId = some store.nextIdentity :=
  update_self ..

lemma insert_of_found (sound : store.Sound fenced) (found : store.records identity = some record) :
    (store.insert next).records identity = some record := by
  have used := sound.fresh found
  exact (put_of_ne store next (Nat.ne_of_lt used)).trans found

lemma Keeps.insert (next : ClaimRecord) (sound : store.Sound fenced) :
    Keeps next.messageId store (store.insert next) :=
  { Keeps.refl next.messageId store with
    stays := fun found => ⟨_, insert_of_found sound found, rfl, fun _ => rfl⟩
    apart := fun found _ => insert_of_found sound found
    index := fun differs => insert_index_of_ne differs
    listed := by
      intro other entry listed
      refine ⟨Nat.lt_succ_of_lt listed.1, fun indexed => ?_⟩
      obtain ⟨-, same⟩ | ⟨-, indexed⟩ := insert_index_cases indexed
      · exact absurd same (Nat.ne_of_lt listed.1)
      · exact listed.2 indexed }

/-- A record of a message that has none, while it is being claimed. -/
lemma Sound.insert (next : ClaimRecord) (sound : store.Sound fenced)
    (missing : store.index next.messageId = none) (claiming : next.state = .claiming)
    (unset : next.result = none) : (store.insert next).Sound fenced where
  __ := sound
  present := by
    intro messageId other found
    obtain ⟨rfl, rfl⟩ | ⟨-, found⟩ := insert_index_cases found
    · exact ⟨next, update_self .., rfl⟩
    · obtain ⟨held, at_other, held_message⟩ := sound.present found
      exact ⟨held, insert_of_found sound at_other, held_message⟩
  fresh := by
    intro other held found
    obtain ⟨rfl, -⟩ | ⟨-, found⟩ := insert_eq_some found
    · exact Nat.lt_succ_self _
    · exact Nat.lt_succ_of_lt (sound.fresh found)
  retired := by
    intro other held found outside
    obtain ⟨rfl, rfl⟩ | ⟨-, found⟩ := insert_eq_some found
    · exact absurd insert_index_self outside
    · refine sound.retired found fun indexed => outside ?_
      refine (insert_index_of_ne ?_).trans indexed
      intro same
      rw [same, missing] at indexed
      cases indexed
  latest := by
    intro other held found indexed free
    obtain ⟨rfl, rfl⟩ | ⟨differs, found⟩ := insert_eq_some found
    · exact absurd claiming free
    · obtain ⟨-, same⟩ | ⟨-, indexed⟩ := insert_index_cases indexed
      · exact absurd same differs
      · exact sound.latest found indexed free
  known := by
    intro own listed
    obtain ⟨held, found, rest⟩ := sound.known listed
    exact ⟨held, insert_of_found sound found, rest⟩
  unset := by
    intro other held found
    obtain ⟨rfl, rfl⟩ | ⟨-, found⟩ := insert_eq_some found
    · exact fun _ _ => unset
    · exact sound.unset found
  kept := by
    intro other held found indexed completed
    obtain ⟨rfl, rfl⟩ | ⟨differs, found⟩ := insert_eq_some found
    · rw [claiming] at completed
      cases completed
    · obtain ⟨-, same⟩ | ⟨-, indexed⟩ := insert_index_cases indexed
      · exact absurd same differs
      · exact sound.kept found indexed completed
  unkept := by
    intro other held found indexed unfinished
    obtain ⟨rfl, rfl⟩ | ⟨differs, found⟩ := insert_eq_some found
    · exact sound.absent missing
    · obtain ⟨-, same⟩ | ⟨-, indexed⟩ := insert_index_cases indexed
      · exact absurd same differs
      · exact sound.unkept found indexed unfinished
  absent := by
    intro messageId none_there
    refine sound.absent ((insert_index_of_ne ?_).symm.trans none_there)
    rintro rfl
    exact absurd (insert_index_self.symm.trans none_there) nofun
  listed := fun found => (Keeps.insert next sound).listed (sound.listed found)

lemma remove_index_cases (found : (store.remove own).index messageId = some other) :
    messageId ≠ own ∧ store.index messageId = some other :=
  (Foundation.update_eq_some found).resolve_left nofun

lemma remove_index_of_ne (differs : messageId ≠ own) :
    (store.remove own).index messageId = store.index messageId := update_of_ne differs ..

lemma remove_index_self : (store.remove own).index own = none := update_self ..

lemma Keeps.remove (store) (messageId : Nat) :
    Keeps messageId store (store.remove messageId) :=
  { Keeps.refl messageId store with
    index := fun differs => remove_index_of_ne differs
    listed := fun listed => ⟨listed.1, fun indexed => listed.2 (remove_index_cases indexed).2⟩ }

lemma Sound.remove {completedAt now retention} (sound : store.Sound fenced)
    (found : store.records identity = some record) (completed : record.state = .completed)
    (indexed : store.index messageId = some identity)
    (permitted : law fenced store.history (.removed messageId completedAt now retention)) :
    ((store.remove messageId).log (.removed messageId completedAt now retention)).Sound fenced where
  __ := sound
  present := fun found => sound.present (remove_index_cases found).2
  retired := by
    intro other held at_other outside
    by_cases there : store.index held.messageId = some other
    · by_cases same : held.messageId = messageId
      · rw [same, indexed] at there
        cases there
        cases found.symm.trans at_other
        exact completed
      · exact absurd ((remove_index_of_ne same).trans there) outside
    · exact sound.retired at_other there
  latest := by
    intro other held at_other there free
    obtain ⟨-, there⟩ := remove_index_cases there
    obtain ⟨own, last, rest⟩ := sound.latest at_other there free
    exact ⟨own, (lastClaim_concat rfl).trans last, rest⟩
  known := fun listed => sound.known ((mem_log.mp listed).resolve_right nofun)
  distinct := fun listed other_listed =>
    sound.distinct ((mem_log.mp listed).resolve_right nofun)
      ((mem_log.mp other_listed).resolve_right nofun)
  kept := by
    intro other held at_other there held_completed
    obtain ⟨differs, there⟩ := remove_index_cases there
    rw [retained_log, keep_removed_of_ne differs.symm]
    exact sound.kept at_other there held_completed
  unkept := by
    intro other held at_other there unfinished
    obtain ⟨differs, there⟩ := remove_index_cases there
    rw [retained_log, keep_removed_of_ne differs.symm]
    exact sound.unkept at_other there unfinished
  absent := by
    intro other missing
    rw [retained_log]
    by_cases same : messageId = other
    · exact if_pos same
    · rw [keep_removed_of_ne same]
      exact sound.absent ((remove_index_of_ne (Ne.symm same)).symm.trans missing)
  listed := fun listed =>
    ((Keeps.remove store messageId).listed (sound.listed listed)).log fun there =>
      absurd (remove_index_self.symm.trans there) nofun
  lawful := sound.lawful.concat permitted

lemma Keeps.list (messageId : Nat) (store) (own : Nat) (entry : Option CompletedRecord) :
    Keeps messageId store (store.list own entry) := { Keeps.refl messageId store with }

lemma Sound.list (sound : store.Sound fenced)
    (listed : ∀ held, entry = some held → store.Listed messageId held) :
    (store.list messageId entry).Sound fenced :=
  { sound with
    listed := by
      intro other held found
      obtain ⟨rfl, same⟩ | ⟨-, found⟩ := Foundation.update_eq_some found
      · exact listed held same
      · exact sound.listed found }

end

end Store

end Catga.Memory
