import Catga.Memory.InboxLedger

/-!
# Fencing in the in-memory inbox

A message is completed once and its result is returned until a cleanup removes its record.  But the
generation of a claim is compared in one action and the state exchanged in a later one, and a record
made after a cleanup counts from one again: a claim is fenced only where the record exchanged is the
one it was made on and still has its generation.
-/

namespace Catga.Memory

open History Transition List Option Store Call

/-- Whether a record that is claimed is the one a claim was made on, at its generation. -/
def Store.current (store : Store) (ticket : Ticket) (identity : Nat) : Bool :=
  match store.records identity with
  | some record =>
    decide (record.state = .claimed →
      ticket.identity = identity ∧ ticket.claim.generation = record.generation)
  | none => true

/-- Where `complete` or `fail` exchanges the state of a record that is claimed, the record is the
one its claim was made on, at its generation. -/
def exact : Threads.Label Choice Empty Request → Threads.System Shared Call → Bool
  | .act index _, system =>
    match system.threads[index]? with
    | some (.completing ticket _ identity .exchange)
    | some (.failing ticket identity .exchange) => system.shared.store.current ticket identity
    | _ => true
  | _, _ => true

variable (store : Store) (messageId identity : Nat) (record : ClaimRecord)

def ClaimOp.Sound : ClaimOp → Prop
  | .load | .compare => True
  | .acquire state => state = .pending ∨ state = .claimed ∨ state = .failed
  | .number | .giveUp =>
    record.state = .claiming ∧ store.Latest messageId identity record.generation
  | .renumber generation => record.state = .claiming ∧ generation = record.generation + 1
  | .date generation | .confirm generation =>
    record.state = .claiming ∧ record.generation = generation ∧ 0 < generation ∧
      ∀ ticket, .claimed ticket ∈ store.history → ticket.identity = identity →
        ticket.claim.generation < generation

/-- What holds of a record while it is completed; where fencing is asked for, it is the record the
claim was made on. -/
def CompleteOp.Sound (fenced : Prop) (ticket : Ticket) (bytes : Option Bytes) (identity : Nat)
    (record : ClaimRecord) : CompleteOp → Prop
  | .check | .exchange => True
  | .keep =>
    record.state = .completing ∧ record.result = none ∧
      (fenced → ticket.identity = identity ∧ ticket.claim.generation = record.generation)
  | .publish =>
    record.state = .completing ∧ record.result = some bytes ∧
      (fenced → ticket.identity = identity ∧ ticket.claim.generation = record.generation)
  | .withdraw => False

/-- The record a call has looked up for a message. -/
def Store.Holds : Prop := store.records identity = some record ∧ record.messageId = messageId

def Store.Candidate (store : Store) (sweep : Sweep) (candidate : Nat × CompletedRecord) : Prop :=
  store.Listed candidate.1 candidate.2 ∧ sweep.retention ≤ sweep.now - candidate.2.completedAt

def Call.Sound (fenced : Prop) (store : Store) : Call → Prop
  | .claiming args identity op =>
    ∃ record, store.Holds args.messageId identity record ∧
      op.Sound store args.messageId identity record
  | .completing ticket bytes identity op =>
    .claimed ticket ∈ store.history ∧
      ∃ record, store.Holds ticket.claim.messageId identity record ∧
        op.Sound fenced ticket bytes identity record
  | .failing ticket identity _ =>
    .claimed ticket ∈ store.history ∧
      ∃ record, store.Holds ticket.claim.messageId identity record
  | .stamp ticket identity =>
    store.index ticket.claim.messageId = some identity ∧
      ∃ bytes, retained ticket.claim.messageId store.history = some ⟨bytes, none⟩
  | .reading messageId since identity op =>
    since ≤ store.history.length ∧
      ∃ record, store.Holds messageId identity record ∧
        (op = .read → record.state = .completed) ∧
        ∀ kept, retained messageId (store.history.take since) = some kept →
          record.state = .completed ∧ record.result = some kept.result
  | .collect sweep _ candidates | .remove sweep candidates _ =>
    ∀ candidate ∈ candidates, store.Candidate sweep candidate
  | .free sweep candidate candidates _ | .forget sweep candidate candidates _ =>
    ∀ other ∈ candidate :: candidates, store.Candidate sweep other
  | _ => True

/-- The record whose state a call has taken, or whose completion it has yet to list. -/
def Call.owns : Call → Option Nat
  | .claiming _ identity op => if op.busy then some identity else none
  | .completing _ _ identity op => if op.busy then some identity else none
  | .stamp _ identity => some identity
  | _ => none

section

variable {fenced : Prop} {store after : Store} {call next : Call} {messageId identity : Nat}
  {record : ClaimRecord}

lemma Store.Sound.indexed (sound : store.Sound fenced)
    (found : store.records identity = some record)
    (unfinished : record.state ≠ .completed) : store.index record.messageId = some identity := by
  by_contra outside
  exact unfinished (sound.retired found outside)

variable {ticket : Ticket} {sweep : Sweep} {candidate : Nat × CompletedRecord}
  {candidates : List (Nat × CompletedRecord)}

/-- A state that no call has taken and that is not completed. -/
lemma ClaimState.not_taken {state : ClaimState}
    (free : state = .pending ∨ state = .claimed ∨ state = .failed) :
    state ≠ .completed ∧ state ≠ .claiming ∧ state ≠ .completing := by
  rcases free with rfl | rfl | rfl <;> decide

lemma Store.Sound.not_busy (sound : store.Sound fenced)
    (found : store.records identity = some record)
    (free : record.state = .pending ∨ record.state = .claimed ∨ record.state = .failed) :
    ¬store.Busy identity := by
  rintro ⟨held, at_identity, indexed, taken⟩
  cases found.symm.trans at_identity
  obtain ⟨unfinished, not_claiming, not_completing⟩ := ClaimState.not_taken free
  rcases taken with claiming | completing | ⟨bytes, kept⟩
  · exact not_claiming claiming
  · exact not_completing completing
  · cases (sound.unkept found indexed unfinished).symm.trans kept

lemma Store.current_eq_true (found : store.records identity = some record)
    (claimed : record.state = .claimed) (current : store.current ticket identity = true) :
    ticket.identity = identity ∧ ticket.claim.generation = record.generation := by
  simp only [Store.current, found, decide_eq_true_eq] at current
  exact current claimed

lemma Call.Sound.busy (sound : store.Sound fenced) (holds : call.Sound fenced store)
    (owns : call.owns = some identity) : store.Busy identity := by
  cases call with
  | claiming args own op =>
    obtain ⟨record, ⟨found, -⟩, agrees⟩ := holds
    cases op with
    | load | compare | acquire => cases owns
    | _ =>
      cases owns
      have claiming : record.state = .claiming := agrees.1
      exact ⟨record, found, sound.indexed found (by simp [claiming]), .inl claiming⟩
  | completing ticket bytes own op =>
    obtain ⟨-, record, ⟨found, -⟩, agrees⟩ := holds
    cases op with
    | check | exchange => cases owns
    | withdraw => exact agrees.elim
    | _ =>
      cases owns
      have completing : record.state = .completing := agrees.1
      exact ⟨record, found, sound.indexed found (by simp [completing]), .inr (.inl completing)⟩
  | stamp =>
    cases owns
    obtain ⟨indexed, bytes, kept⟩ := holds
    obtain ⟨record, found, message⟩ := sound.present indexed
    rw [← message] at indexed kept
    exact ⟨record, found, indexed, .inr (.inr ⟨bytes, kept⟩)⟩
  | _ => cases owns

section

variable (keeps : store.Keeps messageId after)
include keeps

lemma ClaimOp.Sound.stable {op : ClaimOp} {own} (after_sound : after.Sound fenced)
    (found : after.records identity = some record) (message : record.messageId = own)
    (differs : own ≠ messageId) (agrees : op.Sound store own identity record) :
    op.Sound after own identity record := by
  have latest : store.Latest own identity record.generation →
      after.Latest own identity record.generation := by
    rintro ⟨ticket, last, rest⟩
    exact ⟨ticket, (keeps.lastClaim differs).trans last, rest⟩
  have earlier : ∀ {ticket}, .claimed ticket ∈ after.history →
      ticket.identity = identity → .claimed ticket ∈ store.history := by
    intro ticket listed same
    obtain listed | new := keeps.claims listed
    · exact listed
    · obtain ⟨held, at_identity, held_message, -⟩ := after_sound.known listed
      rw [same] at at_identity
      cases found.symm.trans at_identity
      exact absurd (message.symm.trans (held_message.trans new)) differs
  cases op with
  | load | compare => trivial
  | acquire => exact agrees
  | number | giveUp => exact ⟨agrees.1, latest agrees.2⟩
  | renumber => exact agrees
  | date | confirm =>
    obtain ⟨claiming, same, positive, fresh⟩ := agrees
    exact ⟨claiming, same, positive, fun ticket listed equal =>
      fresh ticket (earlier listed equal) equal⟩

lemma Store.Candidate.stable (holds : store.Candidate sweep candidate) :
    after.Candidate sweep candidate := ⟨keeps.listed holds.1, holds.2⟩

lemma Call.Sound.stable (after_sound : after.Sound fenced)
    (apart : ∀ {identity record}, call.owns = some identity →
      store.records identity = some record → record.messageId ≠ messageId)
    (present : ∀ {messageId identity}, store.index messageId = some identity →
      ∃ record, store.records identity = some record ∧ record.messageId = messageId)
    (holds : call.Sound fenced store) : call.Sound fenced after := by
  cases call with
  | claiming args identity op =>
    obtain ⟨record, ⟨found, message⟩, agrees⟩ := holds
    by_cases busy : op.busy = true
    · have differs := apart (if_pos busy) found
      have same := keeps.apart found differs
      exact ⟨record, ⟨same, message⟩, agrees.stable keeps after_sound same message
        (message ▸ differs)⟩
    · obtain ⟨next, at_identity, same_message, -⟩ := keeps.stays found
      refine ⟨next, ⟨at_identity, same_message.trans message⟩, ?_⟩
      cases op with
      | load | compare => trivial
      | acquire => exact agrees
      | _ => exact absurd rfl busy
  | completing ticket bytes identity op =>
    obtain ⟨issued, record, ⟨found, message⟩, agrees⟩ := holds
    refine ⟨keeps.grows.subset issued, ?_⟩
    by_cases busy : op.busy = true
    · have differs := apart (if_pos busy) found
      exact ⟨record, ⟨keeps.apart found differs, message⟩, agrees⟩
    · obtain ⟨next, at_identity, same_message, -⟩ := keeps.stays found
      refine ⟨next, ⟨at_identity, same_message.trans message⟩, ?_⟩
      cases op with
      | check | exchange => trivial
      | _ => exact absurd rfl busy
  | failing =>
    obtain ⟨issued, record, found, message⟩ := holds
    obtain ⟨next, at_identity, same_message, -⟩ := keeps.stays found
    exact ⟨keeps.grows.subset issued, next, at_identity, same_message.trans message⟩
  | stamp =>
    obtain ⟨indexed, bytes, kept⟩ := holds
    obtain ⟨record, found, message⟩ := present indexed
    have differs := apart rfl found
    rw [message] at differs
    exact ⟨(keeps.index differs).trans indexed, bytes, (keeps.retained differs).trans kept⟩
  | reading =>
    obtain ⟨within, record, ⟨found, message⟩, completed, result⟩ := holds
    obtain ⟨next, at_identity, same_message, same⟩ := keeps.stays found
    refine ⟨le_trans within keeps.grows.length_le, next,
      ⟨at_identity, same_message.trans message⟩, fun read => ?_, fun kept retains => ?_⟩
    · rw [same (completed read)]
      exact completed read
    · obtain ⟨more, grown⟩ := keeps.grows
      rw [← grown, take_append_of_le_length within] at retains
      have holds := result kept retains
      rw [same holds.1]
      exact holds
  | collect | remove =>
    exact fun candidate listed => (holds candidate listed).stable keeps
  | free | forget =>
    exact fun other listed => (holds other listed).stable keeps
  | _ => trivial

end

/-- What an action of a call does: it keeps what holds of the store and of the call, takes only what
is free, and changes at most a message whose record the call has taken or nobody has. -/
structure Moves (fenced : Prop) (store after : Store) (call next : Call) : Prop where
  sound : after.Sound fenced
  holds : next.Sound fenced after
  owns : ∀ {identity}, next.owns = some identity →
    call.owns = some identity ∨ ¬store.Busy identity
  others : (∀ messageId, store.Keeps messageId after) ∨ ∃ messageId, store.Keeps messageId after ∧
    ∀ {identity}, store.index messageId = some identity →
      call.owns = some identity ∨ ¬store.Busy identity

lemma Moves.silent (sound : store.Sound fenced) (holds : next.Sound fenced store)
    (owns : next.owns = call.owns ∨ next.owns = none := by exact .inr rfl) :
    Moves fenced store store call next where
  sound := sound
  holds := holds
  owns := by
    intro identity taken
    rcases owns with same | nothing
    · exact .inl (same ▸ taken)
    · cases nothing.symm.trans taken
  others := .inl fun messageId => .refl messageId store

lemma Moves.change (indexed : store.index record.messageId = some identity)
    (free : call.owns = some identity ∨ ¬store.Busy identity)
    (sound : after.Sound fenced) (holds : next.Sound fenced after)
    (owns : next.owns = some identity ∨ next.owns = none)
    (keeps : store.Keeps record.messageId after) : Moves fenced store after call next where
  sound := sound
  holds := holds
  owns := by
    intro other taken
    rcases owns with same | nothing
    · cases same.symm.trans taken
      exact free
    · cases nothing.symm.trans taken
  others := .inr ⟨record.messageId, keeps, fun there => by
    cases indexed.symm.trans there
    exact free⟩

lemma Store.Notes.quiet {event} (permitted : law fenced store.history event)
    (unclaimed : ∀ ticket, event ≠ .claimed ticket)
    (quiet : ∀ kept, event.keep event.messageId kept = kept) : store.Notes fenced event where
  permitted := permitted
  issue := fun ticket same => absurd same (unclaimed ticket)
  kept := fun _ _ _ _ _ => ⟨_, quiet _, rfl⟩
  unkept := fun _ _ _ _ => quiet _
  absent := fun _ => quiet _
  dated := fun _ _ => quiet _

section

variable (sound : store.Sound fenced) (found : store.records identity = some record)
include sound found

/-- New words of a record that is neither completed nor about to be. -/
lemma Store.Sound.rewrites (words : ClaimRecord) (not_completing : record.state ≠ .completing)
    (unfinished : record.state ≠ .completed) (message : words.messageId = record.messageId)
    (generation : record.generation ≤ words.generation) (result : words.result = record.result)
    (uncompleted : words.state ≠ .completed)
    (latest : words.state ≠ .claiming → store.Latest record.messageId identity words.generation) :
    store.Rewrites identity record words where
  found := found
  indexed := sound.indexed found unfinished
  unfinished := unfinished
  message := message
  generation := generation
  latest := latest
  unset := fun _ => result.trans (sound.unset found not_completing unfinished)
  uncompleted := uncompleted

/-- A claim is the first of its generation, and is noted while its record is still being claimed. -/
lemma Store.Sound.confirm (claiming : record.state = .claiming) (number : Nat)
    (fresh : ∀ other, .claimed other ∈ store.history → other.identity = identity →
      other.claim.generation < record.generation) :
    ((store.log (.claimed ⟨⟨record.messageId, record.generation⟩, identity, number⟩)).put identity
      { record with state := .claimed }).Sound fenced := by
  have unfinished : record.state ≠ .completed := by simp [claiming]
  let ticket : Ticket := ⟨⟨record.messageId, record.generation⟩, identity, number⟩
  have notes : store.Notes fenced (.claimed ticket) := by
    refine ⟨⟨fun _ => trivial, trivial⟩, fun own same => ?_, fun _ _ _ _ _ => ⟨_, rfl, rfl⟩,
      fun _ _ _ _ => rfl, fun _ => rfl, fun _ _ => rfl⟩
    obtain rfl := Event.claimed.inj same
    exact ⟨record, found, rfl, claiming, sound.indexed found unfinished, le_rfl, fresh⟩
  have noted := sound.log notes
  exact noted.put (noted.rewrites found { record with state := .claimed } (by simp [claiming])
    unfinished rfl le_rfl rfl (by simp) fun _ =>
      ⟨ticket, lastClaim_concat_claimed ticket, rfl, rfl⟩)

end

section

variable (store : Store) (messageId identity : Nat)

lemma claimResult_some {generation} (positive : 0 < generation) :
    claimResult store messageId identity (some generation) =
      (store.log (.claimed ⟨⟨messageId, generation⟩, identity, store.history.length⟩),
        .returned (.claim (.ok (some ⟨messageId, generation⟩)))) := by
  simp [claimResult, InboxClaim.new, Nat.ne_of_gt positive]

lemma claimResult_none :
    claimResult store messageId identity none = (store, .returned (.claim (.ok none))) := rfl

end

lemma moves_claiming (args) {op} (sound : store.Sound fenced)
    (found : store.records identity = some record)
    (holds : (claiming args identity op).Sound fenced store) :
    Moves fenced store (actClaiming store args identity op record).1
      (.claiming args identity op) (actClaiming store args identity op record).2 := by
  obtain ⟨own, expiresAt, now⟩ := args
  obtain ⟨held, ⟨at_identity, message⟩, agrees⟩ := holds
  cases found.symm.trans at_identity
  obtain rfl : record.messageId = own := message
  cases op with
  | load =>
    simp only [actClaiming, ClaimOp.act]
    cases state : record.state with
    | pending | failed =>
      simp only [put_same found]
      exact .silent sound ⟨record, ⟨found, rfl⟩, by simp [ClaimOp.Sound]⟩
    | claimed =>
      simp only [put_same found]
      exact .silent sound ⟨record, ⟨found, rfl⟩, trivial⟩
    | _ =>
      simp only [put_same found, claimResult_none]
      exact .silent sound trivial
  | compare =>
    simp only [actClaiming, ClaimOp.act]
    split_ifs with expired
    · simp only [put_same found]
      exact .silent sound ⟨record, ⟨found, rfl⟩, .inr (.inl rfl)⟩
    · simp only [put_same found, claimResult_none]
      exact .silent sound trivial
  | acquire state =>
    simp only [actClaiming, ClaimOp.act]
    split_ifs with same
    · subst same
      obtain ⟨unfinished, free, not_completing⟩ := ClaimState.not_taken agrees
      have indexed := sound.indexed found unfinished
      have latest := sound.latest found indexed free
      exact .change indexed (.inr (sound.not_busy found agrees))
        (sound.put (sound.rewrites found _ not_completing unfinished rfl le_rfl rfl (by simp)
          fun busy => absurd rfl busy))
        ⟨_, ⟨put_self .., rfl⟩, rfl, latest⟩ (.inl rfl)
        (.put found unfinished rfl)
    · simp only [put_same found]
      exact .silent sound ⟨record, ⟨found, rfl⟩, trivial⟩
  | number =>
    simp only [actClaiming, ClaimOp.act]
    split_ifs with room
    · simp only [put_same found]
      exact .silent sound ⟨record, ⟨found, rfl⟩, agrees.1, rfl⟩ (.inl rfl)
    · simp only [put_same found]
      exact .silent sound ⟨record, ⟨found, rfl⟩, agrees⟩ (.inl rfl)
  | renumber =>
    obtain ⟨claiming, rfl⟩ := agrees
    have unfinished : record.state ≠ .completed := by simp [claiming]
    refine .change (sound.indexed found unfinished) (.inl rfl)
      (sound.put (sound.rewrites found _ (by simp [claiming]) unfinished rfl (Nat.le_succ _) rfl
        unfinished fun free => absurd claiming free))
      ⟨_, ⟨put_self .., rfl⟩, claiming, rfl, Nat.succ_pos _, fun ticket listed same => ?_⟩
      (.inl rfl) (.put found unfinished rfl)
    obtain ⟨held, at_identity, -, le⟩ := sound.known listed
    rw [same] at at_identity
    cases found.symm.trans at_identity
    exact Nat.lt_succ_of_le le
  | date =>
    have claiming : record.state = .claiming := agrees.1
    have unfinished : record.state ≠ .completed := by simp [claiming]
    exact .change (sound.indexed found unfinished) (.inl rfl)
      (sound.put (sound.rewrites found _ (by simp [claiming]) unfinished rfl le_rfl rfl
        unfinished fun free => absurd claiming free))
      ⟨_, ⟨put_self .., rfl⟩, agrees⟩ (.inl rfl) (.put found unfinished rfl)
  | confirm =>
    obtain ⟨claiming, rfl, positive, fresh⟩ := agrees
    have unfinished : record.state ≠ .completed := by simp [claiming]
    simp only [actClaiming, ClaimOp.act, claimResult_some _ _ _ positive]
    have unkept := sound.unkept found (sound.indexed found unfinished) unfinished
    exact .change (sound.indexed found unfinished) (.inl rfl) (sound.confirm found claiming _ fresh)
      trivial (.inr rfl) (.put_log _ found unfinished rfl rfl (by simp [unkept]))
  | giveUp =>
    obtain ⟨claiming, latest⟩ := agrees
    have unfinished : record.state ≠ .completed := by simp [claiming]
    exact .change (sound.indexed found unfinished) (.inl rfl)
      (sound.put (sound.rewrites found _ (by simp [claiming]) unfinished rfl le_rfl rfl
        (by simp) fun _ => latest))
      trivial (.inr rfl) (.put found unfinished rfl)

section

variable (sound : store.Sound fenced) (found : store.records identity = some record)
include sound found

lemma Store.Sound.lastClaim_of_current (issued : .claimed ticket ∈ store.history)
    (indexed : store.index record.messageId = some identity) (free : record.state ≠ .claiming)
    (current : ticket.identity = identity ∧ ticket.claim.generation = record.generation) :
    lastClaim record.messageId store.history = some ticket := by
  obtain ⟨own, last, same_identity, same_generation⟩ := sound.latest found indexed free
  have listed := (mem_of_lastClaim last).1
  have same := sound.distinct listed issued (same_identity.trans current.1.symm)
    (same_generation.trans current.2.symm)
  rw [last, same]

lemma moves_completing (bytes) {op}
    (holds : (completing ticket bytes identity op).Sound fenced store)
    (current : fenced → op = .exchange → store.current ticket identity = true) :
    Moves fenced store (actCompleting store ticket bytes identity op record).1
      (.completing ticket bytes identity op)
      (actCompleting store ticket bytes identity op record).2 := by
  obtain ⟨issued, held, ⟨at_identity, message⟩, agrees⟩ := holds
  cases found.symm.trans at_identity
  cases op with
  | check =>
    simp only [actCompleting, CompleteOp.act]
    split_ifs with same
    · simp only [put_same found]
      exact .silent sound ⟨issued, record, ⟨found, message⟩, trivial⟩
    · simp only [put_same found]
      exact .silent sound trivial
  | exchange =>
    simp only [actCompleting, CompleteOp.act]
    split_ifs with claimed
    · have unfinished : record.state ≠ .completed := by simp [claimed]
      have indexed := sound.indexed found unfinished
      have latest := sound.latest found indexed (by simp [claimed])
      have unset := sound.unset found (by simp [claimed]) unfinished
      have own : fenced → ticket.identity = identity ∧
          ticket.claim.generation = record.generation :=
        fun asked => current_eq_true found claimed (current asked rfl)
      exact .change indexed (.inr (sound.not_busy found (.inr (.inl claimed))))
        (sound.put (sound.rewrites found _ (by simp [claimed]) unfinished rfl le_rfl rfl
          nofun fun _ => latest))
        ⟨issued, _, ⟨put_self .., message⟩, rfl, unset, own⟩
        (.inl rfl) (.put found unfinished rfl)
    · simp only [put_same found]
      exact .silent sound trivial
  | keep =>
    obtain ⟨completing, unset, own⟩ := agrees
    have unfinished : record.state ≠ .completed := by simp [completing]
    have indexed := sound.indexed found unfinished
    have latest := sound.latest found indexed (by simp [completing])
    simp only [actCompleting, CompleteOp.act, unset]
    exact .change indexed (.inl rfl)
      (sound.put
        { found, indexed, unfinished, message := rfl, generation := le_rfl,
          latest := fun _ => latest, unset := fun busy => absurd completing busy,
          uncompleted := unfinished })
      ⟨issued, _, ⟨put_self .., message⟩, completing, rfl, own⟩
      (.inl rfl) (.put found unfinished rfl)
  | publish =>
    obtain ⟨completing, result, own⟩ := agrees
    have unfinished : record.state ≠ .completed := by simp [completing]
    have indexed := sound.indexed found unfinished
    have unkept := sound.unkept found indexed unfinished
    have last : fenced → lastClaim ticket.claim.messageId store.history = some ticket :=
      fun asked => message ▸ sound.lastClaim_of_current found issued indexed
        (by simp [completing]) (own asked)
    have retains : retained ticket.claim.messageId
        ((store.put identity { record with state := .completed }).log
          (.completed ticket bytes)).history = some ⟨bytes, none⟩ :=
      (retained_log ..).trans (if_pos rfl)
    exact .change indexed (.inl rfl)
      (sound.publish found indexed completing result message.symm last)
      ⟨message ▸ indexed, bytes, retains⟩ (.inl rfl)
      (.put_log _ found unfinished rfl message.symm (by simp [unkept]))
  | withdraw => exact agrees.elim

lemma moves_failing {op}
    (holds : (failing ticket identity op).Sound fenced store)
    (current : fenced → op = .exchange → store.current ticket identity = true) :
    Moves fenced store (actFailing store ticket identity op record).1
      (.failing ticket identity op) (actFailing store ticket identity op record).2 := by
  obtain ⟨issued, held, at_identity, message⟩ := holds
  cases found.symm.trans at_identity
  cases op with
  | check =>
    simp only [actFailing, FailOp.act]
    split_ifs with same
    · simp only [put_same found]
      exact .silent sound ⟨issued, record, found, message⟩
    · simp only [put_same found]
      exact .silent sound trivial
  | exchange =>
    simp only [actFailing, FailOp.act]
    split_ifs with claimed
    · have unfinished : record.state ≠ .completed := by simp [claimed]
      have indexed := sound.indexed found unfinished
      have latest := sound.latest found indexed (by simp [claimed])
      have unkept := sound.unkept found indexed unfinished
      have last : fenced → lastClaim ticket.claim.messageId store.history = some ticket :=
        fun asked => message ▸ sound.lastClaim_of_current found issued indexed
          (by simp [claimed])
          (current_eq_true found claimed (current asked rfl))
      have stored := sound.put (sound.rewrites found { record with state := .failed }
        (by simp [claimed]) unfinished rfl le_rfl rfl nofun fun _ => latest)
      have noted : Store.Notes fenced (store.put identity { record with state := .failed })
          (.failed ticket) := .quiet ⟨last, trivial⟩ nofun fun _ => rfl
      exact .change indexed (.inr (sound.not_busy found (.inr (.inl claimed))))
        (stored.log noted) trivial (.inr rfl)
        (.put_log _ found unfinished rfl message.symm (by simp [unkept]))
    · simp only [put_same found]
      exact .silent sound trivial

end

section

variable (sound : store.Sound fenced)
include sound

lemma Moves.observe (call outcome) {since result}
    (faithful : ∀ kept, retained messageId (store.history.take since) = some kept →
      result = kept.result) :
    Moves fenced store (store.log (.observed messageId since result)) call (.returned outcome) where
  sound := sound.log (.quiet ⟨fun _ => trivial, faithful⟩ nofun fun _ => rfl)
  holds := trivial
  owns := nofun
  others := .inl fun own => .quiet own (fun _ => rfl) fun _ _ => rfl

lemma Store.Sound.completed_of_retained {kept}
    (found : store.records identity = some record) (message : record.messageId = messageId)
    (indexed : store.index messageId = some identity)
    (retains : retained messageId store.history = some kept) :
    record.state = .completed ∧ record.result = some kept.result := by
  subst message
  by_cases done : record.state = .completed
  · obtain ⟨own, own_retains, result⟩ := sound.kept found indexed done
    cases own_retains.symm.trans retains
    exact ⟨done, result⟩
  · cases (sound.unkept found indexed done).symm.trans retains

lemma moves_reading {since op} (found : store.records identity = some record)
    (holds : (reading messageId since identity op).Sound fenced store) :
    Moves fenced store (actReading store messageId since identity op record).1
      (.reading messageId since identity op)
      (actReading store messageId since identity op record).2 := by
  obtain ⟨within, held, ⟨at_identity, message⟩, completed, result⟩ := holds
  cases found.symm.trans at_identity
  cases op with
  | peek =>
    simp only [actReading, ReadOp.act]
    split_ifs with done
    · exact .silent sound ⟨within, record, ⟨found, message⟩, fun _ => done, result⟩
    · exact .observe sound _ _ fun kept retains => absurd (result kept retains).1 done
  | read =>
    refine .observe sound _ _ fun kept retains => ?_
    rw [(result kept retains).2]
    rfl

end

lemma moves_stamp (completedAt : Nat) (sound : store.Sound fenced)
    (holds : (stamp ticket identity).Sound fenced store) (outcome) :
    Moves fenced store
      ((store.list ticket.claim.messageId (some ⟨completedAt, identity⟩)).log
        (.stamped ticket.claim.messageId completedAt))
      (.stamp ticket identity) (.returned outcome) := by
  obtain ⟨indexed, bytes, kept⟩ := holds
  obtain ⟨record, found, message⟩ := sound.present indexed
  have notes : store.Notes fenced (.stamped ticket.claim.messageId completedAt) :=
    { permitted := ⟨fun _ => trivial, trivial⟩
      issue := nofun
      kept := fun _ _ _ _ _ => ⟨_, if_pos rfl, rfl⟩
      unkept := fun _ _ _ _ => if_pos rfl
      absent := fun _ => if_pos rfl
      dated := fun _ dated => by cases kept.symm.trans dated }
  have noted := sound.log notes
  have listed : (store.log (.stamped ticket.claim.messageId completedAt)).Listed
      ticket.claim.messageId ⟨completedAt, identity⟩ := by
    refine ⟨sound.fresh found, fun _ => ⟨bytes, ?_⟩⟩
    rw [retained_log, kept]
    exact if_pos rfl
  refine .change (message.symm ▸ indexed) (.inl rfl)
    (noted.list fun entry same => Option.some.inj same ▸ listed) trivial (.inr rfl) ?_
  rw [message]
  exact (Store.Keeps.list _ store _ _).trans
    (.log _ rfl fun _ dated => by cases kept.symm.trans dated)

lemma moves_remove {removed} (sound : store.Sound fenced)
    (holds : (remove sweep (candidate :: candidates) removed).Sound fenced store) :
    Moves fenced store (actRemove store sweep candidate candidates removed).1
      (.remove sweep (candidate :: candidates) removed)
      (actRemove store sweep candidate candidates removed).2 := by
  obtain ⟨own, entry⟩ := candidate
  obtain ⟨listed, aged⟩ := holds (own, entry) mem_cons_self
  simp only [actRemove]
  split_ifs with matched
  · obtain ⟨indexed, completed⟩ := matched
    obtain ⟨record, found, done⟩ := map_eq_some_iff.mp completed
    rw [ClaimRecord.processingState_eq_completed] at done
    obtain ⟨result, kept⟩ := listed.2 indexed
    have message : record.messageId = own := by
      obtain ⟨held, at_identity, message⟩ := sound.present indexed
      cases found.symm.trans at_identity
      exact message
    have keeps := (Store.Keeps.remove store own).trans
      (.log (.removed own entry.completedAt sweep.now sweep.retention) rfl fun there =>
        absurd (remove_index_self.symm.trans there) nofun)
    refine .change (message.symm ▸ indexed) (.inr ?_)
      (sound.remove found done indexed ⟨fun _ => trivial, aged, result, kept⟩)
      (fun other other_listed => (holds other other_listed).stable keeps) (.inr rfl)
      (message.symm ▸ keeps)
    -- the completion has been listed, so nobody has yet to do so
    rintro ⟨held, at_identity, -, taken⟩
    cases found.symm.trans at_identity
    rcases taken with claiming | completing | ⟨bytes, unlisted⟩
    · cases done.symm.trans claiming
    · cases done.symm.trans completing
    · rw [message, kept] at unlisted
      cases unlisted
  · exact .silent sound holds

lemma moves_forget {removed} (sound : store.Sound fenced)
    (holds : (forget sweep candidate candidates removed).Sound fenced store) :
    Moves fenced store (actForget store candidate) (.forget sweep candidate candidates removed)
      (.remove sweep candidates removed) := by
  have rest : ∀ other ∈ candidates, store.Candidate sweep other :=
    fun other listed => holds other (mem_cons_of_mem _ listed)
  simp only [actForget]
  split
  · exact
      { sound := sound.list nofun
        holds := fun other listed =>
          (rest other listed).stable (.list candidate.1 store candidate.1 none)
        owns := nofun
        others := .inl fun messageId => .list messageId store candidate.1 none }
  · exact .silent sound rest

lemma moves_entry {shared} (args) (sound : shared.store.Sound fenced) :
    Moves fenced shared.store (actEntry shared args).1.store (.entry args)
      (actEntry shared args).2 := by
  simp only [actEntry]
  split
  · rename_i identity indexed
    obtain ⟨record, holds⟩ := sound.present indexed
    exact .silent sound ⟨record, holds, trivial⟩
  · rename_i missing
    split
    · rw [ClaimOp.alone_claimed]
      simp only [claimResult_some _ _ _ Nat.zero_lt_one]
      have claiming :=
        sound.insert ⟨args.messageId, .claiming, args.expiresAt, 1, none⟩ missing rfl rfl
      have inserted := claiming.confirm (Function.update_self ..) rfl shared.store.history.length
        fun other listed same => by
          obtain ⟨held, found, -⟩ := sound.known listed
          exact absurd same (Nat.ne_of_lt (sound.fresh found))
      simp only [Store.put, Store.log, Store.insert, Function.update_idem] at inserted
      refine ⟨inserted, trivial, (by intro _ owned; cases owned),
        .inr ⟨args.messageId, ?_, fun there => ?_⟩⟩
      · exact (Store.Keeps.insert ⟨args.messageId, .claimed, args.expiresAt, 1, none⟩ sound).trans
          (.log (.claimed _) rfl fun _ _ => rfl)
      · cases missing.symm.trans there
    · exact .silent sound trivial

/-- What holds of a call at its exchange, for fencing. -/
def Call.Current (store : Store) : Call → Prop
  | .completing ticket _ identity .exchange | .failing ticket identity .exchange =>
    store.current ticket identity = true
  | _ => True

lemma Store.ticketAt_eq_some {place} (found : store.ticketAt place = some ticket) :
    .claimed ticket ∈ store.history := by
  simp only [Store.ticketAt] at found
  split at found <;> cases found
  rename_i own listed
  exact mem_of_getElem? listed

lemma moves_act {inbox choice shared moved}
    (sound : shared.store.Sound fenced) (holds : call.Sound fenced shared.store)
    (current : fenced → call.Current shared.store)
    (acted : call.act inbox choice shared = some (moved, next)) :
    Moves fenced shared.store moved.store call next := by
  -- one goal for each equation of `Call.act`
  unfold act at acted
  split at acted
  · split at acted <;> cases acted <;> exact .silent sound trivial
  · cases acted
    exact .silent sound trivial
  · split at acted <;> cases acted
    · rename_i identity indexed
      obtain ⟨record, found⟩ := sound.present indexed
      exact .silent sound ⟨record, found, trivial⟩
    · exact .silent sound trivial
  · split_ifs at acted <;> cases acted <;> exact .silent sound trivial
  · rename_i args
    have moved_eq := Option.some.inj acted
    have moves : Moves fenced _ _ (.entry args) _ := moves_entry args sound
    rwa [moved_eq] at moves
  · rename_i args identity op
    obtain ⟨record, found, rest⟩ := bind_eq_some_iff.mp acted
    cases rest
    exact moves_claiming args sound found holds
  · obtain ⟨ticket, issued, rest⟩ := bind_eq_some_iff.mp acted
    split at rest <;> cases rest
    · exact .silent sound trivial
    · rename_i identity indexed
      obtain ⟨record, found⟩ := sound.present indexed
      exact .silent sound ⟨ticketAt_eq_some issued, record, found, trivial⟩
  · rename_i ticket bytes identity op
    obtain ⟨record, found, rest⟩ := bind_eq_some_iff.mp acted
    cases rest
    refine moves_completing sound found bytes holds fun asked exchanges => ?_
    subst exchanges
    exact current asked
  · cases acted
    exact moves_stamp _ sound holds _
  · obtain ⟨ticket, issued, rest⟩ := bind_eq_some_iff.mp acted
    split at rest <;> cases rest
    · exact .silent sound trivial
    · rename_i identity indexed
      obtain ⟨record, found⟩ := sound.present indexed
      exact .silent sound ⟨ticketAt_eq_some issued, record, found⟩
  · obtain ⟨record, found, rest⟩ := bind_eq_some_iff.mp acted
    cases rest
    refine moves_failing sound found holds fun asked exchanges => ?_
    subst exchanges
    exact current asked
  · split at acted <;> cases acted
    · rename_i missing
      refine .observe sound _ _ fun kept retains => ?_
      rw [take_length, sound.absent missing] at retains
      cases retains
    · rename_i identity indexed
      obtain ⟨record, found, message⟩ := sound.present indexed
      refine .silent sound
        ⟨le_rfl, record, ⟨found, message⟩, nofun, fun kept retains => ?_⟩ (.inr rfl)
      rw [take_length] at retains
      exact sound.completed_of_retained found message indexed retains
  · obtain ⟨record, found, rest⟩ := bind_eq_some_iff.mp acted
    cases rest
    exact moves_reading sound found holds
  · rename_i retention limit resume
    split at acted <;> cases acted
    · cases resume <;> exact .silent sound trivial
    · exact .silent sound (fun _ listed => absurd listed not_mem_nil)
  · obtain ⟨entry, listed, rest⟩ := bind_eq_some_iff.mp acted
    split at rest <;> cases rest
    · rename_i aged
      refine .silent sound (fun candidate candidate_listed => ?_)
      obtain earlier | same := mem_append.mp candidate_listed
      · exact holds candidate earlier
      · obtain rfl := mem_singleton.mp same
        exact ⟨sound.listed listed, aged⟩
    · exact .silent sound holds
  · cases acted
    exact .silent sound holds
  · cases acted
    simp only [cleaned]
    split <;> exact .silent sound trivial
  · cases acted
    exact moves_remove sound holds
  · cases acted
    exact .silent sound holds
  · cases acted
    exact moves_forget sound holds
  · cases acted

lemma Moves.other {bystander : Call} (moves : Moves fenced store after call next)
    (sound : store.Sound fenced) (holds : bystander.Sound fenced store)
    (apart : ∀ {identity}, call.owns = some identity → bystander.owns ≠ some identity) :
    bystander.Sound fenced after := by
  rcases moves.others with quiet | ⟨messageId, keeps, free⟩
  · cases owned : bystander.owns with
    | none =>
      refine holds.stable (quiet 0) moves.sound (fun owns => ?_) sound.present
      cases owned.symm.trans owns
    | some =>
      obtain ⟨record, found, -⟩ := holds.busy sound owned
      refine holds.stable (quiet (record.messageId + 1)) moves.sound ?_ sound.present
      intro own held owns at_own
      cases owned.symm.trans owns
      cases found.symm.trans at_own
      exact Nat.ne_of_lt (Nat.lt_succ_self _)
  · refine holds.stable keeps moves.sound ?_ sound.present
    rintro identity held owns found rfl
    have busy := holds.busy sound owns
    obtain ⟨record, at_identity, indexed, -⟩ := id busy
    cases found.symm.trans at_identity
    rcases free indexed with mine | not_busy
    · exact apart mine owns
    · exact not_busy busy

end

def outline (fenced : Prop) : Threads.Machine.Outline Shared Call where
  shared := fun shared => shared.store.Sound fenced
  thread := fun shared call => call.Sound fenced shared.store
  pair := fun one two => ∀ identity, one.owns = some identity → two.owns ≠ some identity

lemma current_of_exact {system index choice}
    {call} (admitted : exact (.act index choice) system = true)
    (here : system.threads[index]? = some call) : call.Current system.shared.store := by
  simp only [exact, here] at admitted
  cases call with
  | completing ticket bytes identity op =>
    cases op with
    | exchange => exact admitted
    | _ => trivial
  | failing ticket identity op =>
    cases op with
    | exchange => exact admitted
    | check => trivial
  | _ => trivial

/-- The outline is kept by every run, and with fencing by every run with exact exchanges. -/
lemma outline_valid (inbox : MemoryInbox) {fenced : Prop}
    {guard : Threads.Label Choice Empty Request → Threads.System Shared Call → Prop}
    (exactly : fenced → ∀ {label system}, guard label system → exact label system = true) :
    (outline fenced).Valid inbox.machine guard where
  own := by
    intro system index choice call next shared holds admitted here acted
    have moves := moves_act holds.shared (holds.thread here)
      (fun asked => current_of_exact (exactly asked admitted) here) acted
    exact ⟨moves.sound, moves.holds⟩
  other := by
    intro system index rival choice call next bystander shared holds admitted here acted
      differ there
    have moves := moves_act holds.shared (holds.thread here)
      (fun asked => current_of_exact (exactly asked admitted) here) acted
    have bystander_holds := holds.thread there
    have apart : ∀ identity, next.owns = some identity → bystander.owns ≠ some identity := by
      intro identity owns bystander_owns
      rcases moves.owns owns with mine | free
      · exact holds.pair differ.symm here there identity mine bystander_owns
      · exact free (bystander_holds.busy holds.shared bystander_owns)
    refine ⟨?_, apart, fun identity owns next_owns => apart identity next_owns owns⟩
    exact moves.other holds.shared bystander_holds fun mine =>
      holds.pair differ.symm here there _ mine
  env := by
    intro system event
    exact nomatch event
  enter := by
    intro system request holds admitted
    refine ⟨?_, fun there => ⟨?_, fun identity owns => ?_⟩⟩
    · cases request <;> trivial
    · intro identity owns
      cases request <;> cases owns
    · intro impossible
      cases request <;> cases impossible

/-- A message is completed once and its result retained until a cleanup removes it; where every
exchange of `complete` and `fail` is exact, a claim is settled only while no later claim of its
message has been returned. -/
theorem settled_while_current (inbox : MemoryInbox)
    (labels : List (Threads.Label Choice Empty Request)) (system : Threads.System Shared Call) :
    (Runs inbox.machine.step (fun _ _ => True) MemoryInbox.initial labels system →
      Lawful retaining system.shared.store.history) ∧
    (Runs inbox.machine.step (fun label before => exact label before = true) MemoryInbox.initial
        labels system →
      Lawful fencing system.shared.store.history) := by
  constructor
  · intro run
    have valid : (outline False).Valid inbox.machine fun _ _ => True :=
      outline_valid inbox False.elim
    have initial : (outline False).shared ⟨.empty, 0⟩ := sound_empty False
    have holds := valid.runs initial run
    exact holds.shared.lawful.mono And.right
  · intro run
    have valid : (outline True).Valid inbox.machine fun label before => exact label before = true :=
      outline_valid inbox fun _ _ _ admitted => admitted
    have initial : (outline True).shared ⟨.empty, 0⟩ := sound_empty True
    have holds := valid.runs initial run
    exact holds.shared.lawful.mono fun permitted => permitted.1 trivial

/-- A call of `try_claim_for` that makes a record. -/
def firstClaim (index : Nat) (now : Int) : List (Threads.Label Choice Empty Request) :=
  [.spawn (.tryClaimFor 7 1000000), .act index (.reading now), .act index (.reading now)] ++
    replicate 3 (.act index .go)

/-- A call of `try_claim_for` that takes over a claim. -/
def laterClaim (index : Nat) (now : Int) : List (Threads.Label Choice Empty Request) :=
  [.spawn (.tryClaimFor 7 1000000), .act index (.reading now), .act index (.reading now)] ++
    replicate 8 (.act index .go)

/-- A claim that expires between the two actions is completed after a later claim was returned; and
a claim of a removed record completes a later claim with the same generation. -/
theorem stale_claims_complete :
    (∃ labels system, Runs (MemoryInbox.machine ⟨1000000, 8⟩).step (fun _ _ => True)
      MemoryInbox.initial labels system ∧
      system.shared.store.history =
        [.claimed ⟨⟨7, 1⟩, 1, 0⟩, .claimed ⟨⟨7, 2⟩, 1, 1⟩, .completed ⟨⟨7, 1⟩, 1, 0⟩ (some [1])] ∧
      ¬Lawful fencing system.shared.store.history) ∧
    ∃ labels system, Runs (MemoryInbox.machine ⟨1000000, 8⟩).step (fun _ _ => True)
      MemoryInbox.initial labels system ∧
      system.shared.store.history =
        [.claimed ⟨⟨7, 1⟩, 1, 0⟩, .claimed ⟨⟨7, 2⟩, 1, 1⟩, .completed ⟨⟨7, 2⟩, 1, 1⟩ (some [2]),
          .stamped 7 5, .removed 7 5 9 1, .claimed ⟨⟨7, 1⟩, 2, 5⟩,
          .completed ⟨⟨7, 1⟩, 1, 0⟩ (some [1])] ∧
      ¬Lawful fencing system.shared.store.history := by
  constructor
  · refine ⟨firstClaim 0 0 ++ [.spawn (.complete 0 (some [1])), .act 1 .go, .act 1 .go] ++
      laterClaim 2 5 ++ replicate 3 (.act 1 .go),
      Runs.exists_and_of_execWhile (by decide) fun _ history lawful => ?_⟩
    have last : lastClaim 7 [.claimed ⟨⟨7, 1⟩, 1, 0⟩, .claimed ⟨⟨7, 2⟩, 1, 1⟩] =
        some ⟨⟨7, 1⟩, 1, 0⟩ := lawful _ (.completed ⟨⟨7, 1⟩, 1, 0⟩ (some [1])) [] history
    exact absurd last (by decide)
  · refine ⟨firstClaim 0 0 ++ laterClaim 1 5 ++ [.spawn (.complete 1 (some [2]))] ++
      replicate 5 (.act 2 .go) ++ [.act 2 (.reading 5)] ++
      [.spawn (.cleanupCompleted 1000000 1), .act 3 (.reading 9), .act 3 (.visit 7)] ++
      replicate 5 (.act 3 .go) ++ firstClaim 4 9 ++ [.spawn (.complete 0 (some [1]))] ++
      replicate 5 (.act 5 .go),
      Runs.exists_and_of_execWhile (by decide) fun _ history lawful => ?_⟩
    have last : lastClaim 7 [.claimed ⟨⟨7, 1⟩, 1, 0⟩, .claimed ⟨⟨7, 2⟩, 1, 1⟩,
        .completed ⟨⟨7, 2⟩, 1, 1⟩ (some [2]), .stamped 7 5, .removed 7 5 9 1,
        .claimed ⟨⟨7, 1⟩, 2, 5⟩] = some ⟨⟨7, 1⟩, 1, 0⟩ :=
      lawful _ (.completed ⟨⟨7, 1⟩, 1, 0⟩ (some [1])) [] history
    exact absurd last (by decide)

/-- `complete` or `fail` has returned an error. -/
def Call.refused : Call → Bool
  | .returned (.settled (.error _)) => true
  | _ => false

/-- A claim expires and is taken over.  Its former owner is refused, the later claim is completed,
and its result returned. -/
theorem claim_completes :
    ∃ labels system, Runs (MemoryInbox.machine ⟨1000000, 8⟩).step
      (fun label before => exact label before = true) MemoryInbox.initial labels system ∧
      (system.threads.map Call.refused = [false, false, true, false, false] ∧
        system.shared.store.history =
          [.claimed ⟨⟨7, 1⟩, 1, 0⟩, .claimed ⟨⟨7, 2⟩, 1, 1⟩, .completed ⟨⟨7, 2⟩, 1, 1⟩ (some [2]),
            .stamped 7 5, .observed 7 4 (some [2])]) ∧
      Lawful fencing system.shared.store.history ∧
      Lawful retaining system.shared.store.history := by
  refine ⟨firstClaim 0 0 ++ laterClaim 1 5 ++ [.spawn (.complete 0 (some [1]))] ++
    replicate 2 (.act 2 .go) ++ [.spawn (.complete 1 (some [2]))] ++ replicate 5 (.act 3 .go) ++
    [.act 3 (.reading 5), .spawn (.result 7)] ++ replicate 3 (.act 4 .go),
    Runs.exists_and_of_execWhile (by decide) fun run _ => ?_⟩
  exact ⟨(settled_while_current _ _ _).2 run,
    (settled_while_current _ _ _).1 (run.mono fun _ => trivial)⟩

end Catga.Memory
