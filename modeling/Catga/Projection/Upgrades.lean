import Catga.Error
import Mathlib.Data.List.Sort

/-!
# Upgrading events

An event is upgraded one registered step after the other until no upgrader is registered for its
type and version.  A registered step raises the version, so no step is taken twice.  The loop is
bounded, and needs an iteration to see that the chain has ended.
-/

namespace Catga.EventVersion

open List

variable {π : Type}

/-- An envelope; the registry looks at its type and its schema version. -/
structure Envelope (π : Type) where
  messageType : String
  schemaVersion : Nat
  content : π
deriving DecidableEq

structure EventUpgrader (π : Type) where
  sourceType : String
  targetType : String
  sourceVersion : Nat
  targetVersion : Nat
  upgrade : Envelope π → CatgaResult (Envelope π)

def maxUpgradeSteps : Nat := 100

def validateUpgrader (upgrader : EventUpgrader π) : CatgaResult Unit :=
  if upgrader.sourceType = "" ∨ upgrader.targetType = "" then
    .error ⟨.validation, "event upgrader source and target types must not be empty"⟩
  else if upgrader.targetVersion ≤ upgrader.sourceVersion then
    .error ⟨.validation, "event upgrader target version must exceed its source version"⟩
  else .ok ()

/-- The upgraders of each source type; a type without an entry has none. -/
abbrev VersionRules (π : Type) := String → List (EventUpgrader π)

/-- `register`, at the exchange that succeeds. -/
def register (rules : VersionRules π) (upgrader : EventUpgrader π) :
    CatgaResult (VersionRules π) := do
  validateUpgrader upgrader
  let upgrades := rules upgrader.sourceType
  if upgrades.any (·.sourceVersion = upgrader.sourceVersion) then
    .error ⟨.conflict, "an event upgrader is already registered for this source type and version"⟩
  else .ok (Function.update rules upgrader.sourceType
    ((upgrades ++ [upgrader]).insertionSort (·.sourceVersion ≤ ·.sourceVersion)))

def upgraderOf (rules : VersionRules π) (event : Envelope π) : Option (EventUpgrader π) :=
  (rules event.messageType).find? (·.sourceVersion = event.schemaVersion)

/-- What the loop does with the upgrader that it has found. -/
def EventUpgrader.perform (upgrader : EventUpgrader π) (event : Envelope π) :
    CatgaResult (Envelope π) := do
  let upgraded ← upgrader.upgrade event
  if upgraded.messageType ≠ upgrader.targetType ∨
      upgraded.schemaVersion ≠ upgrader.targetVersion then
    .error ⟨.validation, "event upgrader output does not match its declared target schema"⟩
  else .ok upgraded

/-- The loop of `upgrade_to_latest`, with so many iterations left. -/
def upgradeWithin (rules : VersionRules π) : Nat → Envelope π → CatgaResult (Envelope π)
  | 0, _ => .error ⟨.validation, "event schema upgrade exceeded the maximum chain length"⟩
  | left + 1, event =>
    match upgraderOf rules event with
    | none => .ok event
    | some upgrader => do
      let upgraded ← upgrader.perform event
      upgradeWithin rules left upgraded

def upgradeToLatest (rules : VersionRules π) (event : Envelope π) : CatgaResult (Envelope π) :=
  upgradeWithin rules maxUpgradeSteps event

def EventUpgrader.Accepts (upgrader : EventUpgrader π) (event : Envelope π) : Prop :=
  upgrader.sourceType = event.messageType ∧ upgrader.sourceVersion = event.schemaVersion

/-- A chain of registered upgraders from an event: each accepts what the one before it has made, and
none accepts the last event. -/
def Leads (registered : List (EventUpgrader π)) (last : Envelope π) :
    List (EventUpgrader π) → Envelope π → Prop
  | [], event => event = last ∧ ∀ upgrader ∈ registered, ¬upgrader.Accepts event
  | upgrader :: chain, event => upgrader ∈ registered ∧ upgrader.Accepts event ∧
      ∃ next, upgrader.perform event = .ok next ∧ Leads registered last chain next

/-- The rules after the registrations. -/
structure Filled (registered : List (EventUpgrader π)) (rules : VersionRules π) : Prop where
  mem_iff : ∀ name upgrader, upgrader ∈ rules name ↔
    upgrader ∈ registered ∧ upgrader.sourceType = name
  unique : ∀ first ∈ registered, ∀ second ∈ registered, first.sourceType = second.sourceType →
    first.sourceVersion = second.sourceVersion → first = second
  raises : ∀ upgrader ∈ registered, upgrader.sourceVersion < upgrader.targetVersion

variable {registered later chain : List (EventUpgrader π)} {rules after : VersionRules π}
  {upgrader : EventUpgrader π} {event last : Envelope π}

lemma filled_empty : Filled ([] : List (EventUpgrader π)) fun _ => [] := ⟨by simp, by simp, by simp⟩

section

variable (filled : Filled registered rules)
include filled

lemma Filled.register (registers : register rules upgrader = .ok after) :
    Filled (registered ++ [upgrader]) after := by
  obtain ⟨⟨⟩, valid, registers⟩ := bind_eq_ok.mp registers
  unfold validateUpgrader at valid
  split_ifs at valid with unnamed lower
  dsimp only at registers
  split_ifs at registers with taken
  obtain rfl := Except.ok.inj registers
  have fresh : ∀ other ∈ registered, other.sourceType = upgrader.sourceType →
      other.sourceVersion ≠ upgrader.sourceVersion := by
    intro other mem same version
    have held := (filled.mem_iff upgrader.sourceType other).mpr ⟨mem, same⟩
    exact taken (any_eq_true.mpr ⟨other, held, decide_eq_true version⟩)
  obtain ⟨mem_iff, unique, raises⟩ := filled
  constructor
  case mem_iff =>
    intro name other
    by_cases here : name = upgrader.sourceType
    · simp only [here, Function.update_self, mem_insertionSort, mem_append, mem_iff, mem_singleton]
      grind
    · simp only [Function.update_of_ne here, mem_iff, mem_append, mem_singleton]
      grind
  all_goals
    simp only [mem_append, mem_singleton]
    grind

lemma Filled.registers (registers : later.foldlM EventVersion.register rules = .ok after) :
    Filled (registered ++ later) after := by
  induction later generalizing registered rules with
  | nil =>
    cases registers
    rwa [append_nil]
  | cons upgrader later ih =>
    obtain ⟨_, first, rest⟩ := bind_eq_ok.mp registers
    rw [append_cons]
    exact ih (filled.register first) rest

lemma Filled.upgraderOf_eq_some :
    upgraderOf rules event = some upgrader ↔ upgrader ∈ registered ∧ upgrader.Accepts event := by
  have found {other} (found : upgraderOf rules event = some other) :
      other ∈ registered ∧ other.Accepts event := by
    obtain ⟨mem, type⟩ := (filled.mem_iff ..).mp (mem_of_find?_eq_some found)
    have version := find?_some found
    exact ⟨mem, type, of_decide_eq_true version⟩
  refine ⟨found, fun ⟨mem, type, version⟩ => ?_⟩
  have listed := (filled.mem_iff ..).mpr ⟨mem, type⟩
  obtain ⟨other, first⟩ : ∃ other, upgraderOf rules event = some other :=
    Option.isSome_iff_exists.mp (find?_isSome.mpr ⟨upgrader, listed, decide_eq_true version⟩)
  obtain ⟨held, accepts⟩ := found first
  rw [first, filled.unique other held upgrader mem (accepts.1.trans type.symm)
    (accepts.2.trans version.symm)]

lemma Filled.upgradeWithin_eq_ok {left} : upgradeWithin rules left event = .ok last ↔
    ∃ chain, chain.length < left ∧ Leads registered last chain event := by
  induction left generalizing event with
  | zero => simp [upgradeWithin]
  | succ left ih =>
    simp only [upgradeWithin]
    cases found : upgraderOf rules event with
    | none =>
      have refused : ∀ upgrader ∈ registered, ¬upgrader.Accepts event := by
        intro upgrader mem accepts
        cases found.symm.trans (filled.upgraderOf_eq_some.mpr ⟨mem, accepts⟩)
      constructor
      · rintro ⟨⟩
        exact ⟨[], left.succ_pos, rfl, refused⟩
      · rintro ⟨_ | ⟨upgrader, chain⟩, -, leads⟩
        · exact congrArg _ leads.1
        · exact absurd leads.2.1 (refused upgrader leads.1)
    | some upgrader =>
      obtain ⟨mem, accepts⟩ := filled.upgraderOf_eq_some.mp found
      simp only [bind_eq_ok, ih]
      constructor
      · rintro ⟨next, performed, chain, short, leads⟩
        exact ⟨upgrader :: chain, Nat.succ_lt_succ short, mem, accepts, next, performed, leads⟩
      · rintro ⟨_ | ⟨other, chain⟩, short, leads⟩
        · exact absurd accepts (leads.2 upgrader mem)
        · obtain ⟨held, accepted, next, performed, leads⟩ := leads
          cases found.symm.trans (filled.upgraderOf_eq_some.mpr ⟨held, accepted⟩)
          exact ⟨next, performed, chain, Nat.lt_of_succ_lt_succ short, leads⟩

lemma Filled.increasing (leads : Leads registered last chain event) :
    chain.Pairwise (·.sourceVersion < ·.sourceVersion) ∧
      ∀ upgrader ∈ chain, event.schemaVersion ≤ upgrader.sourceVersion := by
  induction chain generalizing event with
  | nil => simp
  | cons upgrader chain ih =>
    obtain ⟨mem, ⟨-, version⟩, next, performed, leads⟩ := leads
    obtain ⟨sorted, above⟩ := ih leads
    obtain ⟨upgraded, -, checked⟩ := bind_eq_ok.mp performed
    split_ifs at checked with differs
    obtain rfl := Except.ok.inj checked
    have raises := filled.raises upgrader mem
    refine ⟨pairwise_cons.mpr ⟨fun later held => ?_, sorted⟩,
      forall_mem_cons.mpr ⟨version.ge, fun later held => ?_⟩⟩
    all_goals
      have := above later held
      grind

end

/-- An event is upgraded exactly to the end of a chain that is shorter than the bound, and no step
of a chain is taken twice. -/
theorem upgraded_iff_chain (registered : List (EventUpgrader π)) (rules : VersionRules π)
    (registers : registered.foldlM register (fun _ => []) = .ok rules) (event last : Envelope π) :
    (upgradeToLatest rules event = .ok last ↔
      ∃ chain, chain.length < maxUpgradeSteps ∧ Leads registered last chain event) ∧
    ∀ chain, Leads registered last chain event →
      chain.Pairwise (·.sourceVersion < ·.sourceVersion) := by
  have filled : Filled registered rules := filled_empty.registers registers
  exact ⟨filled.upgradeWithin_eq_ok, fun chain leads => (filled.increasing leads).1⟩

/-- The step from a version of an order to the next one. -/
def orderStep (version : Nat) : EventUpgrader Unit :=
  ⟨"order", "order", version, version + 1, fun _ => .ok ⟨"order", version + 1, ()⟩⟩

theorem upgraded_iff_two_steps :
    ∃ rules, [orderStep 1, orderStep 0].foldlM register (fun _ => []) = .ok rules ∧
      upgradeToLatest rules ⟨"order", 0, ()⟩ = .ok ⟨"order", 2, ()⟩ ∧
      ∃ chain, chain.length < maxUpgradeSteps ∧
        Leads [orderStep 1, orderStep 0] ⟨"order", 2, ()⟩ chain ⟨"order", 0, ()⟩ :=
  ⟨_, rfl, rfl, (upgraded_iff_chain _ _ rfl _ _).1.mp rfl⟩

/-- A chain of exactly as many steps as the bound is refused, although all of them succeed. -/
theorem longest_chain_refused :
    ∃ registered rules chain, registered.foldlM register (fun _ => []) = .ok rules ∧
      chain.length ≤ maxUpgradeSteps ∧
      Leads registered ⟨"order", 100, ()⟩ chain ⟨"order", 0, ()⟩ ∧
      upgradeToLatest rules ⟨"order", 0, ()⟩ =
        .error ⟨.validation, "event schema upgrade exceeded the maximum chain length"⟩ := by
  let registered := (range 100).map orderStep
  have ended : (do
      let rules ← registered.foldlM register fun _ => []
      upgradeWithin rules 101 ⟨"order", 0, ()⟩) = .ok ⟨"order", 100, ()⟩ := by decide +kernel
  have refused : (do
      let rules ← registered.foldlM register fun _ => []
      upgradeToLatest rules ⟨"order", 0, ()⟩) = .error
        ⟨.validation, "event schema upgrade exceeded the maximum chain length"⟩ := by decide +kernel
  obtain ⟨rules, registers, ended⟩ := bind_eq_ok.mp ended
  obtain ⟨chain, short, leads⟩ := (filled_empty.registers registers).upgradeWithin_eq_ok.mp ended
  rw [registers] at refused
  exact ⟨registered, rules, chain, registers, Nat.le_of_lt_succ short, leads, refused⟩

end Catga.EventVersion
