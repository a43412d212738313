import Catga.Resilience.Executor
import Mathlib.Data.List.Induction
import Mathlib.Data.Rat.Cast.Order

/-!
# When a circuit opens

The window of the circuit is what a recount of the last outcomes gives, so a closed circuit opens at
the first recorded failure that reaches the failure ratio.
-/

namespace Catga.Resilience

open List Circuit

/-- An operation on the window. -/
inductive WindowOp where
  | push (success : Bool)
  | clear

def WindowOp.apply (window : OutcomeWindow) : WindowOp → OutcomeWindow
  | .push success => window.push success
  | .clear => window.clear

def WindowOp.note (outcomes : List Bool) : WindowOp → List Bool
  | .push success => outcomes ++ [success]
  | .clear => []

/-- The outcomes since the last clear. -/
def sinceClear (operations : List WindowOp) : List Bool := operations.foldl WindowOp.note []

/-- The last outcomes, at most `limit` of them. -/
def recent (limit : Nat) (outcomes : List Bool) : List Bool :=
  outcomes.drop (outcomes.length - limit)

/-- The window that a recount gives. -/
def windowOf (limit : Nat) (outcomes : List Bool) : OutcomeWindow :=
  ⟨recent limit outcomes, (recent limit outcomes).count false, limit⟩

variable {limit : Nat} {outcomes history : List Bool}

lemma push_windowOf (positive : 0 < limit) (success : Bool) :
    (windowOf limit outcomes).push success = windowOf limit (outcomes ++ [success]) := by
  have added : recent limit (outcomes ++ [success]) =
      outcomes.drop (outcomes.length + 1 - limit) ++ [success] := by
    rw [recent, length_append, length_singleton, drop_append_of_le_length (by omega)]
  by_cases full : limit ≤ outcomes.length
  · -- the window is full, and its first outcome leaves it
    have inside : outcomes.length - limit < outcomes.length := by omega
    have split := drop_eq_getElem_cons inside
    have next : outcomes.length - limit + 1 = outcomes.length + 1 - limit := by omega
    have size : outcomes.length - (outcomes.length - limit + 1) + 1 = limit := by omega
    simp only [windowOf, added, ← next]
    cases first : outcomes[outcomes.length - limit] <;> cases success <;>
      simp [OutcomeWindow.push, recent, size, split, first]
  · have all : outcomes.length - limit = 0 := by omega
    have none_left : outcomes.length + 1 - limit = 0 := by omega
    simp only [windowOf, added, none_left]
    cases success <;>
      simp [OutcomeWindow.push, recent, all, Nat.ne_of_lt (Nat.lt_of_not_le full)]

lemma foldl_windowOf (positive : 0 < limit) (operations : List WindowOp) :
    operations.foldl WindowOp.apply (windowOf limit outcomes) =
      windowOf limit (operations.foldl WindowOp.note outcomes) := by
  induction operations generalizing outcomes with
  | nil => rfl
  | cons operation operations ih =>
    cases operation with
    | push =>
      simp only [foldl_cons, WindowOp.apply, push_windowOf positive, ih]
      rfl
    | clear =>
      have cleared : (windowOf limit outcomes).clear = windowOf limit [] := by
        simp [OutcomeWindow.clear, windowOf, recent]
      simp only [foldl_cons, WindowOp.apply, cleared, ih]
      rfl

variable {α : Type}

/-- A call that is no probe has completed: the time, its result and whether an error is
retryable. -/
abbrev Completed (α : Type) := Nat × CatgaResult α × Bool

/-- What is recorded of a call. -/
def Completed.outcome (call : Completed α) : Option Bool :=
  match call.2.1 with
  | .ok _ => some true
  | .error error => if error.code ≠ .cancelled ∧ call.2.2 then some false else none

open Completed

namespace Circuit

/-- The operations of `complete`, one after another. -/
def settle (clock : Nat) : Nat → Option CompletePoint → Circuit → Circuit
  | fuel + 1, some point, circuit =>
    let completed := circuit.complete clock point
    settle clock fuel completed.2 completed.1
  | _, _, circuit => circuit

/-- A closed circuit after the completion of a call. -/
def after (circuit : Circuit) (call : Completed α) : Circuit :=
  if circuit.state = .closed then circuit.settle call.1 5 (completion false call.2.1 call.2.2)
  else circuit

end Circuit

/-- There are enough outcomes, and enough of them are failures. -/
def Reaches (options : CircuitBreakerOptions) (outcomes : List Bool) : Prop :=
  options.minimumThroughput ≤ outcomes.length ∧
    (options.failureRatioNumerator : ℚ) / options.failureRatioDenominator ≤
      (outcomes.count false : ℚ) / outcomes.length

/-- A call of a sequence that is recorded as a failure where the ratio is reached. -/
def Due (options : CircuitBreakerOptions) (history : List Bool) (calls : List (Completed α)) :
    Prop :=
  ∃ earlier call, earlier ++ [call] <+: calls ∧ outcome call = some false ∧
    Reaches options (recent options.samplingWindow
      (history ++ (earlier ++ [call]).filterMap outcome))

variable {circuit : Circuit} {call : Completed α}

lemma CircuitBreakerOptions.counts (options : CircuitBreakerOptions) :
    0 < options.samplingWindow := lt_of_lt_of_le options.valid.2.2.1 options.valid.2.2.2.1

lemma completion_eq : completion false call.2.1 call.2.2 =
    (outcome call).map CompletePoint.record := by
  obtain ⟨clock, result, retryable⟩ := call
  cases result with
  | ok => rfl
  | error =>
    simp only [completion, outcome]
    split <;> rfl

lemma opens_windowOf : circuit.opens (windowOf limit outcomes) = true ↔
    Reaches circuit.options (recent limit outcomes) := by
  rw [opens, Bool.and_eq_true, decide_eq_true_iff, decide_eq_true_iff]
  refine and_congr_right fun enough => ?_
  have enough : circuit.options.minimumThroughput ≤ (recent limit outcomes).length := enough
  obtain ⟨-, -, throughput, -, numerator, ratio⟩ := circuit.options.valid
  rw [div_le_div_iff₀ (by norm_cast; omega) (by norm_cast; omega), mul_comm (Nat.cast _)]
  norm_cast

lemma settle_record (closed : circuit.state = .closed) (clock : Nat) (success : Bool) :
    circuit.settle clock 5 (some (.record success)) =
      if !success && circuit.opens (circuit.outcomes.push success) then
        { circuit with
          outcomes := circuit.outcomes.push success, state := .opened
          openedAtNs := elapsedNs clock, halfOpenProbe := false }
      else { circuit with outcomes := circuit.outcomes.push success } := by
  simp only [settle, complete]
  split <;> simp [settle, complete, closed]

/-- A sequence of calls on a closed circuit either has a call that is due, and has opened the
circuit, or has none, and the window is what a recount gives. -/
lemma after_calls (closed : circuit.state = .closed)
    (window : circuit.outcomes = windowOf circuit.options.samplingWindow history)
    (calls : List (Completed α)) :
    let after := calls.foldl Circuit.after circuit
    (after.state = .opened ∧ Due circuit.options history calls) ∨
      (after.state = .closed ∧ ¬Due circuit.options history calls) ∧
        after.options = circuit.options ∧
        after.outcomes = windowOf circuit.options.samplingWindow
          (history ++ calls.filterMap outcome) := by
  induction calls using List.reverseRecOn with
  | nil =>
    refine .inr ⟨⟨closed, ?_⟩, rfl, by simpa using window⟩
    rintro ⟨earlier, call, within, -⟩
    simp at within
  | append_singleton calls call ih =>
    rw [foldl_append, foldl_cons, foldl_nil]
    generalize calls.foldl Circuit.after circuit = middle at ih ⊢
    obtain ⟨opened, earlier, due, within, rest⟩ | ⟨⟨shut, none_due⟩, same, recount⟩ := ih
    · refine .inl ⟨?_, earlier, due, within.trans (prefix_append _ _), rest⟩
      simp [Circuit.after, opened]
    · -- a longer sequence adds only that its last call may be due
      have last : Due circuit.options history (calls ++ [call]) ↔
          outcome call = some false ∧ Reaches circuit.options
            (recent circuit.options.samplingWindow
              (history ++ (calls ++ [call]).filterMap outcome)) := by
        constructor
        · rintro ⟨earlier, own, within, rest⟩
          obtain same | within := prefix_concat_iff.mp within
          · obtain ⟨rfl, rfl⟩ : earlier = calls ∧ own = call := by simpa using same
            exact rest
          · exact absurd ⟨earlier, own, within, rest⟩ none_due
        · exact fun rest => ⟨calls, call, prefix_refl _, rest⟩
      rw [last, Circuit.after, if_pos shut, completion_eq]
      cases noted : outcome call with
      | none => exact .inr ⟨⟨shut, by simp⟩, same, recount.trans (by simp [noted])⟩
      | some success =>
        have pushed : middle.outcomes.push success = windowOf circuit.options.samplingWindow
            (history ++ (calls ++ [call]).filterMap outcome) := by
          rw [recount, push_windowOf circuit.options.counts]
          simp [noted]
        rw [Option.map_some, settle_record shut, pushed, ← same, ← opens_windowOf]
        cases success with
        | true => exact .inr ⟨⟨shut, by simp⟩, rfl, rfl⟩
        | false =>
          simp only [Bool.not_false, Bool.true_and]
          split_ifs with opens
          · exact .inl ⟨rfl, trivial, opens⟩
          · exact .inr ⟨⟨shut, fun due => opens due.2⟩, rfl, rfl⟩

/-- The window is exact for every sequence of operations, and a closed circuit opens at the first
recorded failure that reaches the ratio in the window, not before. -/
theorem opens_at_ratio (positive : 0 < limit) (operations : List WindowOp)
    (closed : circuit.state = .closed) (window : circuit.outcomes =
      operations.foldl WindowOp.apply ⟨[], 0, circuit.options.samplingWindow⟩)
    (calls : List (Completed α)) :
    operations.foldl WindowOp.apply ⟨[], 0, limit⟩ =
        ⟨recent limit (sinceClear operations),
          (recent limit (sinceClear operations)).count false, limit⟩ ∧
      ((calls.foldl Circuit.after circuit).state = .opened ∧
          Due circuit.options (sinceClear operations) calls ∨
        (calls.foldl Circuit.after circuit).state = .closed ∧
          ¬Due circuit.options (sinceClear operations) calls) := by
  have empty (limit : Nat) : (⟨[], 0, limit⟩ : OutcomeWindow) = windowOf limit [] := by
    simp [windowOf, recent]
  rw [empty, foldl_windowOf circuit.options.counts] at window
  refine ⟨by rw [empty, foldl_windowOf positive]; rfl, ?_⟩
  exact (after_calls closed window calls).imp_right And.left

/-- A circuit that opens when half of at least two outcomes are failures. -/
def halfDown : CircuitBreakerOptions := ⟨10, 4, 2, 1, 2, by decide⟩

def upThenDown : List (Completed Unit) :=
  [(0, .ok (), false), (0, .error ⟨.transient, "down"⟩, true)]

theorem upThenDown_opens : (upThenDown.foldl Circuit.after (.new halfDown)).state = .opened ∧
    Due halfDown (sinceClear []) upThenDown := by
  have opened : (upThenDown.foldl Circuit.after (.new halfDown)).state = .opened := by decide
  refine (opens_at_ratio Nat.one_pos [] rfl rfl upThenDown).2.resolve_right fun closed => ?_
  cases opened.symm.trans closed.1

end Catga.Resilience
