import Mathlib.Data.List.Basic

/-!
# Metered parsers

A parser consumes a list of symbols and draws on a cumulative budget.  `Yields` says what a parser
does on one piece of input, whatever follows it: within the budget, and if the piece is admissible,
it consumes exactly the piece, returns its value and draws its cost; otherwise it fails.  The rules
compose pieces the way parsers compose.
-/

namespace Metered

variable {β ε α γ : Type}

/-- What is left to read, and what has been drawn on the budget. -/
structure Input (β : Type) where
  rest : List β
  used : Nat
deriving DecidableEq

abbrev Parser (β ε α : Type) := StateT (Input β) (Except ε) α

def fail (error : ε) : Parser β ε α := fun _ => .error error

/-- Read exactly `count` symbols. -/
def take (error : ε) (count : Nat) : Parser β ε (List β) := fun input =>
  if count ≤ input.rest.length then
    .ok (input.rest.take count, { input with rest := input.rest.drop count })
  else .error error

def charge (limit : Nat) (error : ε) (cost : Nat) : Parser β ε Unit := fun input =>
  if input.used + cost ≤ limit then .ok ((), { input with used := input.used + cost })
  else .error error

def require (condition : Prop) [Decidable condition] (error : ε) : Parser β ε Unit :=
  if condition then pure () else fail error

/-- Run parsers one after the other. -/
def all : List (Parser β ε α) → Parser β ε (List α)
  | [] => pure []
  | parser :: parsers => do
      let value ← parser
      let values ← all parsers
      pure (value :: values)

/-- A piece of input with what it stands for. -/
structure Piece (β α : Type) where
  symbols : List β
  value : α
  cost : Nat
  /-- Whether they pass every check that is not about the budget. -/
  admissible : Prop

/-- What a parser does on a piece of input, whatever follows it. -/
def Yields (limit : Nat) (parser : Parser β ε α) (piece : Piece β α) : Prop :=
  ∀ rest used, used ≤ limit →
    (piece.admissible ∧ used + piece.cost ≤ limit →
      parser { rest := piece.symbols ++ rest, used } =
        .ok (piece.value, { rest, used := used + piece.cost })) ∧
    (¬(piece.admissible ∧ used + piece.cost ≤ limit) →
      ∃ error, parser { rest := piece.symbols ++ rest, used } = .error error)

namespace Yields

variable {limit : Nat} {parser : Parser β ε α} {piece : Piece β α} {next : α → Parser β ε γ}

lemma pure (value : α) :
    Yields limit (pure value : Parser β ε α)
      { symbols := [], value, cost := 0, admissible := True } := by
  intro rest used bounded
  exact ⟨fun _ => rfl, fun refused => absurd ⟨trivial, bounded⟩ refused⟩

lemma require (condition : Prop) [Decidable condition] (error : ε) :
    Yields limit (Metered.require condition error : Parser β ε Unit)
      { symbols := [], value := (), cost := 0, admissible := condition } := by
  intro rest used bounded
  simp only [Metered.require]
  constructor
  · rintro ⟨holds, -⟩
    rw [if_pos holds]
    rfl
  · intro refused
    have fails : ¬condition := fun holds => refused ⟨holds, bounded⟩
    rw [if_neg fails]
    exact ⟨error, rfl⟩

lemma charge (error : ε) (cost : Nat) :
    Yields limit (Metered.charge limit error cost : Parser β ε Unit)
      { symbols := [], value := (), cost, admissible := True } := by
  intro rest used _
  simp only [Metered.charge]
  constructor
  · rintro ⟨-, within⟩
    rw [if_pos within]
    rfl
  · intro refused
    have exceeds : ¬used + cost ≤ limit := fun within => refused ⟨trivial, within⟩
    exact ⟨error, if_neg exceeds⟩

lemma take (error : ε) (symbols : List β) :
    Yields limit (Metered.take error symbols.length)
      { symbols, value := symbols, cost := 0, admissible := True } := by
  intro rest used bounded
  constructor
  · simp [Metered.take]
  · exact fun refused => absurd ⟨trivial, bounded⟩ refused

lemma bind {tail} (first : Yields limit parser piece)
    (second : Yields limit (next piece.value) tail) :
    Yields limit (parser >>= next)
      { symbols := piece.symbols ++ tail.symbols, value := tail.value,
        cost := piece.cost + tail.cost,
        admissible := piece.admissible ∧ tail.admissible } := by
  intro rest used bounded
  have run_eq : (parser >>= next) { rest := piece.symbols ++ tail.symbols ++ rest, used } =
      (parser { rest := piece.symbols ++ (tail.symbols ++ rest), used }).bind
        fun result => next result.1 result.2 := by
    rw [List.append_assoc]
    rfl
  obtain ⟨first_ok, first_error⟩ := first (tail.symbols ++ rest) used bounded
  by_cases head_ok : piece.admissible ∧ used + piece.cost ≤ limit
  · obtain ⟨second_ok, second_error⟩ := second rest (used + piece.cost) head_ok.2
    rw [run_eq, first_ok head_ok]
    simp only [Except.bind]
    constructor
    · rintro ⟨⟨-, tail_admissible⟩, (within : used + (piece.cost + tail.cost) ≤ limit)⟩
      rw [second_ok ⟨tail_admissible, by omega⟩, Nat.add_assoc]
    · intro refused
      apply second_error
      rintro ⟨tail_admissible, within⟩
      exact refused ⟨⟨head_ok.1, tail_admissible⟩, by omega⟩
  · obtain ⟨error, failed⟩ := first_error head_ok
    rw [run_eq, failed]
    constructor
    · rintro ⟨⟨admissible, -⟩, (within : used + (piece.cost + tail.cost) ≤ limit)⟩
      exact absurd ⟨admissible, by omega⟩ head_ok
    · exact fun _ => ⟨error, rfl⟩

lemma congr {other} (yields : Yields limit parser piece)
    (symbols_eq : other.symbols = piece.symbols) (value_eq : other.value = piece.value)
    (cost_eq : other.cost = piece.cost) (admissible_iff : other.admissible ↔ piece.admissible) :
    Yields limit parser other := by
  intro rest used bounded
  rw [symbols_eq, value_eq, cost_eq, admissible_iff]
  exact yields rest used bounded

lemma seq {target} (tail : Piece β γ) (first : Yields limit parser piece)
    (second : Yields limit (next piece.value) tail)
    (symbols_eq : target.symbols = piece.symbols ++ tail.symbols)
    (value_eq : target.value = tail.value) (cost_eq : target.cost = piece.cost + tail.cost)
    (admissible_iff : target.admissible ↔ piece.admissible ∧ tail.admissible) :
    Yields limit (parser >>= next) target :=
  (first.bind second).congr symbols_eq value_eq cost_eq admissible_iff

lemma map (yields : Yields limit parser piece) (image : α → γ) :
    Yields limit (parser >>= fun value => Pure.pure (image value))
      { piece with value := image piece.value } := by
  have last : Yields limit ((fun value => (Pure.pure (image value) : Parser β ε γ)) piece.value)
      { symbols := [], value := image piece.value, cost := 0, admissible := True } :=
    pure (image piece.value)
  exact (yields.bind last).congr (by simp) rfl rfl (by simp)

/-- What a piece must satisfy may be stated for pieces within the budget only. -/
lemma affordable {condition : Prop} (yields : Yields limit parser piece)
    (same : piece.cost ≤ limit → (condition ↔ piece.admissible)) :
    Yields limit parser { piece with admissible := condition } := by
  intro rest used bounded
  have accepted_iff : (condition ∧ used + piece.cost ≤ limit) ↔
      (piece.admissible ∧ used + piece.cost ≤ limit) :=
    and_congr_left fun within => same (by omega)
  change (condition ∧ used + piece.cost ≤ limit → _) ∧
    (¬(condition ∧ used + piece.cost ≤ limit) → _)
  rw [accepted_iff]
  exact yields rest used bounded

lemma fail {error} (refused : ¬piece.admissible) :
    Yields limit (Metered.fail error : Parser β ε α) piece := by
  intro rest used _
  exact ⟨fun accepted => absurd accepted.1 refused, fun _ => ⟨error, rfl⟩⟩

lemma all_nil :
    Yields limit (Metered.all ([] : List (Parser β ε α)))
      { symbols := [], value := [], cost := 0, admissible := True } := pure []

lemma all_cons {parsers pieces}
    (first : Yields limit parser piece) (others : Yields limit (Metered.all parsers) pieces) :
    Yields limit (Metered.all (parser :: parsers))
      { symbols := piece.symbols ++ pieces.symbols
        value := piece.value :: pieces.value
        cost := piece.cost + pieces.cost
        admissible := piece.admissible ∧ pieces.admissible } := by
  have rest := others.map fun values => piece.value :: values
  exact seq _ first rest rfl rfl rfl Iff.rfl

end Yields

end Metered
