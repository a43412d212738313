import Mathlib.Algebra.Ring.Nat
import Mathlib.Data.List.Nodup

/-!
# Endpoints from the command line

Ports are computed in 16 bits: one that does not fit wraps, or panics where overflow is checked.
-/

namespace Catga.Raft.Builder

open List

structure CatgaRaftRuntimeBuilder where
  nodeId : Nat
  members : List (Nat × String)
  selfEndpoint : String

/-- `(index as u16) * 100`, before it is reduced to 16 bits. -/
def offset (index : Nat) : Nat := index % 2 ^ 16 * 100

def endpoint (port : Nat) : String := "http://127.0.0.1:" ++ toString port

/-- The endpoint of a node, where overflow wraps. -/
def wrapped (basePort index : Nat) : String := endpoint ((basePort + offset index) % 2 ^ 16)

def others (node nodes : Nat) : List Nat := (range nodes).filter (· ≠ node)

/-- The builder, or none for a panic. -/
def fromCli (checked : Bool) (basePort node nodes : Nat) :
    Option (Except String CatgaRaftRuntimeBuilder) :=
  if nodes = 0 then some (.error "at least one node is required")
  else if checked ∧ (2 ^ 64 ≤ node + 1 ∨
      ∃ index ∈ node :: others node nodes, 2 ^ 16 ≤ basePort + offset index) then none
  else some (.ok {
    nodeId := (node + 1) % 2 ^ 64
    members := (others node nodes).map fun index => (index + 1, wrapped basePort index)
    selfEndpoint := wrapped basePort node })

/-- Every port of the cluster fits. -/
def Fits (basePort node nodes : Nat) : Prop :=
  ∀ index ∈ node :: others node nodes, basePort + 100 * index < 2 ^ 16

lemma wrapped_eq {basePort index} (lt : basePort + 100 * index < 2 ^ 16) :
    wrapped basePort index = endpoint (basePort + 100 * index) := by
  have small : index % 2 ^ 16 = index := Nat.mod_eq_of_lt (by omega)
  rw [wrapped, offset, small, Nat.mul_comm, Nat.mod_eq_of_lt lt]

lemma endpoint_injective : endpoint.Injective := by
  intro port port' same
  have texts : toString port = toString port' := (String.append_right_inj _).mp same
  have digits := congrArg (fun text => Nat.ofDigitChars 10 text.toList 0) texts
  simpa using digits

/-- With overflow checks node 656 panics, so no index reaches the cast to 16 bits. -/
lemma fits_of_checked {basePort node nodes} (lt : node < 2 ^ 16)
    (bounded : ∀ index ∈ node :: others node nodes, basePort + offset index < 2 ^ 16) :
    Fits basePort node nodes := by
  have few : nodes ≤ 656 := by
    by_contra many
    have overflows := bounded 656 (by by_cases own : 656 = node <;> simp [others, own]; omega)
    rw [offset] at overflows
    omega
  intro index member
  have small : index < 2 ^ 16 := by
    simp only [others, mem_cons, mem_filter, mem_range] at member
    omega
  have fits := bounded index member
  rw [offset, Nat.mod_eq_of_lt small] at fits
  omega

/-- The ports fit and are exact, and no endpoint is used twice, exactly where every port fits, or
overflow is checked and the index of this node has 16 bits. -/
theorem endpoints_exact (checked : Bool) (basePort node nodes : Nat)
    (builder : CatgaRaftRuntimeBuilder)
    (built : fromCli checked basePort node nodes = some (.ok builder)) :
    Fits basePort node nodes ∧
      builder.members = (others node nodes).map (fun index =>
        (index + 1, endpoint (basePort + 100 * index))) ∧
      builder.selfEndpoint = endpoint (basePort + 100 * node) ∧
      (builder.selfEndpoint :: builder.members.map Prod.snd).Nodup ↔
    checked = true ∧ node < 2 ^ 16 ∨ Fits basePort node nodes := by
  refine ⟨fun all => .inr all.1, fun fits => ?_⟩
  unfold fromCli at built
  split_ifs at built with _ panics
  · cases built
  obtain rfl := Except.ok.inj (Option.some.inj built)
  have fits : Fits basePort node nodes := by
    rcases fits with ⟨rfl, lt⟩ | fits
    · refine fits_of_checked lt fun index member => ?_
      by_contra overflows
      exact panics ⟨rfl, .inr ⟨index, member, by omega⟩⟩
    · exact fits
  have own := wrapped_eq (fits node mem_cons_self)
  have members := map_congr_left (f := fun index => (index + 1, wrapped basePort index))
    (g := fun index => (index + 1, endpoint (basePort + 100 * index))) (l := others node nodes)
    fun index member => by rw [wrapped_eq (fits index (mem_cons_of_mem _ member))]
  refine ⟨fits, members, own, ?_⟩
  simp only [members, own, map_map]
  have distinct : (node :: others node nodes).Nodup := by simp [others, nodup_range.filter]
  refine distinct.map (f := fun index => endpoint (basePort + 100 * index)) fun index other same =>
    ?_
  have ports := endpoint_injective same
  omega

theorem three_endpoints : ∃ builder, fromCli true 9100 0 3 = some (.ok builder) ∧
    builder.members = [(2, "http://127.0.0.1:9200"), (3, "http://127.0.0.1:9300")] :=
  ⟨_, rfl, ((endpoints_exact true 9100 0 3 _ rfl).mpr (.inl ⟨rfl, by decide⟩)).2.1.trans
    (by decide +kernel)⟩

/-- Member 2 of the cluster gets port 64. -/
theorem port_wraps : ∃ builder, fromCli false 65500 0 2 = some (.ok builder) ∧
    builder.members = [(2, "http://127.0.0.1:64")] :=
  ⟨_, rfl, by decide +kernel⟩

end Catga.Raft.Builder
