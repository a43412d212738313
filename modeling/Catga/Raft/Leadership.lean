import Mathlib.Logic.Function.Basic

/-!
# The published leadership

The owner loop mirrors raft's role and leader into the coordinator whenever they change.  It hands
over one optional endpoint, and the coordinator takes the node for the leader if there is one.
-/

namespace Catga.Raft.Leadership

inductive StateRole where
  | follower
  | candidate
  | leader
  | preCandidate
deriving DecidableEq

abbrev Peers := Nat → Option String

structure CatgaRaftCoordinator where
  isLeader : Bool
  leaderEndpoint : Option String

def CatgaRaftCoordinator.new : CatgaRaftCoordinator := ⟨false, none⟩

def CatgaRaftCoordinator.setLeader (endpoint : Option String) : CatgaRaftCoordinator :=
  ⟨endpoint.isSome, endpoint⟩

/-- A committed membership change with the endpoint in its context. -/
inductive ConfChange where
  | addNode (id : Nat) (endpoint : String)
  | removeNode (id : Nat)

/-- What `apply_conf_entry` does to the endpoints of the peers. -/
def ConfChange.apply (peers : Peers) : ConfChange → Peers
  | .addNode id endpoint =>
    if id = 0 ∨ endpoint = "" then peers else Function.update peers id (some endpoint)
  | .removeNode id => if id = 0 then peers else Function.update peers id none

/-- One turn of the loop: the changes it applies, and raft's view after it. -/
structure Turn where
  changes : List ConfChange
  role : StateRole
  leaderId : Nat

structure Owner where
  coordinator : CatgaRaftCoordinator
  peers : Peers
  lastLeadership : Option (StateRole × Nat)

def Owner.start (peers : Peers) : Owner := ⟨.new, peers, none⟩

variable (selfEndpoint : Option String)

def updateLeadership (role : StateRole) (leaderId : Nat) (peers : Peers) : CatgaRaftCoordinator :=
  .setLeader <|
    if role = .leader then selfEndpoint else if leaderId ≠ 0 then peers leaderId else none

def Owner.turn (owner : Owner) (seen : Turn) : Owner :=
  let peers := seen.changes.foldl ConfChange.apply owner.peers
  if owner.lastLeadership = some (seen.role, seen.leaderId) then { owner with peers }
  else ⟨updateLeadership selfEndpoint seen.role seen.leaderId peers, peers,
    some (seen.role, seen.leaderId)⟩

def Owner.after (peers : Peers) (turns : List Turn) : Owner :=
  turns.foldl (Owner.turn selfEndpoint) (.start peers)

/-- What raft promises of its view: a node takes itself for the leader exactly if it is. -/
def Turn.Promised (nodeId : Nat) (seen : Turn) : Prop :=
  seen.role = .leader ↔ seen.leaderId = nodeId

/-- The endpoint of a node; zero stands for no node. -/
def endpointOf (nodeId : Nat) (peers : Peers) (id : Nat) : Option String :=
  if id = 0 then none else if id = nodeId then selfEndpoint else peers id

/-- The coordinator tells raft's view. -/
structure Published (nodeId : Nat) (seen : Turn) (owner : Owner) : Prop where
  isLeader : owner.coordinator.isLeader = true ↔ seen.role = .leader
  leaderEndpoint : owner.coordinator.leaderEndpoint =
    endpointOf selfEndpoint nodeId owner.peers seen.leaderId

variable {selfEndpoint} {nodeId : Nat} {seen : Turn}

lemma updateLeadership_eq (peers : Peers) (positive : nodeId ≠ 0)
    (promised : seen.Promised nodeId) :
    updateLeadership selfEndpoint seen.role seen.leaderId peers =
      .setLeader (endpointOf selfEndpoint nodeId peers seen.leaderId) := by
  unfold updateLeadership endpointOf
  by_cases leads : seen.role = .leader
  · rw [if_pos leads, promised.mp leads, if_neg positive, if_pos rfl]
  · rw [if_neg leads, if_neg fun own => leads (promised.mpr own), ite_not]

/-- A turn that updates the leadership publishes raft's view exactly if an endpoint of the leader is
known on the leader itself and nowhere else. -/
theorem published_iff (selfEndpoint : Option String) (peers : Peers) (turns : List Turn)
    (seen : Turn) {nodeId : Nat} (positive : nodeId ≠ 0) (promised : seen.Promised nodeId)
    (changed : (Owner.after selfEndpoint peers turns).lastLeadership ≠
      some (seen.role, seen.leaderId)) :
    Published selfEndpoint nodeId seen (.after selfEndpoint peers (turns ++ [seen])) ↔
      ((endpointOf selfEndpoint nodeId (Owner.after selfEndpoint peers (turns ++ [seen])).peers
        seen.leaderId).isSome ↔ seen.role = .leader) := by
  have last : Owner.after selfEndpoint peers (turns ++ [seen]) =
      (Owner.after selfEndpoint peers turns).turn selfEndpoint seen := by simp [Owner.after]
  rw [last, Owner.turn, if_neg changed, updateLeadership_eq _ positive promised]
  exact ⟨Published.isLeader, fun told => ⟨told, rfl⟩⟩

/-- A node that leads under its own endpoint, after it was a candidate. -/
theorem published_leader :
    Published (some "a:1") 1 ⟨[], .leader, 1⟩
      (.after (some "a:1") (fun _ => none) ([⟨[], .candidate, 0⟩] ++ [⟨[], .leader, 1⟩])) :=
  (published_iff (some "a:1") (fun _ => none) [⟨[], .candidate, 0⟩] ⟨[], .leader, 1⟩ (by decide)
    (iff_of_true rfl rfl) (by decide)).mpr (by decide)

/-- A follower that knows the endpoint of its leader is published as the leader, and a leader
without an endpoint of its own is not. -/
theorem follower_published_as_leader :
    (∃ seen : Turn, seen.Promised 1 ∧ seen.role = .follower ∧
      (Owner.after (some "a:1") (fun _ => none) [seen]).coordinator.isLeader = true) ∧
    ∃ seen : Turn, seen.Promised 1 ∧ seen.role = .leader ∧
      (Owner.after none (fun _ => none) [seen]).coordinator.isLeader = false :=
  ⟨⟨⟨[.addNode 2 "b:1"], .follower, 2⟩, iff_of_false (by decide) (by decide), rfl, by decide⟩,
    ⟨[], .leader, 1⟩, iff_of_true rfl rfl, rfl, by decide⟩

end Catga.Raft.Leadership
