import Turna.Cluster.Gossip
import Turna.Relay.Datapath

/-! # Redirects between the nodes of a cluster

A client without an allocation is sent to the owner of its address. A draining node sends every such client away.
-/

namespace Turna.Relay
open Lib Net Stun Session Cluster List Scenario

structure ClusterRouting where
  localNodeId : String
  hashRing : HashRing
  draining : Bool

def clientKey (src : SocketAddr) : String :=
  String.ofList (src.ip.display ++ ':' :: Nat.toDigits 10 src.port.toNat)

def ClusterRouting.redirectTarget (routing : ClusterRouting) (hrwScore : Score) (src : SocketAddr) :
    Option ClusterNode :=
  let key := clientKey src
  let owner := if routing.draining then routing.hashRing.getNodeExcluding hrwScore key routing.localNodeId
    else routing.hashRing.getNode hrwScore key
  match owner with
  | none => none
  | some target => if !routing.draining && target.nodeId == routing.localNodeId then none else some target

/-- `listed` is what it last learned of the membership, itself included. -/
structure Member where
  node : ClusterNode
  draining : Bool
  listed : List ClusterNode
  processor : Processor

namespace Member

variable (m : Member)

def routing : ClusterRouting := ⟨m.node.nodeId, .new m.listed, m.draining⟩

def target (hrwScore : Score) (src : SocketAddr) : Option ClusterNode := m.routing.redirectTarget hrwScore src

/-- The redirect that the node answers a client with, in surroundings with its routing. -/
def redirect (hrwScore : Score) (env : Surroundings) (msg : StunMessage) (src : SocketAddr) : Option (List Action) :=
  m.processor.maybeRedirectNewClient { env with redirect := (m.target hrwScore src).map ClusterNode.turnAddr } msg src

end Member

/-- Nodes list the nodes that do not drain; a draining one also lists itself. -/
structure Converged (members : List Member) : Prop where
  ids : (members.map fun m => m.node.nodeId).Nodup
  listedIds : ∀ m ∈ members, DistinctIds m.listed
  serving : ∀ m ∈ members, m.draining = false →
    ∀ n, n ∈ m.listed ↔ ∃ m' ∈ members, m'.draining = false ∧ m'.node = n
  leaving : ∀ m ∈ members, m.draining = true →
    ∀ n, n ∈ m.listed ↔ (∃ m' ∈ members, m'.draining = false ∧ m'.node = n) ∨ n = m.node

variable {hrwScore : Score} {src : SocketAddr} {members : List Member} {m : Member}

theorem redirectTarget_serving (hServing : m.draining = false) (n : ClusterNode) : m.target hrwScore src = some n ↔
      m.routing.hashRing.getNode hrwScore (clientKey src) = some n ∧ n.nodeId ≠ m.node.nodeId := by
  simp only [Member.target, ClusterRouting.redirectTarget, Member.routing, hServing, Bool.false_eq_true, if_false]
  cases (HashRing.new m.listed).getNode hrwScore (clientKey src) with
  | none => simp
  | some t =>
    by_cases hOwn : t.nodeId = m.node.nodeId
    · simp only [hOwn, Bool.not_false, beq_self_eq_true, Bool.and_self, if_true, reduceCtorEq, false_iff]
      rintro ⟨⟨⟩, hNe⟩
      exact hNe hOwn
    simp only [Bool.not_false, Bool.true_and, beq_iff_eq, hOwn, if_false, Option.some.injEq]
    constructor
    · rintro rfl
      exact ⟨rfl, hOwn⟩
    · exact And.left

theorem redirectTarget_draining (hDraining : m.draining = true) : m.target hrwScore src =
      m.routing.hashRing.getNodeExcluding hrwScore (clientKey src) m.node.nodeId := by
  simp only [Member.target, ClusterRouting.redirectTarget, Member.routing, hDraining, if_true]
  cases (HashRing.new m.listed).getNodeExcluding hrwScore (clientKey src) m.node.nodeId <;> rfl

theorem target_alone (hAlone : ∀ n ∈ m.listed, n.nodeId = m.node.nodeId) (hIds : DistinctIds m.listed) :
    m.target hrwScore src = none := by
  cases hTarget : m.target hrwScore src with
  | none => rfl
  | some n =>
    exfalso
    cases hDraining : m.draining with
    | false =>
      obtain ⟨hOwner, hNe⟩ := (redirectTarget_serving hDraining n).mp hTarget
      exact hNe (hAlone n ((mem_new hIds).mp (mem_of_maxBy hOwner)))
    | true =>
      rw [redirectTarget_draining hDraining] at hTarget
      obtain ⟨hListed, hNe⟩ := mem_filter.mp (mem_of_maxBy hTarget)
      exact of_decide_eq_true hNe (hAlone n ((mem_new hIds).mp hListed))

namespace Converged

variable {m' : Member}

theorem eq_of_nodeId (h : Converged members) (hm : m ∈ members) (hm' : m' ∈ members)
    (hId : m.node.nodeId = m'.node.nodeId) : m = m' := inj_on_of_nodup_map h.ids hm hm' hId

theorem target_owner (h : Converged members) (hm : m ∈ members) {n : ClusterNode}
    (hTarget : m.target hrwScore src = some n) (hm' : m' ∈ members) (hServing : m'.draining = false) :
    m'.routing.hashRing.getNode hrwScore (clientKey src) = some n ∧ n.nodeId ≠ m.node.nodeId := by
  cases hDraining : m.draining with
  | false =>
    obtain ⟨hOwner, hNe⟩ := (redirectTarget_serving hDraining n).mp hTarget
    refine ⟨?_, hNe⟩
    rw [← hOwner]
    refine getNode_congr (h.listedIds m' hm') (h.listedIds m hm) fun x => ?_
    rw [h.serving m' hm' hServing, h.serving m hm hDraining]
  | true =>
    rw [redirectTarget_draining hDraining] at hTarget
    refine ⟨?_, of_decide_eq_true (mem_filter.mp (mem_of_maxBy hTarget)).2⟩
    rw [← hTarget]
    refine (getNodeExcluding_congr (h.listedIds m hm) (h.listedIds m' hm') fun x => ?_).symm
    rw [h.leaving m hm hDraining, h.serving m' hm' hServing]
    constructor
    · rintro ⟨hListed | rfl, hNe⟩
      · exact hListed
      · exact absurd rfl hNe
    rintro ⟨m₀, hm₀, hServing₀, rfl⟩
    refine ⟨.inl ⟨m₀, hm₀, hServing₀, rfl⟩, fun hId => ?_⟩
    rw [h.eq_of_nodeId hm₀ hm hId, hDraining] at hServing₀
    cases hServing₀

theorem target_serving (h : Converged members) (hm : m ∈ members) {n : ClusterNode}
    (hTarget : m.target hrwScore src = some n) : ∃ m' ∈ members, m'.draining = false ∧ m'.node = n := by
  cases hDraining : m.draining with
  | false =>
    obtain ⟨hOwner, -⟩ := (redirectTarget_serving hDraining n).mp hTarget
    exact (h.serving m hm hDraining n).mp ((mem_new (h.listedIds m hm)).mp (mem_of_maxBy hOwner))
  | true =>
    rw [redirectTarget_draining hDraining] at hTarget
    obtain ⟨hListed, hNe⟩ := mem_filter.mp (mem_of_maxBy hTarget)
    rcases (h.leaving m hm hDraining n).mp ((mem_new (h.listedIds m hm)).mp hListed) with hServing | rfl
    · exact hServing
    · exact absurd rfl (of_decide_eq_true hNe)

end Converged

/-- The other node that a client is sent to serves it. -/
theorem redirects_converge (hrwScore : Score) (members : List Member) (h : Converged members) (m : Member)
    (hm : m ∈ members) (src : SocketAddr) (env : Surroundings) (msg : StunMessage) :
    (∀ actions, m.redirect hrwScore env msg src = some actions → m.processor.store.get src = none ∧
      ∃ m' ∈ members, m'.node.nodeId ≠ m.node.nodeId ∧ actions = redirectTo m'.node.turnAddr msg src ∧
        ∀ env' msg', m'.redirect hrwScore env' msg' src = none) ∧
    (∀ a, m.processor.store.get src = some a → m.redirect hrwScore env msg src = none) ∧
    ((∀ n ∈ m.listed, n.nodeId = m.node.nodeId) → m.redirect hrwScore env msg src = none) := by
  refine ⟨fun actions hRedirect => ?_, fun a hGet => ?_, fun hAlone => ?_⟩
  · rw [Member.redirect, Processor.maybeRedirectNewClient] at hRedirect
    cases hGet : m.processor.store.get src with
    | some a =>
      rw [hGet] at hRedirect
      cases hRedirect
    | none =>
      rw [hGet] at hRedirect
      obtain ⟨addr, hAddr, rfl⟩ := Option.map_eq_some_iff.mp hRedirect
      obtain ⟨n, hTarget, rfl⟩ := Option.map_eq_some_iff.mp hAddr
      obtain ⟨m', hm', hServing, rfl⟩ := h.target_serving hm hTarget
      obtain ⟨hOwner, hNe⟩ := h.target_owner hm hTarget hm' hServing
      refine ⟨rfl, m', hm', hNe, rfl, fun env' msg' => ?_⟩
      have hLocal : m'.target hrwScore src = none := by
        cases hAgain : m'.target hrwScore src with
        | none => rfl
        | some n =>
          obtain ⟨hOwner', hNe'⟩ := (redirectTarget_serving hServing n).mp hAgain
          rw [hOwner] at hOwner'
          cases hOwner'
          exact absurd rfl hNe'
      rw [Member.redirect, Processor.maybeRedirectNewClient, hLocal]
      cases m'.processor.store.get src <;> rfl
  · rw [Member.redirect, Processor.maybeRedirectNewClient, hGet]
  · rw [Member.redirect, Processor.maybeRedirectNewClient, target_alone hAlone (h.listedIds m hm)]
    cases m.processor.store.get src <;> rfl

namespace Scenario

def nodeA : ClusterNode := ⟨"a", .v4 ⟨10, 0, 0, 1⟩ 3478⟩

def nodeB : ClusterNode := ⟨"b", .v4 ⟨10, 0, 0, 2⟩ 3478⟩

def draining : Member := ⟨nodeA, true, [nodeB, nodeA], server⟩

def serving : Member := ⟨nodeB, false, [nodeB], server⟩

theorem converged : Converged [draining, serving] := by
  constructor
  · decide
  · simp [DistinctIds, draining, serving, nodeA, nodeB]
  · simp only [mem_cons, not_mem_nil, or_false]
    rintro m (rfl | rfl) hServing n
    · cases hServing
    · simp [draining, serving, eq_comm (a := n)]
  · simp only [mem_cons, not_mem_nil, or_false]
    rintro m (rfl | rfl) hDraining n
    · simp [draining, serving, eq_comm (a := n)]
    · cases hDraining

end Scenario

theorem redirects_converge_pair : (draining.redirect (fun _ _ => 0) (surroundings longTerm 0)
        (allocateUdp 1 "alice") (client 1)).isSome ∧
      ∀ actions, draining.redirect (fun _ _ => 0) (surroundings longTerm 0)
        (allocateUdp 1 "alice") (client 1) = some actions → ∃ m' ∈ [draining, serving],
          ∀ env' msg', m'.redirect (fun _ _ => 0) env' msg' (client 1) = none := by
  refine ⟨by decide +kernel, fun actions hRedirect => ?_⟩
  obtain ⟨-, m', hm', -, -, hServed⟩ := (redirects_converge (fun _ _ => 0) _ converged draining
    mem_cons_self (client 1) _ _).1 actions hRedirect
  exact ⟨m', hm', hServed⟩

end Turna.Relay
