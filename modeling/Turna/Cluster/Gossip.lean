import Mathlib.Data.List.Sort
import Mathlib.Logic.Function.Basic
import Turna.Lib.HashMap
import Turna.Lib.MaxBy
import Turna.Lib.Trace
import Turna.Relay.PeerFilter

/-! # Gossip

A node's view of the cluster, and what ticks and frames do to it. Frames are those that pass the signature check and
decode; a peer is kept under its id; times are in milliseconds.
-/

namespace Turna.Cluster
open Lib Net List HashMap Option

section

structure ClusterNode where
  nodeId : String
  turnAddr : SocketAddr
  deriving DecidableEq, Repr

structure HashRing where
  nodes : List ClusterNode

/-- `Vec::dedup_by` on the ids: of neighbours with one id the first stays. -/
def dedupFrom : ClusterNode → List ClusterNode → List ClusterNode
  | _, [] => []
  | kept, n :: rest => if n.nodeId = kept.nodeId then dedupFrom kept rest else n :: dedupFrom n rest

def dedupIds : List ClusterNode → List ClusterNode
  | [] => []
  | n :: rest => n :: dedupFrom n rest

def sortById (nodes : List ClusterNode) : List ClusterNode :=
  nodes.insertionSort fun a b => (compare a.nodeId b.nodeId).isLE

abbrev Score := String → String → UInt64

def byScore (hrwScore : Score) (key : String) : ClusterNode → ClusterNode → Ordering :=
  compareLex (compareOn fun n => hrwScore n.nodeId key) (compareOn ClusterNode.nodeId)

namespace HashRing

def new (nodes : List ClusterNode) : HashRing := ⟨dedupIds (sortById nodes)⟩

variable (ring : HashRing) (hrwScore : Score) (key : String)

def getNode : Option ClusterNode := maxBy (byScore hrwScore key) ring.nodes

def getNodeExcluding (excludeId : String) : Option ClusterNode :=
  maxBy (byScore hrwScore key) (ring.nodes.filter fun n => n.nodeId ≠ excludeId)

end HashRing

instance (hrwScore : Score) (key : String) : Std.TransCmp (byScore hrwScore key) :=
  inferInstanceAs (Std.TransCmp (compareLex _ _))

def DistinctIds (nodes : List ClusterNode) : Prop := (nodes.map ClusterNode.nodeId).Nodup

variable {hrwScore : Score} {key : String} {nodes : List ClusterNode} {nodes' : List ClusterNode} {a b : ClusterNode}

theorem byScore_eq (h : byScore hrwScore key a b = .eq) :
    a.nodeId = b.nodeId := Std.LawfulEqCmp.eq_of_compare (compareLex_eq_eq.mp h).2

theorem DistinctIds.eq (h : DistinctIds nodes) (ha : a ∈ nodes)
    (hb : b ∈ nodes) (hId : a.nodeId = b.nodeId) : a = b := inj_on_of_nodup_map h ha hb hId

theorem dedupFrom_eq {kept : ClusterNode} (h : DistinctIds (kept :: nodes)) : dedupFrom kept nodes = nodes := by
  induction nodes generalizing kept with
  | nil => rfl
  | cons n rest ih =>
    simp only [DistinctIds, map_cons, nodup_cons, mem_cons, not_or] at h
    rw [dedupFrom, if_neg (Ne.symm h.1.1), ih (by simpa [DistinctIds] using h.2)]

theorem mem_new (h : DistinctIds nodes) {n : ClusterNode} : n ∈ (HashRing.new nodes).nodes ↔ n ∈ nodes := by
  have hPerm : (sortById nodes).Perm nodes := perm_insertionSort _ nodes
  have hSorted : DistinctIds (sortById nodes) := (hPerm.map ClusterNode.nodeId).nodup_iff.mpr h
  have hNodes : (HashRing.new nodes).nodes = sortById nodes := by
    show dedupIds (sortById nodes) = sortById nodes
    cases hList : sortById nodes with
    | nil => rfl
    | cons n rest =>
      rw [hList] at hSorted
      rw [dedupIds, dedupFrom_eq hSorted]
  rw [hNodes, hPerm.mem_iff]

theorem getNode_congr (h : DistinctIds nodes) (h' : DistinctIds nodes') (hSame : ∀ n, n ∈ nodes ↔ n ∈ nodes') :
    (HashRing.new nodes).getNode hrwScore key = (HashRing.new nodes').getNode hrwScore key := by
  refine maxBy_congr (fun n => ?_) fun a ha b hb hEq => ?_
  · rw [mem_new h, mem_new h', hSame]
  · exact h.eq ((mem_new h).mp ha) ((mem_new h).mp hb) (byScore_eq hEq)

theorem getNodeExcluding_congr {excludeId : String} (h : DistinctIds nodes) (h' : DistinctIds nodes')
    (hSame : ∀ n, n ∈ nodes ∧ n.nodeId ≠ excludeId ↔ n ∈ nodes') :
    (HashRing.new nodes).getNodeExcluding hrwScore key excludeId = (HashRing.new nodes').getNode hrwScore key := by
  refine maxBy_congr (fun n => ?_) fun a ha b hb hEq => ?_
  · rw [mem_filter, mem_new h, mem_new h', ← hSame, decide_eq_true_iff]
  · exact h.eq ((mem_new h).mp (mem_filter.mp ha).1) ((mem_new h).mp (mem_filter.mp hb).1) (byScore_eq hEq)

theorem getNode_of_subset (h : DistinctIds nodes) (h' : DistinctIds nodes') (hSub : nodes' ⊆ nodes) (ha : a ∈ nodes')
    (hOwner : (HashRing.new nodes).getNode hrwScore key = some a) :
    (HashRing.new nodes').getNode hrwScore key = some a := by
  refine maxBy_of_subset hOwner (fun n hn => ?_) ((mem_new h').mpr ha) fun a ha b hb hEq => ?_
  · exact (mem_new h).mpr (hSub ((mem_new h').mp hn))
  · exact h.eq ((mem_new h).mp ha) ((mem_new h).mp hb) (byScore_eq hEq)

theorem getNode_eq_none (h : DistinctIds nodes) :
    (HashRing.new nodes).getNode hrwScore key = none ↔ nodes = [] := by
  simp [HashRing.getNode, eq_nil_iff_forall_not_mem, mem_new h]

def without (nodes : List ClusterNode) (nodeId : String) : List ClusterNode :=
  nodes.filter fun n => n.nodeId ≠ nodeId

theorem DistinctIds.without (h : DistinctIds nodes) (nodeId : String) : DistinctIds (without nodes nodeId) :=
  h.sublist (filter_sublist.map _)

theorem getNode_without {nodeId : String} (h : DistinctIds nodes)
    (hOther : ∀ n, (HashRing.new nodes).getNode hrwScore key = some n → n.nodeId ≠ nodeId) :
    (HashRing.new (without nodes nodeId)).getNode hrwScore key = (HashRing.new nodes).getNode hrwScore key := by
  cases hOwner : (HashRing.new nodes).getNode hrwScore key with
  | none =>
    rw [getNode_eq_none h] at hOwner
    simp [hOwner, Cluster.without, HashRing.getNode, HashRing.new, sortById, dedupIds, maxBy]
  | some n =>
    have hn : n ∈ nodes := (mem_new h).mp (mem_of_maxBy hOwner)
    refine getNode_of_subset h (h.without nodeId) (filter_subset_self nodes) ?_ hOwner
    exact mem_filter.mpr ⟨hn, decide_eq_true (hOther n hOwner)⟩

theorem getNodeExcluding_eq_without (h : DistinctIds nodes) (nodeId : String) :
    (HashRing.new nodes).getNodeExcluding hrwScore key nodeId =
      (HashRing.new (without nodes nodeId)).getNode hrwScore key :=
  getNodeExcluding_congr h (h.without nodeId) (by simp [without])

theorem getNode_cons (h : DistinctIds (a :: nodes)) : (HashRing.new (a :: nodes)).getNode hrwScore key = some a ∨
      (HashRing.new (a :: nodes)).getNode hrwScore key = (HashRing.new nodes).getNode hrwScore key := by
  have hRest : DistinctIds nodes := (nodup_cons.mp h).2
  cases hOwner : (HashRing.new (a :: nodes)).getNode hrwScore key with
  | none => simp [getNode_eq_none h] at hOwner
  | some n =>
    rcases mem_cons.mp ((mem_new h).mp (mem_of_maxBy hOwner)) with rfl | hn
    · exact .inl rfl
    · exact .inr (getNode_of_subset h hRest (subset_cons_self a nodes) hn hOwner).symm

/-- Ownership of a key moves only to a node that joins and only from a node that leaves. -/
theorem ownership_moves_minimally (hrwScore : Score) (key : String) (nodes : List ClusterNode) (h : DistinctIds nodes) :
    (∀ nodes', nodes'.Perm nodes →
      (HashRing.new nodes').getNode hrwScore key = (HashRing.new nodes).getNode hrwScore key) ∧
    (∀ n nodes', nodes'.Perm (n :: nodes) → DistinctIds (n :: nodes) →
      (HashRing.new nodes').getNode hrwScore key = some n ∨
        (HashRing.new nodes').getNode hrwScore key = (HashRing.new nodes).getNode hrwScore key) ∧
    (∀ x, (∀ n, (HashRing.new nodes).getNode hrwScore key = some n → n.nodeId ≠ x) →
      (HashRing.new (without nodes x)).getNode hrwScore key = (HashRing.new nodes).getNode hrwScore key ∧
      (HashRing.new nodes).getNodeExcluding hrwScore key x = (HashRing.new nodes).getNode hrwScore key) ∧
    (∀ x, (HashRing.new nodes).getNodeExcluding hrwScore key x =
      (HashRing.new (without nodes x)).getNode hrwScore key) ∧
    ((HashRing.new nodes).getNode hrwScore key = none ↔ nodes = []) ∧
    ∀ x, (HashRing.new nodes).getNodeExcluding hrwScore key x = none ↔ ∀ n ∈ nodes, n.nodeId = x := by
  have hPerm : ∀ {l l' : List ClusterNode}, l'.Perm l → DistinctIds l →
      (HashRing.new l').getNode hrwScore key = (HashRing.new l).getNode hrwScore key := fun hp hl =>
    getNode_congr ((hp.map _).nodup_iff.mpr hl) hl fun n => hp.mem_iff
  refine ⟨fun nodes' hp => hPerm hp h, fun n nodes' hp hn => ?_, fun x hOther => ?_,
    fun x => getNodeExcluding_eq_without h x, getNode_eq_none h, fun x => ?_⟩
  · rw [hPerm hp hn]
    exact getNode_cons hn
  · rw [getNodeExcluding_eq_without h]
    exact ⟨getNode_without h hOther, getNode_without h hOther⟩
  · rw [getNodeExcluding_eq_without h, getNode_eq_none (h.without x)]
    simp [without]

theorem ownership_moves_minimally_pair :
    (HashRing.new [⟨"a", .v4 ⟨10, 0, 0, 1⟩ 3478⟩, ⟨"b", .v4 ⟨10, 0, 0, 2⟩ 3478⟩]).getNodeExcluding
        (fun _ _ => 0) "k" "b" =
      (HashRing.new (without [⟨"a", .v4 ⟨10, 0, 0, 1⟩ 3478⟩, ⟨"b", .v4 ⟨10, 0, 0, 2⟩ 3478⟩] "b")).getNode
        (fun _ _ => 0) "k" :=
  (ownership_moves_minimally _ _ _ (by simp [DistinctIds])).2.2.2.1 "b"

end

/-! ## Gossip -/

structure GossipConfig where
  nodeId : String
  turnAddr : SocketAddr
  interval : Nat
  timeout : Nat
  clusterName : String
  advertiseAddr : SocketAddr

namespace GossipConfig

variable (cfg : GossipConfig)

def effectiveInterval : Nat := if cfg.interval = 0 then 2000 else cfg.interval

def effectiveTimeout : Nat := if cfg.timeout = 0 then 30000 else cfg.timeout

def tombstoneGrace : Nat := max (cfg.effectiveInterval * 3) 5000

end GossipConfig

structure PeerEntry where
  nodeId : String
  turnAddr : SocketAddr
  gossipAddr : SocketAddr
  seq : UInt64
  deriving DecidableEq

structure GossipMessage where
  clusterName : String
  nodeId : String
  turnAddr : SocketAddr
  seq : UInt64
  advertiseAddr : SocketAddr
  peers : List PeerEntry
  leaving : Bool
  deriving DecidableEq

structure GossipNode where
  turnAddr : SocketAddr
  gossipAddr : SocketAddr
  seq : UInt64
  lastSeen : Nat

/-- A tombstone has the number of the last leaving frame and its expiry. -/
structure GossipState where
  seq : UInt64
  peers : HashMap String GossipNode
  tombstones : HashMap String (UInt64 × Nat)
  lastTopology : List ClusterNode

def effectiveAddr (advertised src : SocketAddr) : SocketAddr :=
  if Relay.isUnspecified advertised.ip || advertised.port = 0 then src else advertised

namespace GossipState

variable (cfg : GossipConfig) (s : GossipState) (now : Nat)

def topology : List ClusterNode :=
  dedupIds (sortById (⟨cfg.nodeId, cfg.turnAddr⟩ :: s.peers.entries.map fun e => ⟨e.1, e.2.turnAddr⟩))

/-- The callback is given `lastTopology` when it changes. -/
def publishTopology : GossipState := { s with lastTopology := s.topology cfg }

def start : GossipState := publishTopology cfg ⟨0, .empty, .empty, []⟩

def encodeFrame (leaving : Bool) : GossipMessage :=
  { clusterName := cfg.clusterName
    nodeId := cfg.nodeId
    turnAddr := cfg.turnAddr
    seq := s.seq
    advertiseAddr := cfg.advertiseAddr
    peers := s.peers.entries.map fun e => ⟨e.1, e.2.turnAddr, e.2.gossipAddr, e.2.seq⟩
    leaving }

def observePeer (entry : PeerEntry) (direct : Bool) : Bool × GossipState :=
  if entry.nodeId = cfg.nodeId then (false, s)
  else if !direct && s.tombstones.contains entry.nodeId then (false, s)
  else
    let tombstones := if direct then s.tombstones.remove entry.nodeId else s.tombstones
    match s.peers.get entry.nodeId with
    | some node =>
      if node.seq < entry.seq || direct then
        let seen := ⟨entry.turnAddr, entry.gossipAddr, if node.seq < entry.seq then entry.seq else node.seq, now⟩
        (node.turnAddr ≠ entry.turnAddr, { s with tombstones, peers := s.peers.insert entry.nodeId seen })
      else (false, { s with tombstones })
    | none =>
      (true, { s with
        tombstones
        peers := s.peers.insert entry.nodeId ⟨entry.turnAddr, entry.gossipAddr, entry.seq, now⟩ })

def applyLeaving (nodeId : String) (seq : UInt64) : Bool × GossipState :=
  let tombstones := s.tombstones.insert nodeId (seq, now + cfg.tombstoneGrace)
  if nodeId = cfg.nodeId then (false, s)
  else
    match s.peers.get nodeId with
    | some node => if node.seq < seq then (true, { s with peers := s.peers.remove nodeId, tombstones }) else (false, s)
    | none =>
      match s.tombstones.get nodeId with
      | some (tseq, _) => (false, if tseq < seq then { s with tombstones } else s)
      | none => (false, s)

def observeAll (first : Bool × GossipState) (entries : List PeerEntry) : Bool × GossipState :=
  entries.foldl (fun r entry =>
    let observed := observePeer cfg r.2 now entry false
    (r.1 || observed.1, observed.2)) first

def heard (src : SocketAddr) (msg : GossipMessage) : Bool × GossipState :=
  if msg.leaving then applyLeaving cfg s now msg.nodeId msg.seq
  else observePeer cfg s now ⟨msg.nodeId, msg.turnAddr, effectiveAddr msg.advertiseAddr src, msg.seq⟩ true

def receive (src : SocketAddr) (msg : GossipMessage) : GossipState :=
  if msg.clusterName ≠ cfg.clusterName then s
  else
    let r := observeAll cfg now (s.heard cfg now src msg) msg.peers
    if r.1 then r.2.publishTopology cfg else r.2

def tick (leaving : Bool) : GossipMessage × GossipState :=
  let s := { s with seq := s.seq + 1 }
  let peers := s.peers.retain fun _ node => now - node.lastSeen ≤ cfg.effectiveTimeout
  let s' := { s with peers, tombstones := s.tombstones.retain fun _ t => now < t.2 }
  (s.encodeFrame cfg leaving, if peers.len ≠ s.peers.len then s'.publishTopology cfg else s')

def announce : GossipMessage × GossipState :=
  let s := { s with seq := s.seq + 1 }
  (s.encodeFrame cfg true, s)

end GossipState

/-! ## What is known of one node -/

def SameAt (x : String) (s s' : GossipState) : Prop :=
  s'.peers.get x = s.peers.get x ∧ s'.tombstones.get x = s.tombstones.get x

theorem SameAt.trans {x : String} {s s' s'' : GossipState} (h : SameAt x s s') (h' : SameAt x s' s'') :
    SameAt x s s'' := ⟨h'.1.trans h.1, h'.2.trans h.2⟩

/-- An entry that says nothing new. -/
def Stale (s : GossipState) (entry : PeerEntry) : Prop :=
  (s.tombstones.get entry.nodeId).isSome ∨ ∃ node, s.peers.get entry.nodeId = some node ∧ entry.seq ≤ node.seq

section Slots

open GossipState

variable {cfg : GossipConfig} {s : GossipState} {now : Nat} {x : String} {entry : PeerEntry} {direct : Bool}

theorem observePeer_other (h : entry.nodeId ≠ x) : SameAt x s (observePeer cfg s now entry direct).2 := by
  have hNe : x ≠ entry.nodeId := Ne.symm h
  unfold observePeer
  split
  · exact ⟨rfl, rfl⟩
  split
  · exact ⟨rfl, rfl⟩
  cases direct <;> dsimp only <;> split <;> (try split) <;>
    simp [SameAt, get_insert_ne _ _ hNe, get_remove_ne _ hNe]

theorem observePeer_stale (h : Stale s entry) : observePeer cfg s now entry false = (false, s) := by
  unfold observePeer
  split
  · rfl
  split
  · rfl
  next hTomb =>
  rcases h with hSome | ⟨node, hNode, hSeq⟩
  · simp [HashMap.contains, hSome] at hTomb
  · simp [hNode, UInt64.not_lt.mpr hSeq]

theorem Stale.congr {s' : GossipState} (h : Stale s entry) (hSame : SameAt entry.nodeId s s') : Stale s' entry :=
  h.imp (hSame.2 ▸ ·) fun ⟨node, hNode, hSeq⟩ => ⟨node, hSame.1.trans hNode, hSeq⟩

theorem observeAll_same {entries : List PeerEntry} (first : Bool × GossipState)
    (h : ∀ e ∈ entries, e.nodeId = x → Stale first.2 e) : SameAt x first.2 (observeAll cfg now first entries).2 := by
  induction entries generalizing first with
  | nil => exact ⟨rfl, rfl⟩
  | cons e entries ih =>
    obtain ⟨hHead, hTail⟩ := List.forall_mem_cons.mp h
    have hStep : SameAt x first.2 (observePeer cfg first.2 now e false).2 := by
      by_cases hId : e.nodeId = x
      · rw [observePeer_stale (hHead hId)]
        exact ⟨rfl, rfl⟩
      · exact observePeer_other hId
    exact hStep.trans (ih _ fun e' he' hId => (hTail e' he' hId).congr (hId ▸ hStep))

theorem applyLeaving_other {nodeId : String} {seq : UInt64} (h : nodeId ≠ x) :
    SameAt x s (applyLeaving cfg s now nodeId seq).2 := by
  have hNe : x ≠ nodeId := Ne.symm h
  unfold applyLeaving
  split
  · exact ⟨rfl, rfl⟩
  split
  · split <;> simp [SameAt, get_insert_ne _ _ hNe, get_remove_ne _ hNe]
  split
  · dsimp only
    split <;> simp [SameAt, get_insert_ne _ _ hNe]
  · exact ⟨rfl, rfl⟩

variable {src : SocketAddr} {msg : GossipMessage}

theorem heard_other (h : msg.nodeId ≠ x) : SameAt x s (s.heard cfg now src msg).2 := by
  unfold heard
  split
  · exact applyLeaving_other h
  · exact observePeer_other h

theorem receive_slot (hCluster : msg.clusterName = cfg.clusterName) :
    SameAt x (observeAll cfg now (s.heard cfg now src msg) msg.peers).2 (s.receive cfg now src msg) := by
  unfold receive
  rw [if_neg (not_not.mpr hCluster)]
  dsimp only
  split <;> exact ⟨rfl, rfl⟩

theorem receive_same (hSender : msg.nodeId ≠ x)
    (hNews : ∀ e ∈ msg.peers, e.nodeId = x → Stale s e) : SameAt x s (s.receive cfg now src msg) := by
  by_cases hCluster : msg.clusterName = cfg.clusterName
  · have hHeard : SameAt x s (s.heard cfg now src msg).2 := heard_other hSender
    refine hHeard.trans ((observeAll_same _ fun e he hId => ?_).trans (receive_slot hCluster))
    exact (hNews e he hId).congr (hId ▸ hHeard)
  · rw [receive, if_pos hCluster]
    exact ⟨rfl, rfl⟩

theorem tick_slot (leaving : Bool) : (s.tick cfg now leaving).2.peers.get x =
        (s.peers.get x).filter (fun node => now - node.lastSeen ≤ cfg.effectiveTimeout) ∧
      (s.tick cfg now leaving).2.tombstones.get x = (s.tombstones.get x).filter (fun t => now < t.2) := by
  unfold tick
  dsimp only
  split <;> exact ⟨get_retain .., get_retain ..⟩

end Slots

/-! ## The ring follows the table -/

/-- The node is in no table of its own, and what it published has the others that are. -/
structure Sound (cfg : GossipConfig) (s : GossipState) : Prop where
  peer : s.peers.get cfg.nodeId = none
  tombstone : s.tombstones.get cfg.nodeId = none
  ring : ∀ id, id ∈ s.lastTopology.map ClusterNode.nodeId ↔ id = cfg.nodeId ∨ (s.peers.get id).isSome

/-- Without a change to be published the peers are the same. -/
def Quiet (s : GossipState) (r : Bool × GossipState) : Prop :=
  r.2.lastTopology = s.lastTopology ∧ (r.1 = false → ∀ id, (r.2.peers.get id).isSome = (s.peers.get id).isSome)

section Rings

open GossipState

variable {cfg : GossipConfig} {s : GossipState} {now : Nat}

theorem mem_topology (h : s.peers.get cfg.nodeId = none) (id : String) :
    id ∈ (s.topology cfg).map ClusterNode.nodeId ↔ id = cfg.nodeId ∨ (s.peers.get id).isSome := by
  have hKeys : ∀ id', id' ∈ s.peers.entries.map Prod.fst ↔ (s.peers.get id').isSome := by
    intro id'
    rw [isSome_iff_exists]
    exact mem_keys_iff
  have hIds : (s.peers.entries.map fun e => (⟨e.1, e.2.turnAddr⟩ : ClusterNode)).map ClusterNode.nodeId =
      s.peers.entries.map Prod.fst := by simp [Function.comp_def]
  have hDistinct : DistinctIds (⟨cfg.nodeId, cfg.turnAddr⟩ ::
      s.peers.entries.map fun e => ⟨e.1, e.2.turnAddr⟩) := by
    rw [DistinctIds, List.map_cons, hIds, List.nodup_cons, hKeys, h]
    exact ⟨nofun, s.peers.nodup_keys⟩
  have hSame : ∀ n, n ∈ s.topology cfg ↔ _ := fun n => mem_new hDistinct
  simp only [List.mem_map, hSame]
  rw [← List.mem_map, List.map_cons, hIds, List.mem_cons, hKeys]

theorem quiet_observePeer (entry : PeerEntry) (direct : Bool) : Quiet s (observePeer cfg s now entry direct) := by
  unfold observePeer
  split
  · exact ⟨rfl, fun _ _ => rfl⟩
  split
  · exact ⟨rfl, fun _ _ => rfl⟩
  dsimp only
  split
  · next node hNode =>
    split
    · refine ⟨rfl, fun _ id => ?_⟩
      rw [get_insert]
      split
      · next hId => simp [hId, hNode]
      · rfl
    · exact ⟨rfl, fun _ _ => rfl⟩
  · exact ⟨rfl, by rintro ⟨⟩⟩

theorem quiet_heard (src : SocketAddr) (msg : GossipMessage) : Quiet s (s.heard cfg now src msg) := by
  unfold heard applyLeaving
  split
  · split
    · exact ⟨rfl, fun _ _ => rfl⟩
    split
    · split
      · exact ⟨rfl, by rintro ⟨⟩⟩
      · exact ⟨rfl, fun _ _ => rfl⟩
    split
    · dsimp only
      split <;> exact ⟨rfl, fun _ _ => rfl⟩
    · exact ⟨rfl, fun _ _ => rfl⟩
  · exact quiet_observePeer _ _

theorem quiet_observeAll {first : Bool × GossipState} (h : Quiet s first) (entries : List PeerEntry) :
    Quiet s (observeAll cfg now first entries) := by
  induction entries generalizing first with
  | nil => exact h
  | cons e entries ih =>
    have hStep : Quiet first.2 (observePeer cfg first.2 now e false) := quiet_observePeer e false
    refine ih ⟨hStep.1.trans h.1, fun hFlag id => ?_⟩
    rw [Bool.or_eq_false_iff] at hFlag
    exact (hStep.2 hFlag.2 id).trans (h.2 hFlag.1 id)

theorem self_observePeer (entry : PeerEntry) (direct : Bool) :
    SameAt cfg.nodeId s (observePeer cfg s now entry direct).2 := by
  by_cases h : entry.nodeId = cfg.nodeId
  · rw [observePeer, if_pos h]
    exact ⟨rfl, rfl⟩
  · exact observePeer_other h

theorem self_heard (src : SocketAddr) (msg : GossipMessage) : SameAt cfg.nodeId s (s.heard cfg now src msg).2 := by
  unfold heard
  split
  · by_cases h : msg.nodeId = cfg.nodeId
    · rw [applyLeaving, if_pos h]
      exact ⟨rfl, rfl⟩
    · exact applyLeaving_other h
  · exact self_observePeer _ _

theorem self_observeAll (first : Bool × GossipState) (entries : List PeerEntry) :
    SameAt cfg.nodeId first.2 (observeAll cfg now first entries).2 := by
  induction entries generalizing first with
  | nil => exact ⟨rfl, rfl⟩
  | cons e entries ih => exact (self_observePeer e false).trans (ih _)

namespace Sound

theorem publish (hPeer : s.peers.get cfg.nodeId = none) (hTomb : s.tombstones.get cfg.nodeId = none) :
    Sound cfg (s.publishTopology cfg) :=
  ⟨hPeer, hTomb, fun id => mem_topology (s := s) hPeer id⟩

theorem start (cfg : GossipConfig) : Sound cfg (GossipState.start cfg) := publish rfl rfl

theorem receive (h : Sound cfg s) (src : SocketAddr) (msg : GossipMessage) : Sound cfg (s.receive cfg now src msg) := by
  have hSelf : SameAt cfg.nodeId s (observeAll cfg now (s.heard cfg now src msg) msg.peers).2 :=
    (self_heard src msg).trans (self_observeAll _ _)
  have hQuiet : Quiet s (observeAll cfg now (s.heard cfg now src msg) msg.peers) :=
    quiet_observeAll (quiet_heard src msg) _
  unfold GossipState.receive
  split
  · exact h
  dsimp only
  split
  · exact publish (hSelf.1.trans h.peer) (hSelf.2.trans h.tombstone)
  next hFlag =>
  refine ⟨hSelf.1.trans h.peer, hSelf.2.trans h.tombstone, fun id => ?_⟩
  rw [hQuiet.1, hQuiet.2 (Bool.eq_false_of_not_eq_true hFlag)]
  exact h.ring id

theorem tick (h : Sound cfg s) (leaving : Bool) : Sound cfg (s.tick cfg now leaving).2 := by
  have hPeer : ∀ p, (s.peers.retain p).get cfg.nodeId = none := fun p => by rw [get_retain, h.peer]; rfl
  have hTomb : ∀ p, (s.tombstones.retain p).get cfg.nodeId = none := fun p => by
    rw [get_retain, h.tombstone]; rfl
  unfold GossipState.tick
  dsimp only
  split
  · exact publish (hPeer _) (hTomb _)
  next hLen =>
  refine ⟨hPeer _, hTomb _, fun id => ?_⟩
  rw [get_retain]
  refine (h.ring id).trans (or_congr_right ?_)
  cases hGet : s.peers.get id with
  | none => simp
  | some node =>
    have hAll := retain_all (not_not.mp hLen) (mem_entries_iff.mpr hGet)
    simpa using hAll

end Sound

end Rings

/-! ## Leaving frames -/

structure GossipCluster where
  now : Nat
  nodes : String → GossipState
  sent : List GossipMessage

inductive GossipOp where
  | tick (n : String) (now : Nat) (leaving : Bool)
  | announce (n : String) (now : Nat)
  | deliver (n : String) (now : Nat) (src : SocketAddr) (msg : GossipMessage)

namespace GossipOp

def node : GossipOp → String
  | tick n _ _ => n
  | announce n _ => n
  | deliver n _ _ _ => n

def now : GossipOp → Nat
  | tick _ now _ => now
  | announce _ now => now
  | deliver _ now _ _ => now

def frame : GossipOp → Option GossipMessage
  | deliver _ _ _ msg => some msg
  | _ => none

end GossipOp

namespace GossipCluster

variable (config : String → GossipConfig)

def configOf (n : String) : GossipConfig := { config n with nodeId := n }

def start : GossipCluster := ⟨0, fun n => .start (configOf config n), []⟩

def stepAt (cfg : GossipConfig) (s : GossipState) : GossipOp → Option GossipMessage × GossipState
  | .tick _ now leaving => (s.tick cfg now leaving).map some id
  | .announce .. => (s.announce cfg).map some id
  | .deliver _ now src msg => (none, s.receive cfg now src msg)

def apply (c : GossipCluster) (op : GossipOp) : GossipCluster :=
  let r := stepAt (configOf config op.node) (c.nodes op.node) op
  ⟨op.now, Function.update c.nodes op.node r.2, r.1.toList ++ c.sent⟩

/-- Time does not go back, and a frame is delivered only after it was sent. -/
def InOrder (c : GossipCluster) (op : GossipOp) : Prop := c.now ≤ op.now ∧ ∀ msg ∈ op.frame, msg ∈ c.sent

/-- `x` sends nothing any more, and none of its frames is under way. -/
def Silent (x : String) (c : GossipCluster) (op : GossipOp) : Prop :=
  InOrder c op ∧ (op.frame = none → op.node ≠ x) ∧ ∀ msg ∈ op.frame, msg.nodeId ≠ x

/-- No frame brings news of `x` either. -/
def Departed (x : String) (c : GossipCluster) (op : GossipOp) : Prop :=
  Silent x c op ∧ ∀ msg ∈ op.frame, ∀ e ∈ msg.peers, e.nodeId = x → Stale (c.nodes op.node) e

/-- Who does not have `x` does not get it again, and a tick after the timeout leaves it in no ring. -/
def StaysGone (x : String) (c : GossipCluster) (after : List GossipOp) : Prop :=
  ∀ n ≠ x,
    (∀ pre, pre <+: after → ((Trace.run (apply config) c pre).nodes n).peers.get x = none →
      ((Trace.run (apply config) c after).nodes n).peers.get x = none) ∧
    ∀ t leaving, .tick n t leaving ∈ after → c.now + (config n).effectiveTimeout < t →
      x ∉ ((Trace.run (apply config) c after).nodes n).lastTopology.map ClusterNode.nodeId

end GossipCluster

def Recent (now : Nat) (s : GossipState) : Prop := ∀ y node, s.peers.get y = some node → node.lastSeen ≤ now

section Recent

open GossipState

variable {cfg : GossipConfig} {s : GossipState} {now : Nat}

theorem recent_observePeer (h : Recent now s) (entry : PeerEntry) (direct : Bool) :
    Recent now (observePeer cfg s now entry direct).2 := by
  have hInsert (node : GossipNode) (hNow : node.lastSeen = now) (tombstones : HashMap String (UInt64 × Nat)) :
      Recent now { s with tombstones, peers := s.peers.insert entry.nodeId node } := by
    intro y node' hGet
    obtain ⟨-, rfl⟩ | hOld := HashMap.get_insert_cases hGet
    · exact hNow.le
    · exact h y node' hOld
  unfold observePeer
  split
  · exact h
  split
  · exact h
  dsimp only
  split
  · split
    · exact hInsert _ rfl _
    · exact h
  · exact hInsert _ rfl _

theorem recent_heard (h : Recent now s) (src : SocketAddr) (msg : GossipMessage) :
    Recent now (s.heard cfg now src msg).2 := by
  unfold heard applyLeaving
  split
  · split
    · exact h
    split
    · split
      · intro y node hGet
        exact h y node (HashMap.get_of_get_remove hGet)
      · exact h
    · split
      · dsimp only
        split <;> exact h
      · exact h
  · exact recent_observePeer h _ _

theorem Recent.receive (h : Recent now s) (src : SocketAddr) (msg : GossipMessage) :
    Recent now (s.receive cfg now src msg) := by
  have hAll (entries : List PeerEntry) (first : Bool × GossipState) (hFirst : Recent now first.2) :
      Recent now (observeAll cfg now first entries).2 := by
    induction entries generalizing first with
    | nil => exact hFirst
    | cons e entries ih => exact ih _ (recent_observePeer hFirst e false)
  unfold GossipState.receive
  split
  · exact h
  dsimp only
  split <;> exact hAll _ _ (recent_heard h src msg)

end Recent

namespace GossipCluster

variable {config : String → GossipConfig} {x : String} {c : GossipCluster} {op : GossipOp}

theorem nodes_apply (n : String) : (apply config c op).nodes n =
    if n = op.node then (stepAt (configOf config n) (c.nodes n) op).2 else c.nodes n := by
  refine (Function.update_apply ..).trans ?_
  split
  · next h => rw [h]
  · rfl

variable {node : GossipNode}

theorem tick_some {cfg : GossipConfig} {s : GossipState} {now : Nat} (leaving : Bool)
    (h : (s.tick cfg now leaving).2.peers.get x = some node) :
    s.peers.get x = some node ∧ now - node.lastSeen ≤ cfg.effectiveTimeout := by
  rw [(tick_slot leaving).1, filter_eq_some_iff] at h
  exact h.imp_right of_decide_eq_true

structure Kept (config : String → GossipConfig) (c : GossipCluster) : Prop where
  sound : ∀ n, Sound (configOf config n) (c.nodes n)
  recent : ∀ n, Recent c.now (c.nodes n)

theorem Kept.apply (h : Kept config c) (hOrder : InOrder c op) : Kept config (apply config c op) := by
  constructor
  · intro n
    rw [nodes_apply]
    split
    · cases op with
      | tick _ now leaving => exact (h.sound n).tick leaving
      | announce => exact ⟨(h.sound n).peer, (h.sound n).tombstone, (h.sound n).ring⟩
      | deliver _ now src msg => exact (h.sound n).receive src msg
    · exact h.sound n
  · intro n
    have hRecent : Recent op.now (c.nodes n) := fun y node hGet => (h.recent n y node hGet).trans hOrder.1
    rw [nodes_apply]
    split
    · cases op with
      | tick _ now leaving => exact fun y node hGet => hRecent y node (tick_some leaving hGet).1
      | announce => exact hRecent
      | deliver _ now src msg => exact hRecent.receive src msg
    · exact hRecent

/-- Step lemma: where `x` is still known, nothing new is known of it. -/
theorem Departed.slot (h : Departed x c op) {n : String}
    (hGet : ((apply config c op).nodes n).peers.get x = some node) : (c.nodes n).peers.get x = some node ∧
      ∀ t leaving, op = .tick n t leaving → t - node.lastSeen ≤ (config n).effectiveTimeout := by
  rw [nodes_apply] at hGet
  split at hGet
  · next hNode =>
    cases op with
    | tick _ now leaving =>
      obtain ⟨hOld, hFresh⟩ := tick_some leaving hGet
      refine ⟨hOld, ?_⟩
      rintro _ _ ⟨⟩
      exact hFresh
    | announce => exact ⟨hGet, by rintro _ _ ⟨⟩⟩
    | deliver _ now src msg =>
      subst hNode
      exact ⟨(receive_same (h.1.2.2 msg rfl) (h.2 msg rfl)).1.symm.trans hGet, by rintro _ _ ⟨⟩⟩
  · next hOther =>
    refine ⟨hGet, ?_⟩
    rintro t leaving rfl
    exact absurd rfl hOther

/-- A node that departed stays gone in every run in which no frame brings news of it. -/
theorem departed_stays_gone (config : String → GossipConfig) (x : String) (before after : List GossipOp)
    (hBefore : Trace.Allowed (apply config) InOrder (start config) before)
    (hAfter : Trace.Allowed (apply config) (Departed x) (Trace.run (apply config) (start config) before) after) :
    StaysGone config x (Trace.run (apply config) (start config) before) after := by
  have hKept : Kept config (Trace.run (apply config) (start config) before) :=
    hBefore.invariant _ (fun _ _ h hOrder => h.apply hOrder) ⟨fun _ => .start _, nofun⟩
  generalize Trace.run (apply config) (start config) before = c at hAfter hKept
  intro n hNe
  have hGone (c' : GossipCluster) (ops : List GossipOp) (hOps : Trace.Allowed (apply config) (Departed x) c' ops)
      (hNone : (c'.nodes n).peers.get x = none) : ((Trace.run (apply config) c' ops).nodes n).peers.get x = none := by
    refine hOps.invariant (fun c => (c.nodes n).peers.get x = none) (fun c op hNone hOp => ?_) hNone
    rw [Option.eq_none_iff_forall_ne_some] at hNone ⊢
    exact fun node hGet => hNone node (hOp.slot hGet).1
  constructor
  · rintro pre ⟨rest, rfl⟩ hNone
    rw [Trace.run_append]
    exact hGone _ rest (Trace.allowed_append.mp hAfter).2 hNone
  intro t leaving hTick hLate hRing
  obtain ⟨pre, rest, rfl⟩ := List.append_of_mem hTick
  obtain ⟨hPre, hOp, hRest⟩ := Trace.allowed_append.mp hAfter
  -- What is known of `x` was last seen before it fell silent.
  have hOld : ∀ node, ((Trace.run (apply config) c pre).nodes n).peers.get x = some node → node.lastSeen ≤ c.now :=
    hPre.invariant (fun c' : GossipCluster => ∀ node, (c'.nodes n).peers.get x = some node → node.lastSeen ≤ c.now)
      (fun c' op h hOp node hGet => h node (hOp.slot hGet).1) (hKept.recent n x)
  have hEnd : Kept config (Trace.run (apply config) c (pre ++ .tick n t leaving :: rest)) :=
    hAfter.invariant _ (fun _ _ h hOp => h.apply hOp.1.1) hKept
  rw [(hEnd.sound n).ring] at hRing
  refine absurd (hRing.resolve_left (Ne.symm hNe)) ?_
  rw [Trace.run_append, Option.not_isSome_iff_eq_none]
  refine hGone _ rest hRest (Option.eq_none_iff_forall_ne_some.mpr fun node hGet => ?_)
  obtain ⟨hBefore', hFresh⟩ := hOp.slot hGet
  have hSeen := hOld node hBefore'
  have hFresh := hFresh t leaving rfl
  omega

/-! ### A node that comes back -/

def sameConfig (_ : String) : GossipConfig :=
  ⟨"", .v4 ⟨10, 0, 0, 1⟩ 3478, 2000, 30000, "turna", .v4 ⟨10, 0, 0, 1⟩ 7946⟩

def firstFrame (n : String) (peers : List PeerEntry) : GossipMessage :=
  ⟨"turna", n, (sameConfig n).turnAddr, 1, (sameConfig n).advertiseAddr, peers, false⟩

def hears (n sender : String) (now : Nat) (peers : List PeerEntry) : GossipOp :=
  .deliver n now (sameConfig sender).advertiseAddr (firstFrame sender peers)

theorem departed_stays_gone_alone : StaysGone sameConfig "x"
    (Trace.run (apply sameConfig) (start sameConfig) [.tick "x" 0 false, hears "a" "x" 0 []])
    [.tick "a" 31000 false] :=
  departed_stays_gone sameConfig "x" _ _
    ⟨⟨by decide, nofun⟩, ⟨by decide, by rintro _ ⟨⟩; decide +kernel⟩, trivial⟩
    ⟨⟨⟨⟨by decide, nofun⟩, fun _ => by decide, nofun⟩, nofun⟩, trivial⟩

/-- `b` gets the last frame of `x` late and lists it again. -/
theorem departed_returns :
    let apply := apply sameConfig
    let before : List GossipOp := [.tick "x" 0 false, hears "a" "x" 0 [], hears "b" "x" 20000 []]
    let after : List GossipOp := [.tick "a" 31000 false, .tick "b" 32000 false,
      hears "a" "b" 32000 [⟨"x", (sameConfig "x").turnAddr, (sameConfig "x").advertiseAddr, 1⟩]]
    Trace.Allowed apply InOrder (start sameConfig) before ∧
      Trace.Allowed apply (Silent "x") (Trace.run apply (start sameConfig) before) after ∧
      ¬StaysGone sameConfig "x" (Trace.run apply (start sameConfig) before) after := by
  refine ⟨⟨⟨by decide, nofun⟩, ⟨by decide, ?_⟩, ⟨by decide, ?_⟩, trivial⟩,
    ⟨⟨⟨by decide, nofun⟩, fun _ => by decide, nofun⟩, ⟨⟨by decide, nofun⟩, fun _ => by decide, nofun⟩,
      ⟨⟨by decide, ?_⟩, nofun, ?_⟩, trivial⟩, fun h => ?_⟩
  iterate 4
    · rintro _ ⟨⟩
      decide +kernel
  have hAgain := (h "a" (by decide)).1 [.tick "a" 31000 false] ⟨_, rfl⟩ (by decide +kernel)
  revert hAgain
  decide +kernel

end GossipCluster

/-! ## One receiver -/

/-- A node with the frames of the peer, and those followed by a frame that is not leaving. -/
structure Receiver where
  state : GossipState
  sent : List GossipMessage
  passed : List GossipMessage

inductive Arrival where
  | direct (now : Nat) (src : SocketAddr) (msg : GossipMessage)
  | replay (now : Nat) (src : SocketAddr) (msg : GossipMessage)
  | other (now : Nat) (src : SocketAddr) (msg : GossipMessage)
  | tick (now : Nat) (leaving : Bool)

namespace Receiver

variable (cfg : GossipConfig) (x : String)

def start : Receiver := ⟨.start cfg, [], []⟩

def apply (r : Receiver) : Arrival → Receiver
  | .direct now src msg =>
    ⟨r.state.receive cfg now src msg, msg :: r.sent, if msg.leaving then r.passed else r.sent⟩
  | .replay now src msg => { r with state := r.state.receive cfg now src msg }
  | .other now src msg => { r with state := r.state.receive cfg now src msg }
  | .tick now leaving => { r with state := (r.state.tick cfg now leaving).2 }

def From (msg : GossipMessage) : Prop := msg.nodeId = x ∧ msg.clusterName = cfg.clusterName

def Genuine (r : Receiver) : Arrival → Prop
  | .direct _ _ msg => From cfg x msg
  | .replay _ _ msg => msg ∈ r.passed ∧ msg.leaving = true ∧ From cfg x msg
  | .other _ _ msg => msg.nodeId ≠ x
  | .tick .. => True

/-- No frame of `x` that is not leaving, and no tick that drops its tombstone. -/
def Hushed (r : Receiver) (e : Arrival) : Prop :=
  Genuine cfg x r e ∧
    match e with
    | .direct _ _ msg => msg.leaving = true
    | .tick now _ => ∀ t ∈ r.state.tombstones.get x, now < t.2
    | _ => True

def ring (r : Receiver) : List String := r.state.lastTopology.map ClusterNode.nodeId

/-- A leave makes `x` absent for as long as it is hushed, and a replayed one does not remove it. -/
def Honours (r : Receiver) (e : Arrival) : Prop :=
  match e with
  | .direct _ _ msg => msg.leaving = true →
    ∀ more, Trace.Allowed (apply cfg) (Hushed cfg x) (apply cfg r e) more →
      x ∉ (Trace.run (apply cfg) (apply cfg r e) more).ring
  | .replay .. => x ∈ r.ring → x ∈ (apply cfg r e).ring
  | _ => True

/-- A leave has a number above the stored one, or `x` is absent and has a tombstone; a replayed one has not. -/
def Ordered (r : Receiver) : Arrival → Prop
  | .direct _ _ msg => msg.leaving = true → (∀ node, r.state.peers.get x = some node → node.seq < msg.seq) ∧
      (r.state.peers.get x = none → (r.state.tombstones.get x).isSome)
  | .replay _ _ msg => ∀ node, r.state.peers.get x = some node → msg.seq ≤ node.seq
  | _ => True

end Receiver

def Gone (x : String) (s : GossipState) : Prop := s.peers.get x = none ∧ (s.tombstones.get x).isSome

section Frames

open GossipState

variable {cfg : GossipConfig} {x : String} {s : GossipState} {now : Nat} {src : SocketAddr} {msg : GossipMessage}

theorem Gone.congr {s' : GossipState} (h : Gone x s) (hSame : SameAt x s s') : Gone x s' :=
  ⟨hSame.1.trans h.1, hSame.2 ▸ h.2⟩

theorem Gone.stale (h : Gone x s) (entry : PeerEntry) (hId : entry.nodeId = x) : Stale s entry := .inl (hId ▸ h.2)

theorem observeAll_keeps (first : Bool × GossipState) (entries : List PeerEntry) :
    (observeAll cfg now first entries).2.tombstones = first.2.tombstones ∧
      ((first.2.peers.get x).isSome → ((observeAll cfg now first entries).2.peers.get x).isSome) := by
  induction entries generalizing first with
  | nil => exact ⟨rfl, id⟩
  | cons e entries ih =>
    have hStep : (observePeer cfg first.2 now e false).2.tombstones = first.2.tombstones ∧
        ((first.2.peers.get x).isSome → ((observePeer cfg first.2 now e false).2.peers.get x).isSome) := by
      unfold observePeer
      split
      · exact ⟨rfl, id⟩
      split
      · exact ⟨rfl, id⟩
      have hInsert (node : GossipNode) (h : (first.2.peers.get x).isSome) :
          ((first.2.peers.insert e.nodeId node).get x).isSome := by
        rw [get_insert]
        split
        · rfl
        · exact h
      dsimp only
      split
      · split
        · exact ⟨rfl, hInsert _⟩
        · exact ⟨rfl, id⟩
      · exact ⟨rfl, hInsert _⟩
    obtain ⟨hTombs, hPeer⟩ := ih (first.1 || (observePeer cfg first.2 now e false).1, (observePeer cfg first.2 now e false).2)
    exact ⟨hTombs.trans hStep.1, hPeer ∘ hStep.2⟩

theorem gone_of_leaving (hFrom : Receiver.From cfg x msg) (hLeaving : msg.leaving = true) (hMe : x ≠ cfg.nodeId)
    (hAbove : ∀ node, s.peers.get x = some node → node.seq < msg.seq)
    (hTomb : s.peers.get x = none → (s.tombstones.get x).isSome) : Gone x (s.receive cfg now src msg) := by
  obtain ⟨rfl, hCluster⟩ := hFrom
  have hHeard : Gone msg.nodeId (s.heard cfg now src msg).2 := by
    rw [heard, if_pos hLeaving, applyLeaving, if_neg hMe]
    cases hGet : s.peers.get msg.nodeId with
    | some node =>
      dsimp only
      rw [if_pos (hAbove node hGet)]
      exact ⟨get_remove_self .., by rw [get_insert_self]; rfl⟩
    | none =>
      obtain ⟨⟨tseq, until'⟩, hSome⟩ := isSome_iff_exists.mp (hTomb hGet)
      rw [hSome]
      dsimp only
      split
      · exact ⟨hGet, by rw [get_insert_self]; rfl⟩
      · exact ⟨hGet, by rw [hSome]; rfl⟩
  exact (hHeard.congr (observeAll_same _ fun e _ hId => hHeard.stale e hId)).congr (receive_slot hCluster)

theorem leaving_ignored (hFrom : Receiver.From cfg x msg) (hLeaving : msg.leaving = true)
    (hNot : (∃ node, s.peers.get x = some node ∧ msg.seq ≤ node.seq) ∨
      s.peers.get x = none ∧ s.tombstones.get x = none) :
    (s.receive cfg now src msg).tombstones.get x = s.tombstones.get x ∧
      ((s.peers.get x).isSome → ((s.receive cfg now src msg).peers.get x).isSome) := by
  obtain ⟨rfl, hCluster⟩ := hFrom
  have hHeard : s.heard cfg now src msg = (false, s) := by
    rw [heard, if_pos hLeaving, applyLeaving]
    rcases hNot with ⟨node, hGet, hSeq⟩ | ⟨hGet, hTomb⟩
    · simp [hGet, UInt64.not_lt.mpr hSeq]
    · simp [hGet, hTomb]
  have hSlot : SameAt msg.nodeId _ (s.receive cfg now src msg) := receive_slot hCluster
  rw [hHeard] at hSlot
  obtain ⟨hTombs, hPeer⟩ := @observeAll_keeps cfg msg.nodeId now (false, s) msg.peers
  exact ⟨hSlot.2.trans (congrArg (get · msg.nodeId) hTombs), fun h => hSlot.1 ▸ hPeer h⟩

def listing (cfg : GossipConfig) (x : String) (msg : GossipMessage) : GossipMessage :=
  { msg with
    nodeId := cfg.nodeId
    peers := [⟨x, msg.turnAddr, msg.advertiseAddr, 0⟩] }

theorem listed_present (hCluster : msg.clusterName = cfg.clusterName) (hMe : x ≠ cfg.nodeId)
    (hTomb : s.tombstones.get x = none) : ((s.receive cfg now src (listing cfg x msg)).peers.get x).isSome := by
  have hHeard : s.heard cfg now src (listing cfg x msg) = (false, s) := by
    simp [listing, heard, applyLeaving, observePeer]
  have hSlot : SameAt x _ (s.receive cfg now src (listing cfg x msg)) := receive_slot hCluster
  rw [hSlot.1, hHeard]
  cases hGet : s.peers.get x with
  | none => simp [listing, observeAll, observePeer, hMe, HashMap.contains, hTomb, hGet, get_insert_self]
  | some node => exact (@observeAll_keeps cfg x now (false, s) _).2 (by rw [hGet]; rfl)

end Frames

namespace Receiver

variable {cfg : GossipConfig} {x : String} {r : Receiver} {e : Arrival}

theorem sound_apply (h : Sound cfg r.state) (e : Arrival) : Sound cfg (apply cfg r e).state := by
  cases e with
  | tick now leaving => exact h.tick leaving
  | _ => exact h.receive _ _

theorem sound_run (h : Sound cfg r.state) (events : List Arrival) : Sound cfg (Trace.run (apply cfg) r events).state :=
  Trace.run_invariant (fun r : Receiver => Sound cfg r.state) (fun _ e h => sound_apply h e) events h

/-- What a node has published is never behind its table of peers. -/
theorem published_ring (cfg : GossipConfig) (events : List Arrival) (id : String) :
    id ∈ (Trace.run (apply cfg) (start cfg) events).ring ↔
      id = cfg.nodeId ∨ ((Trace.run (apply cfg) (start cfg) events).state.peers.get id).isSome :=
  (sound_run (.start cfg) events).ring id

theorem mem_ring (h : Sound cfg r.state) (hMe : x ≠ cfg.nodeId) : x ∈ r.ring ↔ (r.state.peers.get x).isSome :=
  (h.ring x).trans (or_iff_right hMe)

theorem gone_apply (hMe : x ≠ cfg.nodeId) (h : Gone x r.state) (hHushed : Hushed cfg x r e) :
    Gone x (apply cfg r e).state := by
  have hLeave {now : Nat} {src : SocketAddr} {msg : GossipMessage} (hFrom : From cfg x msg)
      (hLeaving : msg.leaving = true) : Gone x (r.state.receive cfg now src msg) :=
    gone_of_leaving hFrom hLeaving hMe (fun node hGet => by rw [h.1] at hGet; cases hGet) fun _ => h.2
  cases e with
  | direct now src msg => exact hLeave hHushed.1 hHushed.2
  | replay now src msg => exact hLeave hHushed.1.2.2 hHushed.1.2.1
  | other now src msg => exact h.congr (receive_same hHushed.1 fun e _ hId => h.stale e hId)
  | tick now leaving =>
    obtain ⟨t, hTomb⟩ := isSome_iff_exists.mp h.2
    refine ⟨(tick_slot leaving).1.trans (by rw [h.1]; rfl), ?_⟩
    have hSlot : (apply cfg r (.tick now leaving)).state.tombstones.get x = _ := (tick_slot leaving).2
    rw [hSlot, hTomb, filter_some, if_pos (decide_eq_true (hHushed.2 t hTomb))]
    rfl

theorem honours_iff (hMe : x ≠ cfg.nodeId) (h : Sound cfg r.state) (hGenuine : Genuine cfg x r e) :
    Honours cfg x r e ↔ Ordered x r e := by
  cases e with
  | direct now src msg =>
    refine forall_congr' fun hLeaving => ⟨fun hAbsent => ?_, fun hOrder more hMore => ?_⟩
    · have hAfter := sound_apply h (.direct now src msg)
      constructor
      · intro node hGet
        by_contra hBelow
        have hIgnored := @leaving_ignored cfg x r.state now src msg hGenuine hLeaving
          (.inl ⟨node, hGet, UInt64.not_lt.mp hBelow⟩)
        exact hAbsent [] trivial ((mem_ring hAfter hMe).mpr (hIgnored.2 (by rw [hGet]; rfl)))
      · intro hGet
        by_contra hTomb
        rw [not_isSome_iff_eq_none] at hTomb
        have hIgnored := @leaving_ignored cfg x r.state now src msg hGenuine hLeaving (.inr ⟨hGet, hTomb⟩)
        -- The next frame of anybody that lists the peer brings it back.
        refine hAbsent [.other now src (listing cfg x msg)] ⟨⟨Ne.symm hMe, trivial⟩, trivial⟩
          ((mem_ring (sound_run hAfter _) hMe).mpr ?_)
        exact listed_present hGenuine.2 hMe (hIgnored.1.trans hTomb)
    · have hGone : Gone x (Trace.run (apply cfg) (apply cfg r (.direct now src msg)) more).state :=
        hMore.invariant (fun r : Receiver => Gone x r.state) (fun _ _ hGone hHushed => gone_apply hMe hGone hHushed)
          (gone_of_leaving hGenuine hLeaving hMe hOrder.1 hOrder.2)
      rw [mem_ring (sound_run (sound_apply h _) more) hMe, hGone.1]
      exact Bool.false_ne_true
  | replay now src msg =>
    obtain ⟨-, hLeaving, hFrom⟩ := hGenuine
    have hAfter := sound_apply h (.replay now src msg)
    rw [Honours, mem_ring h hMe, mem_ring hAfter hMe]
    constructor
    · intro hStays node hGet
      by_contra hAbove
      have hGone : Gone x (r.state.receive cfg now src msg) :=
        gone_of_leaving hFrom hLeaving hMe (fun node' hGet' => by
          rw [hGet] at hGet'
          cases hGet'
          exact UInt64.not_le.mp hAbove) fun hNone => by rw [hGet] at hNone; cases hNone
      have hSome : ((apply cfg r (.replay now src msg)).state.peers.get x).isSome := hStays (by rw [hGet]; rfl)
      rw [show (apply cfg r (.replay now src msg)).state.peers.get x = none from hGone.1] at hSome
      cases hSome
    · intro hBelow hSome
      obtain ⟨node, hGet⟩ := isSome_iff_exists.mp hSome
      exact (leaving_ignored hFrom hLeaving (.inl ⟨node, hGet, hBelow node hGet⟩)).2 hSome
  | other | tick => exact Iff.rfl

/-- Leaves and their copies are told apart in exactly the runs whose numbers are in order. -/
theorem leaves_honoured_iff (cfg : GossipConfig) (x : String) (hMe : x ≠ cfg.nodeId) (events : List Arrival)
    (hEvents : Trace.Allowed (apply cfg) (Genuine cfg x) (start cfg) events) :
    (∀ pre, pre <+: events → cfg.nodeId ∈ (Trace.run (apply cfg) (start cfg) pre).ring ∧
      (Trace.run (apply cfg) (start cfg) pre).state.tombstones.get cfg.nodeId = none) ∧
    (Trace.Allowed (apply cfg) (Honours cfg x) (start cfg) events ↔
      Trace.Allowed (apply cfg) (Ordered x) (start cfg) events) := by
  have hSound : Sound cfg (start cfg).state := .start cfg
  have hStep (ok : Receiver → Arrival → Prop) (r : Receiver) (e : Arrival) (h : Sound cfg r.state) (_ : ok r e) :
      Sound cfg (apply cfg r e).state := sound_apply h e
  refine ⟨fun pre _ => ?_, fun h => ?_, fun h => ?_⟩
  · have hPre := sound_run hSound pre
    exact ⟨(hPre.ring _).mpr (.inl rfl), hPre.tombstone⟩
  · exact (hEvents.and h).imp (hStep _) (fun r e hR hOk => (honours_iff hMe hR hOk.1).mp hOk.2) hSound
  · exact (hEvents.and h).imp (hStep _) (fun r e hR hOk => (honours_iff hMe hR hOk.1).mpr hOk.2) hSound

/-! ### Restarts -/

def receiverConfig : GossipConfig := GossipCluster.configOf GossipCluster.sameConfig "a"

def sentBy (seq : UInt64) (leaving : Bool) : GossipMessage :=
  { GossipCluster.firstFrame "x" [] with
    seq
    leaving }

def hearsX (seq : UInt64) (leaving : Bool) : Arrival :=
  .direct 0 receiverConfig.advertiseAddr (sentBy seq leaving)

theorem leaves_honoured_twice : Trace.Allowed (apply receiverConfig) (Honours receiverConfig "x") (start receiverConfig)
    [hearsX 1 false, hearsX 2 true, hearsX 3 true] :=
  (leaves_honoured_iff receiverConfig "x" (by decide) [hearsX 1 false, hearsX 2 true, hearsX 3 true]
    ⟨⟨rfl, rfl⟩, ⟨rfl, rfl⟩, ⟨rfl, rfl⟩, trivial⟩).2.mpr
    ⟨nofun, fun _ => ⟨by decide +kernel, by decide +kernel⟩, fun _ => ⟨by decide +kernel, by decide +kernel⟩, trivial⟩

/-- After a restart a leave is taken for an old one, and a copy of an old one for a leave. -/
theorem restart_confuses_leaves :
    let run := Trace.Allowed (apply receiverConfig) (Genuine receiverConfig "x") (start receiverConfig)
    let honoured := Trace.Allowed (apply receiverConfig) (Honours receiverConfig "x") (start receiverConfig)
    let late := [hearsX 1 false, hearsX 2 false, hearsX 1 false, hearsX 2 true]
    let copied := [hearsX 1 false, hearsX 2 true, hearsX 1 false,
      .replay 0 receiverConfig.advertiseAddr (sentBy 2 true)]
    (run late ∧ ¬honoured late) ∧ run copied ∧ ¬honoured copied := by
  refine ⟨⟨⟨⟨rfl, rfl⟩, ⟨rfl, rfl⟩, ⟨rfl, rfl⟩, ⟨rfl, rfl⟩, trivial⟩, ?_⟩,
    ⟨⟨rfl, rfl⟩, ⟨rfl, rfl⟩, ⟨rfl, rfl⟩, ⟨by decide +kernel, rfl, rfl, rfl⟩, trivial⟩, ?_⟩
  · rintro ⟨-, -, -, hLeave, -⟩
    exact hLeave rfl [] trivial (by decide +kernel)
  · rintro ⟨-, -, -, hCopy, -⟩
    exact absurd (hCopy (by decide +kernel)) (by decide +kernel)

end Receiver

end Turna.Cluster
