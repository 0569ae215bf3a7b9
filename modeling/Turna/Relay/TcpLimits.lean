import Mathlib.Algebra.Order.Group.Multiset
import Mathlib.Data.Multiset.Bind
import Turna.Relay.TcpMachine

/-! # The limits of the TCP relay

A connection counts from the moment it is entered in the manager, also while an operation has taken its entry out to
put it back. Its peer is the one of the request that it was entered for.
-/

namespace Turna.Relay
open Lib Net HashMap Multiset TcpRelayManager

def ConnState.peer : ConnState → Option SocketAddr
  | .waitingForBind _ peer _ _ => some peer
  | .claimed _ peer _ => some peer
  | .bound _ => none

def listedConns (conns : HashMap TcpConnectionId ConnState) : Multiset (TcpConnectionId × AllocationId) :=
  (conns.entries.map fun e => (e.1, e.2.alloc) : List (TcpConnectionId × AllocationId))

namespace TcpCall

def inTransit : TcpCall → Multiset (TcpConnectionId × AllocationId)
  | .attaching task => {(task.id, task.alloc)}
  | .restoring id state => {(id, state.alloc)}
  | _ => 0

def restores (id : TcpConnectionId) : TcpCall → Bool
  | .restoring id' _ => id' = id
  | _ => false

end TcpCall

namespace TcpWorld

variable (s : TcpWorld)

def connections (calls : Multiset TcpCall) : Multiset (TcpConnectionId × AllocationId) :=
  listedConns s.manager.conns + calls.bind TcpCall.inTransit

def peerOf (id : TcpConnectionId) : Option SocketAddr :=
  s.log.findSome? fun
    | .entered id' r => if id' = id then some r.peer else none
    | _ => none

def key (c : TcpConnectionId × AllocationId) : AllocationId × Option SocketAddr := (c.2, s.peerOf c.1)

structure WithinLimits (config : TcpRelayConfig) (calls : Multiset TcpCall) : Prop where
  total : (s.connections calls).card ≤ config.maxTotal
  perAllocation : ∀ alloc, (s.connections calls).countP (fun c => c.2 = alloc) ≤ config.maxPerAllocation
  ids : ((s.connections calls).map Prod.fst).Nodup
  peers : ((s.connections calls).map s.key).Nodup
  streams : ∀ id alloc, s.manager.conns.get id = some (.bound alloc) → ∃ task, .relaying task ∈ calls ∧ task.id = id
  entryPeer : ∀ id state peer, s.manager.conns.get id = some state → state.peer = some peer → s.peerOf id = some peer
  attachPeer : ∀ task, .attaching task ∈ calls → s.peerOf task.id = some task.peer

end TcpWorld

/-- A connection is entered under an unused id, while there is room and none to the peer; no relay ends while a
release has its entry. -/
def orderly (s : TcpWorld) (rest : Multiset TcpCall) : Label TcpCall DialOutcome → Bool
  | .advance (.minted id r _) _ =>
    decide ((s.connections rest).card < s.manager.config.maxTotal ∧
      (s.connections rest).countP (fun c => c.2 = r.alloc) < s.manager.config.maxPerAllocation ∧
      id ∉ (s.connections rest).map Prod.fst ∧ (r.alloc, some r.peer) ∉ (s.connections rest).map s.key)
  | .advance (.relaying task) _ => decide (∀ call ∈ rest, call.restores task.id = false)
  | _ => true

/-! ## How the connections change -/

section Listed

variable {conns conns' : HashMap TcpConnectionId ConnState} {id : TcpConnectionId} {state : ConnState}

theorem mem_listedConns {c : TcpConnectionId × AllocationId} :
    c ∈ listedConns conns ↔ ∃ state, conns.get c.1 = some state ∧ state.alloc = c.2 := by
  rw [listedConns, mem_coe, List.mem_map]
  constructor
  · rintro ⟨⟨id, state⟩, hMem, rfl⟩
    exact ⟨state, mem_entries_iff.mp hMem, rfl⟩
  · rintro ⟨state, hGet, hAlloc⟩
    exact ⟨(c.1, state), mem_entries_iff.mpr hGet, Prod.ext rfl hAlloc⟩

theorem listedConns_insert (h : conns.get id = none) (state : ConnState) :
    listedConns (conns.insert id state) = (id, state.alloc) ::ₘ listedConns conns := by
  rw [listedConns, entries_insert_of_none _ _ h]
  rfl

theorem listedConns_remove (h : conns.get id = some state) :
    listedConns conns = (id, state.alloc) ::ₘ listedConns (conns.remove id) := by
  have hPerm := (entries_perm_remove h).map fun e : TcpConnectionId × ConnState => (e.1, e.2.alloc)
  exact coe_eq_coe.mpr hPerm

theorem listedConns_remove_le (id : TcpConnectionId) : listedConns (conns.remove id) ≤ listedConns conns := by
  cases hGet : conns.get id with
  | none => rw [remove_of_get_none hGet]
  | some state =>
    rw [listedConns_remove hGet]
    exact le_cons_self _ _

theorem listedConns_foldl_remove_le (ids : List TcpConnectionId) :
    listedConns (ids.foldl remove conns) ≤ listedConns conns := by
  induction ids generalizing conns with
  | nil => exact le_rfl
  | cons id ids ih => exact ih.trans (listedConns_remove_le id)

theorem listedConns_congr (h : ∀ id, conns'.get id = conns.get id) : listedConns conns' = listedConns conns := by
  refine coe_eq_coe.mpr (List.Perm.map _ ?_)
  rw [List.perm_ext_iff_of_nodup conns'.nodup_entries conns.nodup_entries]
  rintro ⟨id, state⟩
  rw [mem_entries_iff, mem_entries_iff, h]

end Listed

namespace TcpWorld

variable {s s' : TcpWorld} {call call' : TcpCall} {rest calls : Multiset TcpCall} {id : TcpConnectionId}

theorem connections_cons (s : TcpWorld) (call : TcpCall) (rest : Multiset TcpCall) :
    s.connections (call ::ₘ rest) = call.inTransit + s.connections rest := by
  rw [connections, connections, cons_bind, ← add_assoc, ← add_assoc, add_comm (listedConns _)]

theorem inTransit_of_neutral (h : call.neutral = true) : call.inTransit = 0 := by
  cases call <;> first
    | rfl
    | cases h

theorem get_of_inTransit (hIds : ((s.connections (call ::ₘ rest)).map Prod.fst).Nodup) {alloc : AllocationId}
    (hCall : call.inTransit = {(id, alloc)}) : s.manager.conns.get id = none := by
  cases hGet : s.manager.conns.get id with
  | none => rfl
  | some state =>
    rw [connections_cons, hCall, singleton_add, map_cons, nodup_cons] at hIds
    refine absurd (mem_map.mpr ⟨(id, state.alloc), ?_, rfl⟩) hIds.1
    exact mem_add.mpr (.inl (mem_listedConns.mpr ⟨state, hGet, rfl⟩))

theorem connections_step (hStep : TcpStep s call s' call') (hIds : ((s.connections (call ::ₘ rest)).map Prod.fst).Nodup)
    (hNew : ∀ id r stream, call ≠ .minted id r stream) :
    s'.connections (call' ::ₘ rest) ≤ s.connections (call ::ₘ rest) := by
  rw [connections_cons, connections_cons, connections, connections, ← add_assoc, ← add_assoc]
  refine add_le_add_left ?_ _
  cases hStep with
  | silent hCall hCall' hSame =>
    rw [inTransit_of_neutral hCall, inTransit_of_neutral hCall', listedConns_congr hSame.get]
  | mint r stream => exact le_rfl
  | enter id r stream => exact absurd rfl (hNew id r stream)
  | @claim id owner stream peer alloc hGet =>
    refine add_le_add_right (le_of_eq ?_) _
    rw [listedConns_remove hGet, conns_insertConn, conns_removeConn, listedConns_insert (get_remove_self _ _)]
    rfl
  | drop hCall hCall' hGet _ hConns _ _ =>
    rw [inTransit_of_neutral hCall, inTransit_of_neutral hCall', hConns]
    exact add_le_add_right (listedConns_remove_le _) _
  | take hGet | lift hGet =>
    rw [listedConns_remove hGet]
    exact le_of_eq (zero_add _).symm
  | bind task | putBack id state =>
    rw [conns_insertConn, listedConns_insert (get_of_inTransit hIds rfl)]
    exact le_of_eq (zero_add _)
  | finish task => exact add_le_add_right (listedConns_remove_le _) _
  | clean ids => exact add_le_add_right (listedConns_foldl_remove_le ids) _

theorem peerOf_entered {m : TcpRelayManager} {r : PeerRequest} (id' : TcpConnectionId) :
    TcpWorld.peerOf { s with manager := m, log := .entered id r :: s.log } id' =
      if id = id' then some r.peer else s.peerOf id' := by
  rw [peerOf, List.findSome?_cons]
  by_cases hId : id = id' <;> simp [hId, peerOf]

theorem peerOf_step (hStep : TcpStep s call s' call') (hNew : ∀ id r stream, call ≠ .minted id r stream) :
    s'.peerOf = s.peerOf := by
  cases hStep with
  | enter id r stream => exact absurd rfl (hNew id r stream)
  | clean ids =>
    funext id
    have hNone : (s.unregister ids).findSome? (fun
        | .entered id' r => if id' = id then some r.peer else none
        | _ => none) = none := by
      rw [List.findSome?_eq_none_iff]
      intro e he
      obtain ⟨id', -, rfl⟩ := List.mem_map.mp he
      rfl
    rw [peerOf, List.findSome?_append, hNone]
    rfl
  | _ => rfl

theorem entry_of_step (hStep : TcpStep s call s' call') {state : ConnState}
    (h : s'.manager.conns.get id = some state) :
    (s.manager.conns.get id = some state ∧ ∀ task, call = .relaying task → task.id ≠ id) ∨
      (∃ r stream, call = .minted id r stream) ∨
      (∃ stream peer alloc owner, s.manager.conns.get id = some (.waitingForBind stream peer alloc owner) ∧
        state = .claimed stream peer alloc) ∨
      (∃ task, call' = .relaying task ∧ task.id = id ∧ state = .bound task.alloc) ∨ call = .restoring id state := by
  have hRemoved : ∀ {id' : TcpConnectionId} {m : TcpRelayManager}, m.conns = s.manager.conns.remove id' →
      m.conns.get id = some state → s.manager.conns.get id = some state ∧ id' ≠ id := by
    intro id' m hConns hGet
    rw [hConns, get_remove] at hGet
    split at hGet
    · cases hGet
    · next hNe => exact ⟨hGet, Ne.symm hNe⟩
  cases hStep with
  | silent hCall _ hSame =>
    refine .inl ⟨(hSame.get id).symm.trans h, ?_⟩
    rintro task rfl
    cases hCall
  | mint r stream => exact .inl ⟨h, by rintro _ ⟨⟩⟩
  | enter id' r stream =>
    obtain ⟨rfl, -⟩ | hOld := get_insert_cases h
    · exact .inr (.inl ⟨r, stream, rfl⟩)
    · exact .inl ⟨hOld, by rintro _ ⟨⟩⟩
  | claim hGet =>
    rw [conns_insertConn, conns_removeConn, insert_remove] at h
    obtain ⟨rfl, rfl⟩ | hOld := get_insert_cases h
    · exact .inr (.inr (.inl ⟨_, _, _, _, hGet, rfl⟩))
    · exact .inl ⟨hOld, by rintro _ ⟨⟩⟩
  | drop hCall _ _ _ hConns _ _ =>
    refine .inl ⟨(hRemoved hConns h).1, ?_⟩
    rintro task rfl
    cases hCall
  | take _ | lift _ => exact .inl ⟨(hRemoved rfl h).1, by rintro _ ⟨⟩⟩
  | bind task =>
    obtain ⟨rfl, rfl⟩ | hOld := get_insert_cases h
    · exact .inr (.inr (.inr (.inl ⟨task, rfl, rfl, rfl⟩)))
    · exact .inl ⟨hOld, by rintro _ ⟨⟩⟩
  | finish task =>
    obtain ⟨hOld, hNe⟩ := hRemoved rfl h
    refine .inl ⟨hOld, fun task' hTask => ?_⟩
    cases hTask
    exact hNe
  | putBack id' state' =>
    obtain ⟨rfl, rfl⟩ | hOld := get_insert_cases h
    · exact .inr (.inr (.inr (.inr rfl)))
    · exact .inl ⟨hOld, by rintro _ ⟨⟩⟩
  | clean ids =>
    replace h : (ids.foldl remove s.manager.conns).get id = some state := h
    rw [get_foldl_remove] at h
    split at h
    · cases h
    · exact .inl ⟨h, by rintro _ ⟨⟩⟩

end TcpWorld

/-! ## The limits along a run -/

def Relays (calls : Multiset TcpCall) (id : TcpConnectionId) : Prop := ∃ task, .relaying task ∈ calls ∧ task.id = id

theorem Relays.step {call call' : TcpCall} {rest : Multiset TcpCall} {id : TcpConnectionId}
    (h : Relays (call ::ₘ rest) id) (hNot : ∀ task, call = .relaying task → task.id ≠ id) :
    Relays (call' ::ₘ rest) id := by
  obtain ⟨task, hTask, hId⟩ := h
  rcases mem_cons.mp hTask with hEq | hTask
  · exact absurd hId (hNot task hEq.symm)
  · exact ⟨task, mem_cons_of_mem hTask, hId⟩

structure TcpWorld.Limited (config : TcpRelayConfig) (s : TcpWorld) (calls : Multiset TcpCall) : Prop
    extends s.WithinLimits config calls where
  configured : s.manager.config = config
  restoring : ∀ id state, .restoring id state ∈ calls → state.peer = none ∧ Relays calls id

namespace TcpWorld.Limited

variable {config : TcpRelayConfig} {s s' : TcpWorld} {call call' : TcpCall} {rest : Multiset TcpCall}

theorem config_step (hStep : TcpStep s call s' call') : s'.manager.config = s.manager.config := by
  cases hStep with
  | silent _ _ hSame => exact hSame.config
  | drop _ _ _ _ _ _ hConfig => exact hConfig
  | _ => rfl

theorem step (h : s.Limited config (call ::ₘ rest)) (hStep : TcpStep s call s' call')
    (hNew : ∀ id r stream, call ≠ .minted id r stream)
    (hEnd : ∀ task, call = .relaying task → ∀ c ∈ rest, c.restores task.id = false) :
    s'.Limited config (call' ::ₘ rest) := by
  have hLe := connections_step hStep h.ids hNew
  have hPeers := peerOf_step hStep hNew
  have hKey : s'.key = s.key := by
    funext c
    rw [key, key, hPeers]
  refine ⟨⟨?_, ?_, ?_, ?_, ?_, ?_, ?_⟩, (config_step hStep).trans h.configured, ?_⟩
  · exact (card_le_card hLe).trans h.total
  · exact fun alloc => (countP_le_of_le _ hLe).trans (h.perAllocation alloc)
  · exact nodup_of_le (map_le_map hLe) h.ids
  · rw [hKey]
    exact nodup_of_le (map_le_map hLe) h.peers
  · intro id alloc hGet
    rcases entry_of_step hStep hGet with ⟨hOld, hNot⟩ | ⟨r, stream, hCall⟩ | ⟨_, _, _, _, -, hState⟩ |
      ⟨task, rfl, hId, -⟩ | rfl
    · exact Relays.step (h.streams id alloc hOld) hNot
    · exact absurd hCall (hNew id r stream)
    · cases hState
    · exact ⟨task, mem_cons_self _ _, hId⟩
    · exact (h.restoring id _ (mem_cons_self _ _)).2.step nofun
  · intro id state peer hGet hPeer
    rw [hPeers]
    rcases entry_of_step hStep hGet with ⟨hOld, -⟩ | ⟨r, stream, hCall⟩ | ⟨_, _, _, _, hOld, rfl⟩ | ⟨_, -, -, rfl⟩ | rfl
    · exact h.entryPeer id state peer hOld hPeer
    · exact absurd hCall (hNew id r stream)
    · exact h.entryPeer id _ peer hOld hPeer
    · cases hPeer
    · rw [(h.restoring id state (mem_cons_self _ _)).1] at hPeer
      cases hPeer
  · intro task hTask
    rw [hPeers]
    rcases mem_cons.mp hTask with rfl | hTask
    · cases hStep with
      | silent _ hCall' _ | drop _ hCall' _ _ _ _ _ => cases hCall'
      | take hGet => exact h.entryPeer _ _ _ hGet rfl
    · exact h.attachPeer task (mem_cons_of_mem hTask)
  · intro id state hIn
    rcases mem_cons.mp hIn with rfl | hIn
    · cases hStep with
      | silent _ hCall' _ | drop _ hCall' _ _ _ _ _ => cases hCall'
      | lift hGet => exact ⟨rfl, Relays.step (h.streams id _ hGet) nofun⟩
    · obtain ⟨hNone, hRelays⟩ := h.restoring id state (mem_cons_of_mem hIn)
      refine ⟨hNone, hRelays.step fun task hCall hId => ?_⟩
      have hFree := hEnd task hCall _ hIn
      simp [TcpCall.restores, hId] at hFree

theorem enter {id : TcpConnectionId} {r : PeerRequest} {stream : TcpStream}
    (h : s.Limited config (.minted id r stream ::ₘ rest))
    (hTotal : (s.connections rest).card < config.maxTotal)
    (hAlloc : (s.connections rest).countP (fun c => c.2 = r.alloc) < config.maxPerAllocation)
    (hId : id ∉ (s.connections rest).map Prod.fst) (hKey : (r.alloc, some r.peer) ∉ (s.connections rest).map s.key) :
    TcpWorld.Limited config
      { s with
        manager := s.manager.insertConn id (.waitingForBind stream r.peer r.alloc r.owner)
        log := .entered id r :: s.log } (.registered id r ::ₘ rest) := by
  have hGet : s.manager.conns.get id = none := by
    cases hGet : s.manager.conns.get id with
    | none => rfl
    | some state =>
      refine absurd (mem_map.mpr ⟨(id, state.alloc), ?_, rfl⟩) hId
      exact mem_add.mpr (.inl (mem_listedConns.mpr ⟨state, hGet, rfl⟩))
  have hOld : s.connections (.minted id r stream ::ₘ rest) = s.connections rest := by
    rw [connections_cons]
    exact zero_add _
  have hIds := h.ids
  have hPeers := h.peers
  rw [hOld] at hIds hPeers
  have hNe : ∀ c ∈ s.connections rest, id ≠ c.1 := by
    rintro c hc rfl
    exact hId (mem_map_of_mem _ hc)
  generalize hs' : ({ s with
      manager := s.manager.insertConn id (.waitingForBind stream r.peer r.alloc r.owner)
      log := .entered id r :: s.log } : TcpWorld) = s'
  have hPeerOf : ∀ id', s'.peerOf id' = if id = id' then some r.peer else s.peerOf id' := by
    intro id'
    rw [← hs']
    exact peerOf_entered id'
  have hConns : s'.manager.conns = s.manager.conns.insert id (.waitingForBind stream r.peer r.alloc r.owner) := by
    rw [← hs']
    rfl
  have hAll : s'.connections (.registered id r ::ₘ rest) = (id, r.alloc) ::ₘ s.connections rest := by
    rw [connections_cons, connections, connections, hConns, listedConns_insert hGet, cons_add]
    exact zero_add _
  have hSame : (s.connections rest).map s'.key = (s.connections rest).map s.key := by
    refine map_congr rfl fun c hc => ?_
    rw [key, key, hPeerOf, if_neg (hNe c hc)]
  refine ⟨⟨?_, fun alloc => ?_, ?_, ?_, ?_, ?_, ?_⟩, ?_, ?_⟩
  · rw [hAll, card_cons]
    exact hTotal
  · have hCount := h.perAllocation alloc
    rw [hOld] at hCount
    rw [hAll, countP_cons]
    split
    · next hEq =>
      rw [← hEq]
      exact hAlloc
    · exact hCount
  · rw [hAll, map_cons]
    exact nodup_cons.mpr ⟨hId, hIds⟩
  · rw [hAll, map_cons, hSame]
    refine nodup_cons.mpr ⟨?_, hPeers⟩
    rw [key, hPeerOf, if_pos rfl]
    exact hKey
  · intro id' alloc hBound
    rw [hConns, get_insert] at hBound
    split at hBound
    · cases hBound
    · exact Relays.step (h.streams id' alloc hBound) (by rintro _ ⟨⟩)
  · intro id' state peer hState hPeer
    rw [hConns, get_insert] at hState
    rw [hPeerOf]
    split at hState
    · next hEq =>
      cases hState
      rw [if_pos hEq.symm]
      exact hPeer
    · next hEq =>
      rw [if_neg (Ne.symm hEq)]
      exact h.entryPeer id' state peer hState hPeer
  · intro task hTask
    rcases mem_cons.mp hTask with hEq | hTask
    · cases hEq
    have hIn : (task.id, task.alloc) ∈ s.connections rest :=
      mem_add.mpr (.inr (mem_bind.mpr ⟨_, hTask, mem_singleton_self _⟩))
    rw [hPeerOf, if_neg (hNe _ hIn)]
    exact h.attachPeer task (mem_cons_of_mem hTask)
  · rw [← hs']
    exact h.configured
  · intro id' state hIn
    rcases mem_cons.mp hIn with hEq | hIn
    · cases hEq
    · obtain ⟨hNone, hRelays⟩ := h.restoring id' state (mem_cons_of_mem hIn)
      exact ⟨hNone, hRelays.step (by rintro _ ⟨⟩)⟩

theorem start {calls : Multiset TcpCall} (h : s.Limited config calls) (hCall : call.neutral = true) :
    s.Limited config (call ::ₘ calls) := by
  have hSame : s.connections (call ::ₘ calls) = s.connections calls := by
    rw [connections_cons, inTransit_of_neutral hCall, zero_add]
  have hOld : ∀ {c : TcpCall}, c.neutral = false → c ∈ call ::ₘ calls → c ∈ calls := by
    intro c hc hIn
    rcases mem_cons.mp hIn with rfl | hIn
    · rw [hCall] at hc
      cases hc
    · exact hIn
  have hRelays : ∀ {id : TcpConnectionId}, Relays calls id → Relays (call ::ₘ calls) id := by
    rintro id ⟨task, hTask, hId⟩
    exact ⟨task, mem_cons_of_mem hTask, hId⟩
  refine ⟨⟨?_, ?_, ?_, ?_, ?_, h.entryPeer, ?_⟩, h.configured, ?_⟩
  · rw [hSame]
    exact h.total
  · rw [hSame]
    exact h.perAllocation
  · rw [hSame]
    exact h.ids
  · rw [hSame]
    exact h.peers
  · exact fun id alloc hGet => hRelays (h.streams id alloc hGet)
  · exact fun task hTask => h.attachPeer task (hOld rfl hTask)
  · intro id state hIn
    obtain ⟨hNone, hRelay⟩ := h.restoring id state (hOld rfl hIn)
    exact ⟨hNone, hRelays hRelay⟩

theorem new (config : TcpRelayConfig) : (TcpWorld.new config).Limited config 0 := by
  refine ⟨⟨Nat.zero_le _, fun _ => Nat.zero_le _, nodup_zero, nodup_zero, (fun _ _ h => nomatch h),
    (fun _ _ _ h => nomatch h), ?_⟩, rfl, ?_⟩
  · exact fun task hTask => absurd hTask (notMem_zero _)
  · exact fun id state hIn => absurd hIn (notMem_zero _)

end TcpWorld.Limited

namespace TcpScenario

def second : List (Machine.Choice TcpCall DialOutcome) :=
  .start (.connect (request 80)) :: steps 0 6 ++ .start (.connect (request 81)) :: steps 0 6

end TcpScenario

end Turna.Relay
