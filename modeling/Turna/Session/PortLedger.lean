import Mathlib.Tactic.Abel
import Mathlib.Tactic.GCongr
import Turna.Session.Identity

/-! # The port ledger

A pool's used ports cover, each once, the relay ports of the live allocations that go back to it,
the ports that calls in flight carry, and its unclaimed reservations.
-/

namespace Turna.Session
open Lib Net HashMap AllocationStore Multiset PortAllocator

def portsOf (m : HashMap SocketAddr Allocation) : Multiset UInt16 :=
  (m.entries.map (fun e => e.2.relayAddr.port) : List UInt16)

section PortsOf

variable {m : HashMap SocketAddr Allocation} {c : SocketAddr} {a : Allocation}

theorem mem_portsOf {port : UInt16} : port ∈ portsOf m ↔ ∃ c a, m.get c = some a ∧ a.relayAddr.port = port := by
  rw [portsOf, mem_coe, List.mem_map]
  constructor
  · rintro ⟨e, hMem, hPort⟩
    exact ⟨e.1, e.2, mem_entries_iff.mp hMem, hPort⟩
  · rintro ⟨c, a, hGet, hPort⟩
    exact ⟨(c, a), mem_entries_iff.mpr hGet, hPort⟩

theorem portsOf_insert (hVacant : m.get c = none) : portsOf (m.insert c a) = a.relayAddr.port ::ₘ portsOf m := by
  rw [portsOf, entries_insert_of_none _ _ hVacant]
  rfl

theorem portsOf_remove (hGet : m.get c = some a) : portsOf m = a.relayAddr.port ::ₘ portsOf (m.remove c) := by
  rw [portsOf, portsOf, cons_coe]
  exact coe_eq_coe.mpr ((entries_perm_remove hGet).map _)

theorem portsOf_update {a' : Allocation} (hGet : m.get c = some a) (hSame : a'.relayAddr = a.relayAddr) :
    portsOf (m.insert c a') = portsOf m := by
  rw [← insert_remove, portsOf_insert (m.get_remove_self c), hSame, ← portsOf_remove hGet]

theorem portsOf_move {c' : SocketAddr} {a' : Allocation} (hGet : m.get c = some a) (hVacant : m.get c' = none)
    (hSame : a'.relayAddr = a.relayAddr) : portsOf ((m.remove c).insert c' a') = portsOf m := by
  have hGone : (m.remove c).get c' = none := by rw [get_remove, hVacant, ite_self]
  rw [portsOf_insert hGone, hSame, ← portsOf_remove hGet]

end PortsOf

/-- The books of every pool, when calls in flight carry the ports `carried`. -/
def Ledger (s : AllocationStore) (carried : Multiset UInt16) : Prop :=
  ∀ id, s.HasPool id →
    (portsOf s.allocations + carried).filter (fun port => s.poolIdForPort port = id) + (s.poolAt id).reservedPorts ≤
      (s.poolAt id).used.val

namespace Ledger

variable {s s' : AllocationStore} {carried carried' : Multiset UInt16}

theorem transfer (h : Ledger s carried) (hPools : SamePools s s')
    (hPorts : portsOf s'.allocations + carried' ≤ portsOf s.allocations + carried) : Ledger s' carried' := by
  obtain ⟨hBase, hTenants⟩ := hPools
  have hRoute : ∀ port, s'.poolIdForPort port = s.poolIdForPort port := by
    intro port
    rw [poolIdForPort, hTenants]
    rfl
  have hAt : ∀ id, s'.poolAt id = s.poolAt id := by
    intro id
    cases id with
    | none => exact hBase
    | some i => rw [poolAt, hTenants, hBase]; rfl
  intro id hPool
  simp only [hRoute, hAt]
  have hOld := h id (fun i hi => hTenants ▸ hPool i hi)
  refine le_trans ?_ hOld
  gcongr

theorem nodup (h : Ledger s carried) : (portsOf s.allocations + carried).Nodup := by
  rw [nodup_iff_count_le_one]
  intro port
  have hPool := h _ (s.hasPool_poolIdForPort port)
  have hCount := count_le_of_le port hPool
  rw [Multiset.count_add, count_filter, if_pos rfl] at hCount
  have hOne := nodup_iff_count_le_one.mp (s.poolAt (s.poolIdForPort port)).used.nodup port
  omega

theorem mem_used (h : Ledger s carried) {port : UInt16} (hMem : port ∈ portsOf s.allocations + carried) :
    port ∈ (s.poolForPort port).used ∧ port ∉ (s.poolForPort port).reservedPorts := by
  have hPool := h _ (s.hasPool_poolIdForPort port)
  have hFilter : port ∈ (portsOf s.allocations + carried).filter
      (fun p => s.poolIdForPort p = s.poolIdForPort port) := mem_filter.mpr ⟨hMem, rfl⟩
  have hNodup := nodup_of_le hPool (s.poolAt (s.poolIdForPort port)).used.nodup
  refine ⟨Finset.mem_val.mp (mem_of_le hPool (mem_add.mpr (.inl hFilter))), fun hReserved => ?_⟩
  exact disjoint_left.mp (nodup_add.mp hNodup).2.2 hFilter hReserved

theorem mono (h : Ledger s carried) (hLe : carried' ≤ carried) : Ledger s carried' :=
  h.transfer ⟨rfl, rfl⟩ (by gcongr)

/-- The books follow the ports that go back to this pool. -/
theorem updatePool {a b : Multiset UInt16} {id : AllocationStore.PoolId} {f : PortAllocator → PortAllocator}
    (h : Ledger s (a + carried)) (hPool : s.HasPool id)
    (hTransfer : PortAllocator.Transfer (s.poolAt id) (f (s.poolAt id)) a b)
    (hTaken : ∀ port ∈ a, s.poolIdForPort port = id) :
    Ledger (s.updatePool f id) (b.filter (fun port => s.poolIdForPort port = id) + carried) := by
  have hRoutes := routes_updatePool hTransfer.minPort hTransfer.maxPort
  have hAllocations : (s.updatePool f id).allocations = s.allocations := (sameIndex_updatePool s f id).allocations
  intro id' hPool'
  have hPoolOld := hRoutes.hasPool hPool'
  have hOld := h id' hPoolOld
  simp only [poolIdForPort_congr hRoutes, hAllocations]
  have hSplit : ∀ x : Multiset UInt16, (portsOf s.allocations + (x + carried)).filter
      (fun port => s.poolIdForPort port = id') = x.filter (fun port => s.poolIdForPort port = id') +
        (portsOf s.allocations + carried).filter (fun port => s.poolIdForPort port = id') := by
    intro x
    rw [add_left_comm, filter_add]
  rw [hSplit, filter_filter]
  rw [hSplit] at hOld
  by_cases hId : id' = id
  · subst hId
    rw [poolAt_updatePool_self hPool]
    rw [filter_eq_self.mpr hTaken] at hOld
    obtain ⟨rest, hRest⟩ := Multiset.le_iff_exists_add.mp hOld
    have hNew := hTransfer.ledger
      ((portsOf s.allocations + carried).filter (fun port => s.poolIdForPort port = id') + rest) (by rw [hRest]; abel)
    rw [hNew]
    gcongr
    · exact filter_le _ _
    · exact le_add_right _ _
  · rw [poolAt_updatePool_ne hPoolOld hId, filter_eq_nil.mpr]
    · rw [filter_eq_nil.mpr (fun port hMem hEq => hId (hEq.symm.trans (hTaken port hMem)))] at hOld
      exact hOld
    · rintro port - ⟨hEq, hEq'⟩
      exact hId (hEq.symm.trans hEq')

theorem release {port : UInt16} (h : Ledger s (port ::ₘ carried)) :
    Ledger ((Stmt.releasePort port).exec s) carried := by
  have hNew := @Ledger.updatePool s carried {port} 0 (s.poolIdForPort port) (fun pool => pool.release port)
    (by rw [singleton_add]; exact h) (s.hasPool_poolIdForPort port) (release_spec port)
    (fun p hMem => by rw [mem_singleton.mp hMem])
  rwa [filter_zero, zero_add] at hNew

theorem reserve (port : UInt16) (h : Ledger s carried) :
    Ledger (s.updatePool (fun pool => (pool.reserve port).2) (s.poolIdForPort port))
      (if ((s.poolForPort port).reserve port).1.isOk then port ::ₘ carried else carried) := by
  have hSpec := @reserve_spec (s.poolForPort port) port
  have hUpdate := fun b => @Ledger.updatePool s carried 0 b (s.poolIdForPort port)
    (fun pool => (pool.reserve port).2) (by rw [zero_add]; exact h) (s.hasPool_poolIdForPort port)
  change ∀ b, PortAllocator.Transfer (s.poolForPort port) ((s.poolForPort port).reserve port).2 0 b → _ at hUpdate
  generalize (s.poolForPort port).reserve port = r at hSpec hUpdate
  obtain ⟨result, pool'⟩ := r
  cases result with
  | error e =>
    have hNew := hUpdate 0 hSpec (fun _ hMem => by cases notMem_zero _ hMem)
    rw [filter_zero, zero_add] at hNew
    exact hNew
  | ok =>
    have hNew := hUpdate {port} hSpec (fun _ hMem => by cases notMem_zero _ hMem)
    rw [filter_singleton, if_pos rfl, singleton_add] at hNew
    exact hNew

theorem sweep (now : Nat) (h : Ledger s carried) : Ledger (s.sweepReservations now) carried := by
  have hAt : ∀ id, (s.sweepReservations now).poolAt id = ((s.poolAt id).sweepExpiredReservations now).2 := by
    intro id
    cases id with
    | none => rfl
    | some i =>
      rw [poolAt, poolAt, sweepReservations, List.getElem?_map]
      cases s.tenantPools[i]? <;> rfl
  have hRoutes : s.SameRoutes (s.sweepReservations now) := by
    rw [AllocationStore.SameRoutes, sweepReservations, List.map_map]
    rfl
  intro id hPool
  simp only [poolIdForPort_congr hRoutes, hAt]
  obtain ⟨rest, hRest⟩ := Multiset.le_iff_exists_add.mp (h id (hRoutes.hasPool hPool))
  have hSpec := @sweepExpiredReservations_spec (s.poolAt id) now 0
  have hNew := hSpec.ledger
    ((portsOf s.allocations + carried).filter (fun port => s.poolIdForPort port = id) + rest) (by rw [hRest]; abel)
  rw [hNew, zero_add]
  gcongr
  exact le_add_right _ _

theorem publish {channels : List UInt16} {a : Allocation} (h : Ledger s (a.relayAddr.port ::ₘ carried))
    (hPools : SamePools s s') (hSame : s'.allocations = s.allocations)
    (hVacant : s.allocations.get a.clientAddr = none) : Ledger (s'.publish channels a) carried := by
  refine h.transfer hPools (le_of_eq ?_)
  change portsOf (s'.allocations.insert a.clientAddr a) + carried = _
  rw [hSame, portsOf_insert hVacant, cons_add, add_cons]

theorem teardown {c : SocketAddr} {a : Allocation} {script : List Stmt} (h : Ledger s carried)
    (hGet : s.allocations.get c = some a) (hPorts : script.filterMap Stmt.port? = [a.relayAddr.port]) :
    Ledger ({ s with allocations := s.allocations.remove c }.runScript script) carried := by
  have hOut : Ledger { s with allocations := s.allocations.remove c } (a.relayAddr.port ::ₘ carried) := by
    refine h.transfer ⟨rfl, rfl⟩ (le_of_eq ?_)
    rw [portsOf_remove hGet, cons_add, add_cons]
  have hPools := runScript_pools { s with allocations := s.allocations.remove c } script
  rw [hPorts] at hPools
  refine hOut.release.transfer hPools (le_of_eq ?_)
  rw [runScript_allocations, (sameIndex_exec _ rfl).allocations]

theorem effect {R : Rules} (hPublish : ∀ s channels a, R.publish s channels a → Ledger s {a.relayAddr.port})
    (hOwn : ∀ a r, R.teardown a r → r = a.relayAddr) (hRule : ∀ s s', R.pools s s' → Ledger s 0 → Ledger s' 0)
    (h : Ledger s 0) (hEffect : Effect R s s') : Ledger s' 0 := by
  cases hEffect with
  | quiet _ hPools => exact hRule _ _ hPools h
  | prune => exact h
  | edit hGet hSame =>
    refine h.transfer ⟨rfl, rfl⟩ (le_of_eq ?_)
    rw [portsOf_update hGet hSame.relayAddr]
  | @bind c a now channel peerAddr hGet =>
    refine h.transfer ⟨rfl, rfl⟩ (le_of_eq ?_)
    rw [portsOf_update hGet (sameOwner_bindChannel a now channel peerAddr).relayAddr]
  | publish hCharge hPools hVacant hRule =>
    exact Ledger.publish (hPublish _ _ _ hRule) hPools hCharge.allocations hVacant
  | teardown hGet hTeardown hRule =>
    refine h.teardown hGet ?_
    rw [hTeardown.ports, hOwn _ _ hRule]
  | move order hGet hVacant =>
    exact h.transfer ⟨rfl, rfl⟩ (le_of_eq (congrArg (· + 0) (portsOf_move hGet hVacant rfl)))

end Ledger

/-- Used in the pool it goes back to, of no live allocation and not kept for a reservation. -/
def InHand (s : AllocationStore) (port : UInt16) : Prop :=
  port ∈ (s.poolForPort port).used ∧ port ∉ portsOf s.allocations ∧ port ∉ (s.poolForPort port).reservedPorts

instance (s : AllocationStore) (port : UInt16) : Decidable (InHand s port) :=
  inferInstanceAs (Decidable (_ ∧ _ ∧ _))

variable {s : AllocationStore}

theorem Ledger.inHand {ports : Multiset UInt16} (h : Ledger s 0) (hOnce : ports.Nodup)
    (hHand : ∀ port ∈ ports, InHand s port) : Ledger s ports := by
  intro id hPool
  have hOld := h id hPool
  rw [add_zero] at hOld
  rw [filter_add, add_assoc, add_left_comm]
  have hNodup := nodup_of_le hOld (s.poolAt id).used.nodup
  have hDisjoint : Disjoint (ports.filter (fun port => s.poolIdForPort port = id))
      ((portsOf s.allocations).filter (fun port => s.poolIdForPort port = id) + (s.poolAt id).reservedPorts) := by
    rw [disjoint_left]
    intro port hMem hOther
    obtain ⟨hPort, hId⟩ := mem_filter.mp hMem
    obtain ⟨-, hLive, hReserved⟩ := hHand port hPort
    obtain hOther | hOther := mem_add.mp hOther
    · exact hLive (mem_of_mem_filter hOther)
    · rw [poolForPort, hId] at hReserved
      exact hReserved hOther
  have hAll := nodup_add.mpr ⟨hOnce.filter _, hNodup, hDisjoint⟩
  rw [le_iff_subset hAll]
  intro port hMem
  obtain hMem | hMem := mem_add.mp hMem
  · obtain ⟨hPort, hId⟩ := mem_filter.mp hMem
    have hUsed := (hHand port hPort).1
    rw [poolForPort, hId] at hUsed
    exact hUsed
  · exact mem_of_le hOld hMem

theorem Ledger.port_inj {carried : Multiset UInt16} (h : Ledger s carried)
    {c c' : SocketAddr} {a a' : Allocation} (hGet : s.allocations.get c = some a)
    (hGet' : s.allocations.get c' = some a') (hPort : a.relayAddr.port = a'.relayAddr.port) : c = c' := by
  have hNodup : (s.allocations.entries.map (fun e => e.2.relayAddr.port)).Nodup := (nodup_add.mp h.nodup).1
  have hEq := List.inj_on_of_nodup_map hNodup (mem_entries_iff.mpr hGet) (mem_entries_iff.mpr hGet') hPort
  exact congrArg Prod.fst hEq

/-- A region of the allocator runs in pool `id`, and the ports it takes back are in callers' hands. -/
def PoolUse (s : AllocationStore) (id : AllocationStore.PoolId) (f : PortAllocator → PortAllocator) : Prop :=
  s.HasPool id ∧ ∃ a b, PortAllocator.Transfer (s.poolAt id) (f (s.poolAt id)) a b ∧ a.Nodup ∧
    ∀ port ∈ a, s.poolIdForPort port = id ∧ InHand s port

theorem PoolUse.ledger {id : AllocationStore.PoolId} {f : PortAllocator → PortAllocator}
    (hUse : PoolUse s id f) (h : Ledger s 0) : Ledger (s.updatePool f id) 0 := by
  obtain ⟨hPool, a, b, hTransfer, hOnce, hTaken⟩ := hUse
  have hHands := h.inHand hOnce (fun port hMem => (hTaken port hMem).2)
  rw [← add_zero a] at hHands
  exact (hHands.updatePool hPool hTransfer (fun port hMem => (hTaken port hMem).1)).mono (zero_le _)

/-- A new allocation gets a port in its caller's hand, `remove` is given the own relay address, and no pool takes back
a port that is not in hand. -/
def StoreOp.Orderly (s : AllocationStore) : StoreOp → Prop
  | .pool id f => PoolUse s id f
  | .create _ req => InHand s req.relayAddr.port
  | .remove _ _ clientAddr relayAddr => ∀ a, s.allocations.get clientAddr = some a → a.relayAddr = relayAddr
  | _ => True

namespace Ledger

variable {s : AllocationStore}

theorem drawn {port : UInt16} (h : Ledger s 0) (hHand : InHand s port) : Ledger s.mintId.2 {port} :=
  (h.inHand (nodup_singleton port) (fun _ hMem => mem_singleton.mp hMem ▸ hHand)).transfer
    ⟨rfl, rfl⟩ (le_refl _)

theorem prepared (h : Ledger s 0) (row : RehydrateRow)
    (hReserve : ((s.poolForPort row.relayAddr.port).reserve row.relayAddr.port).1.isOk = true) :
    Ledger (row.prepared s) {row.relayAddr.port} := by
  have hLedger := h.reserve row.relayAddr.port
  rw [if_pos hReserve] at hLedger
  refine hLedger.transfer (restoredId_samePools _ row.allocationId) (le_of_eq ?_)
  rw [prepared_allocations, (sameIndex_updatePool ..).allocations]
  rfl

end Ledger

def ledgerRules : Rules :=
  { freshRules fun _ => True with
    publish := fun s _ a => Ledger s {a.relayAddr.port}
    pools := fun s s' => Ledger s 0 → Ledger s' 0
    pools_same := fun _ _ hAllocations hPools h => h.transfer hPools (le_of_eq (by rw [hAllocations]))
    pools_sweep := fun _ now h => h.sweep now
    pools_reserve := fun _ port h => (h.reserve port).mono (Multiset.zero_le _) }

theorem Ledger.apply {op : StoreOp} (h : Ledger s 0) (hOrderly : op.Orderly s) : Ledger (op.apply s) 0 := by
  have hKeeps : op.Keeps ledgerRules s := by
    cases op with
    | pool id f => exact hOrderly.ledger
    | create clock req => exact fun _ => h.drawn hOrderly
    | rehydrate order clock row => exact fun _ hReserve => h.prepared row hReserve
    | remove order clock c r => exact fun a hGet => (hOrderly a hGet).symm
    | cleanup => exact fun _ _ _ _ => trivial
    | _ => trivial
  have hMinted : Ledger (op.minted s) 0 := by
    rw [StoreOp.minted]
    split
    · exact h.transfer ⟨rfl, rfl⟩ (le_refl _)
    · exact h
  exact (apply_effects s op hKeeps).invariant (fun s => Ledger s 0) (fun _ _ hEffect hInv =>
    hInv.effect (fun _ _ _ hRule => hRule) (fun _ _ hRule => hRule) (fun _ _ hRule => hRule) hEffect) hMinted

theorem poolUse_allocate {id : AllocationStore.PoolId} (hPool : s.HasPool id)
    (hCursor : (s.poolAt id).CursorInRange) : PoolUse s id (fun pool => pool.allocate.2) := by
  have hSpec := allocate_spec hCursor
  refine ⟨hPool, 0, ?_⟩
  dsimp only
  generalize (s.poolAt id).allocate = r at hSpec
  obtain ⟨result, pool'⟩ := r
  cases result with
  | error e => exact ⟨0, hSpec, nodup_zero, fun port hMem => by cases notMem_zero _ hMem⟩
  | ok port => exact ⟨{port}, hSpec, nodup_zero, fun port hMem => by cases notMem_zero _ hMem⟩

theorem poolAt_configured (minPort maxPort : UInt16) (random : UInt32) (maxAllocations : Nat)
    (tenants : List TenantRange) (id : AllocationStore.PoolId) :
    ∃ min max start, (configured minPort maxPort random maxAllocations tenants).poolAt id =
      .new min max start := by
  rw [configured_eq]
  cases id with
  | none => exact ⟨_, _, _, rfl⟩
  | some i =>
    rw [poolAt, List.getElem?_map]
    cases tenants[i]? with
    | none => exact ⟨_, _, _, rfl⟩
    | some t => exact ⟨t.minPort, t.maxPort, t.random, rfl⟩

theorem ledger_configured (minPort maxPort : UInt16) (random : UInt32) (maxAllocations : Nat)
    (tenants : List TenantRange) : Ledger (.configured minPort maxPort random maxAllocations tenants) 0 := by
  intro id _
  obtain ⟨min, max, start, hPool⟩ := poolAt_configured minPort maxPort random maxAllocations tenants id
  have hPorts : portsOf (configured minPort maxPort random maxAllocations tenants).allocations = 0 := by
    rw [configured_eq]
    rfl
  rw [hPool, hPorts]
  exact zero_le _

end Turna.Session
