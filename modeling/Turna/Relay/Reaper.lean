import Turna.Session.ChannelIndex

/-! # The relay socket reaper

Every few seconds the relay closes the sockets whose port is not marked used. It asks the base pool
only.
-/

namespace Turna.Relay
open Lib Net Session HashMap

structure Egress (Socket Task : Type) where
  relaySockets : HashMap UInt16 Socket
  relayTasks : HashMap UInt16 Task

variable {Socket Task : Type}

def orphans (order : IterOrder) (store : AllocationStore) (egress : Egress Socket Task) : List UInt16 :=
  (order.visit egress.relaySockets.keys).filter fun p => !store.ports.isAllocated p

def Egress.close (egress : Egress Socket Task) (port : UInt16) : Egress Socket Task :=
  ⟨egress.relaySockets.remove port, egress.relayTasks.remove port⟩

/-- The pass closes no live allocation's socket, and every socket whose port no pool has. -/
structure ReapsOrphans (store : AllocationStore) (egress : Egress Socket Task) : Prop where
  keepsLive : ∀ order c a, store.allocations.get c = some a → a.relayAddr.port ∉ orphans order store egress
  closesFree : ∀ order port, egress.relaySockets.contains port = true →
    (∀ id, store.HasPool id → port ∉ (store.poolAt id).used) → port ∈ orphans order store egress

/-- The live allocations with a socket in a tenant's range have a port that the base pool has too. -/
def TenantsDark (store : AllocationStore) (egress : Egress Socket Task) : Prop :=
  ∀ c a, store.allocations.get c = some a → egress.relaySockets.contains a.relayAddr.port = true →
    store.poolIdForPort a.relayAddr.port ≠ none → a.relayAddr.port ∈ store.ports.used

section Pass

variable {order : IterOrder} {store : AllocationStore} {egress : Egress Socket Task}

theorem mem_orphans {port : UInt16} :
    port ∈ orphans order store egress ↔ egress.relaySockets.contains port = true ∧ port ∉ store.ports.used := by
  rw [orphans, List.mem_filter, IterOrder.mem_visit, mem_keys_iff, PortAllocator.isAllocated,
    Bool.not_eq_true', decide_eq_false_iff_not, contains, Option.isSome_iff_exists]

theorem closes_free {port : UInt16} (hSocket : egress.relaySockets.contains port = true)
    (hFree : ∀ id, store.HasPool id → port ∉ (store.poolAt id).used) : port ∈ orphans order store egress :=
  mem_orphans.mpr ⟨hSocket, hFree none nofun⟩

end Pass

theorem reapsOrphans_iff {store : AllocationStore} (h : Ledger store 0) (egress : Egress Socket Task) :
    ReapsOrphans store egress ↔ TenantsDark store egress := by
  constructor
  · intro hReaps c a hGet hSocket _
    by_contra hUsed
    exact hReaps.keepsLive .stored c a hGet (mem_orphans.mpr ⟨hSocket, hUsed⟩)
  intro hDark
  refine ⟨fun order c a hGet hOrphan => ?_, fun order port => closes_free⟩
  obtain ⟨hSocket, hUsed⟩ := mem_orphans.mp hOrphan
  cases hId : store.poolIdForPort a.relayAddr.port with
  | some i => exact hUsed (hDark c a hGet hSocket (by rw [hId]; exact Option.some_ne_none i))
  | none =>
    have hLive := (h.mem_used (Multiset.mem_add.mpr (.inl (mem_portsOf.mpr ⟨c, a, hGet, rfl⟩)))).1
    rw [AllocationStore.poolForPort, hId] at hLive
    exact hUsed hLive

namespace OneCall

def node : AllocationStore := .configured 49152 65535 0 0 [⟨"acme", 40000, 40001, 0, 0, .default⟩]

def client : SocketAddr := .v4 ⟨192, 0, 2, 1⟩ 1

def ops (id : AllocationStore.PoolId) (tenantId : Option String) (port : UInt16) : List StoreOp :=
  [.pool id (fun pool => pool.allocate.2),
    .create ⟨0, 0⟩ ⟨client, .v4 ⟨198, 51, 100, 1⟩ port, "u", [], 600, "r", tenantId⟩]

def egress (port : UInt16) : Egress Unit Unit := ⟨HashMap.empty.insert port (), .empty⟩

theorem tenant_orderly : Trace.Allowed StoreOp.apply StoreOp.Orderly node (ops (some 0) (some "acme") 40000) := by
  refine ⟨poolUse_allocate (fun i hi => ?_) ?_, ?_, trivial⟩
  · cases hi
    decide
  · change PortAllocator.contains _ _ = true
    decide +kernel
  · change InHand _ 40000
    decide +kernel

theorem base_orderly : Trace.Allowed StoreOp.apply StoreOp.Orderly node (ops none none 49152) := by
  refine ⟨poolUse_allocate (nofun) ?_, ?_, trivial⟩
  · change PortAllocator.contains _ _ = true
    decide +kernel
  · change InHand _ 49152
    decide +kernel

end OneCall

/-- The socket of a tenant's live allocation is closed. -/
theorem tenant_socket_closed :
    Trace.Allowed StoreOp.apply StoreOp.Orderly OneCall.node (OneCall.ops (some 0) (some "acme") 40000) ∧
    ¬ ReapsOrphans (Trace.run StoreOp.apply OneCall.node (OneCall.ops (some 0) (some "acme") 40000))
      (OneCall.egress 40000) := by
  refine ⟨OneCall.tenant_orderly, fun hReaps => ?_⟩
  have hLive : ((Trace.run StoreOp.apply OneCall.node (OneCall.ops (some 0) (some "acme") 40000)).allocations.get
      OneCall.client).map (fun a => a.relayAddr.port) = some 40000 := by decide +kernel
  obtain ⟨a, hGet, hPort⟩ := Option.map_eq_some_iff.mp hLive
  refine hReaps.keepsLive .stored _ a hGet (mem_orphans.mpr ?_)
  rw [hPort]
  exact ⟨by decide, by decide +kernel⟩

theorem reapsOrphans_reachable (minPort maxPort : UInt16) (random : UInt32) (maxAllocations : Nat)
    (tenants : List TenantRange) {ops : List StoreOp}
    (hRun : Trace.Allowed StoreOp.apply StoreOp.Orderly (.configured minPort maxPort random maxAllocations tenants) ops)
    {Socket Task : Type} (egress : Egress Socket Task) :
    ReapsOrphans (Trace.run StoreOp.apply (.configured minPort maxPort random maxAllocations tenants) ops) egress ↔
      TenantsDark (Trace.run StoreOp.apply (.configured minPort maxPort random maxAllocations tenants) ops) egress :=
  reapsOrphans_iff (hRun.invariant (fun s => Ledger s 0) (fun _ _ h hOk => h.apply hOk)
    (ledger_configured minPort maxPort random maxAllocations tenants)) egress

theorem reapsOrphans_base :
    (Trace.run StoreOp.apply OneCall.node (OneCall.ops none none 49152)).allocations.len = 1 ∧
    ReapsOrphans (Trace.run StoreOp.apply OneCall.node (OneCall.ops none none 49152)) (OneCall.egress 49152) := by
  refine ⟨by decide +kernel, (reapsOrphans_reachable 49152 65535 0 0 _ OneCall.base_orderly _).mpr ?_⟩
  intro c a _ hSocket hTenant
  have hPort : a.relayAddr.port = 49152 := by
    rw [OneCall.egress, contains, get_insert] at hSocket
    split at hSocket
    · assumption
    · cases hSocket
  rw [hPort] at hTenant
  exact absurd (by decide +kernel) hTenant

end Turna.Relay
