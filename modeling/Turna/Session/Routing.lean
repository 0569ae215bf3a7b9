import Turna.Session.PortLedger
import Turna.Session.PortPool

/-! # Routing of ports to pools

A creation picks a pool by tenant, everything later recovers the pool from the port number. The two
agree where no port lies in the ranges of two pools.
-/

namespace Turna.Session
open Lib Net List PortAllocator

structure PortAllocator.Ready (pool : PortAllocator) : Prop where
  cursor : pool.CursorInRange
  inRange : ∀ port ∈ pool.used, pool.contains port = true

variable {pool' pool : PortAllocator} {a b : Multiset UInt16}

theorem PortAllocator.Transfer.contains
    (h : Transfer pool pool' a b) (port : UInt16) : pool'.contains port = pool.contains port := by
  rw [PortAllocator.contains, h.minPort, h.maxPort]
  rfl

theorem PortAllocator.Ready.transfer (hReady : pool.Ready) (h : Transfer pool pool' a b) : pool'.Ready where
  cursor := h.cursor hReady.cursor
  inRange port hMem := by
    rw [h.contains]
    exact h.inRange hReady.inRange port hMem

theorem PortAllocator.ready_new {minPort maxPort : UInt16} (h : minPort < maxPort) (random : UInt32) :
    (PortAllocator.new minPort maxPort random).Ready where
  cursor := (contains_iff _).mpr (randomStartPort_inRange h random)
  inRange port hMem := by cases hMem

namespace AllocationStore

variable {s s' : AllocationStore}

/-- Who allocates from a pool of the store: the base, and every tenant. -/
def owners (s : AllocationStore) : List (Option String) := none :: s.tenantPools.map fun p => some p.id

def Routed (s : AllocationStore) : Prop :=
  ∀ id id', s.HasPool id → s.HasPool id' → ∀ port, (s.poolAt id).contains port = true →
    (s.poolAt id').contains port = true → id = id'

variable {port : UInt16} {owner : Option String}

theorem contains_poolIdForPort {i : Nat} (h : s.poolIdForPort port = some i) :
    (s.poolAt (some i)).contains port = true := by
  obtain ⟨hi, hIn, -⟩ := findIdx?_eq_some_iff_getElem.mp h
  rw [poolAt_some hi]
  exact hIn

theorem Routed.poolIdForPort (h : s.Routed) {id : PoolId} (hPool : s.HasPool id)
    (hIn : (s.poolAt id).contains port = true) : s.poolIdForPort port = id := by
  cases hId : s.poolIdForPort port with
  | some j =>
    have hOther : s.HasPool (some j) := hId ▸ s.hasPool_poolIdForPort port
    exact h _ _ hOther hPool port (contains_poolIdForPort hId) hIn
  | none =>
    cases id with
    | none => rfl
    | some i =>
      have hi := hPool i rfl
      rw [poolAt_some hi] at hIn
      have hNone := findIdx?_eq_none_iff.mp hId _ (getElem_mem hi)
      rw [hIn] at hNone
      cases hNone

theorem tenantIdForPort_eq (s : AllocationStore) (port : UInt16) :
    s.tenantIdForPort port = (s.poolIdForPort port).bind fun i => (s.tenantPools[i]?).map TenantPool.id := by
  rw [tenantIdForPort, poolIdForPort, find?_eq_bind_findIdx?_getElem?, Option.map_bind]
  rfl

theorem poolId_owner (hOwner : owner ∈ s.owners) :
    ((s.poolId owner).bind fun i => (s.tenantPools[i]?).map TenantPool.id) = owner := by
  obtain rfl | hMem := mem_cons.mp hOwner
  · rfl
  obtain ⟨p, hp, rfl⟩ := mem_map.mp hMem
  cases hId : s.poolId (some p.id) with
  | none =>
    have hNone := findIdx?_eq_none_iff.mp hId p hp
    rw [beq_self_eq_true] at hNone
    cases hNone
  | some i =>
    obtain ⟨hi, hName, -⟩ := findIdx?_eq_some_iff_getElem.mp hId
    rw [Option.bind_some, getElem?_eq_getElem hi, Option.map_some, eq_of_beq hName]

theorem tenantIdForPort_of_poolId (hOwner : owner ∈ s.owners)
    (hId : s.poolIdForPort port = s.poolId owner) : s.tenantIdForPort port = owner := by
  rw [tenantIdForPort_eq, hId, poolId_owner hOwner]

theorem poolId_inj {owner' : Option String} (hOwner : owner ∈ s.owners) (hOwner' : owner' ∈ s.owners)
    (hId : s.poolId owner = s.poolId owner') : owner = owner' := by
  rw [← poolId_owner hOwner, hId, poolId_owner hOwner']

/-- The pools of `s` are those of `s₀`, each at work inside its range. -/
structure PoolsKept (s₀ s : AllocationStore) : Prop where
  routes : SameRoutes s₀ s
  minPort : s.ports.minPort = s₀.ports.minPort
  maxPort : s.ports.maxPort = s₀.ports.maxPort
  ready : ∀ id, s.HasPool id → (s.poolAt id).Ready

namespace PoolsKept

variable {s₀ : AllocationStore}

section

variable (h : PoolsKept s₀ s)
include h

theorem same (hPools : SamePools s s') : PoolsKept s₀ s' := by
  obtain ⟨hBase, hTenants⟩ := hPools
  refine ⟨?_, hBase ▸ h.minPort, hBase ▸ h.maxPort, fun id hPool => ?_⟩
  · rw [SameRoutes, hTenants]
    exact h.routes
  have hReady := h.ready id fun i hi => hTenants ▸ hPool i hi
  cases id with
  | none =>
    rw [poolAt, hBase]
    exact hReady
  | some i =>
    rw [poolAt, hTenants, hBase]
    exact hReady

theorem updatePool {id : PoolId} {f : PortAllocator → PortAllocator} {a b : Multiset UInt16}
    (hPool : s.HasPool id) (hTransfer : PortAllocator.Transfer (s.poolAt id) (f (s.poolAt id)) a b) :
    PoolsKept s₀ (s.updatePool f id) := by
  have hRoutes := routes_updatePool hTransfer.minPort hTransfer.maxPort
  refine ⟨hRoutes.trans h.routes, ?_, ?_, fun id' hPool' => ?_⟩
  · cases id with
    | none => exact hTransfer.minPort.trans h.minPort
    | some i => exact h.minPort
  · cases id with
    | none => exact hTransfer.maxPort.trans h.maxPort
    | some i => exact h.maxPort
  · have hOld := hRoutes.hasPool hPool'
    by_cases hId : id' = id
    · subst hId
      rw [poolAt_updatePool_self hPool]
      exact (h.ready id' hPool).transfer hTransfer
    · rw [poolAt_updatePool_ne hOld hId]
      exact h.ready id' hOld

theorem release (port : UInt16) : PoolsKept s₀ ((Stmt.releasePort port).exec s) :=
  @PoolsKept.updatePool s s₀ h _ (fun pool => pool.release port) _ _ (s.hasPool_poolIdForPort port)
    (release_spec port)

theorem runScript (script : List Stmt) : PoolsKept s₀ (s.runScript script) := by
  have hFold : ∀ (ports : List UInt16) {s : AllocationStore}, PoolsKept s₀ s →
      PoolsKept s₀ (ports.foldl (fun s port => (Stmt.releasePort port).exec s) s) := by
    intro ports
    induction ports with
    | nil => exact fun h => h
    | cons port ports ih => exact fun h => ih (h.release port)
  exact (hFold _ h).same (runScript_pools s script)

theorem reserve (port : UInt16) :
    PoolsKept s₀ (s.updatePool (fun pool => (pool.reserve port).2) (s.poolIdForPort port)) := by
  have hSpec := @reserve_spec (s.poolForPort port) port
  have hUpdate := fun b => @PoolsKept.updatePool s s₀ h (s.poolIdForPort port) (fun pool => (pool.reserve port).2) 0 b
    (s.hasPool_poolIdForPort port)
  change ∀ b, PortAllocator.Transfer (s.poolForPort port) ((s.poolForPort port).reserve port).2 0 b → _ at hUpdate
  generalize (s.poolForPort port).reserve port = r at hSpec hUpdate
  obtain ⟨result, pool'⟩ := r
  cases result with
  | error e => exact hUpdate 0 hSpec
  | ok => exact hUpdate {port} hSpec

theorem sweep (now : Nat) : PoolsKept s₀ (s.sweepReservations now) := by
  have hSpec := fun pool => @sweepExpiredReservations_spec pool now 0
  have hRoutes : s.SameRoutes (s.sweepReservations now) := by
    rw [SameRoutes, sweepReservations, map_map]
    rfl
  refine ⟨hRoutes.trans h.routes, h.minPort, h.maxPort, fun id hPool => ?_⟩
  have hReady := h.ready id (hRoutes.hasPool hPool)
  cases id with
  | none => exact hReady.transfer (hSpec _)
  | some i =>
    have hi := hRoutes.hasPool hPool i rfl
    rw [poolAt_some hi] at hReady
    have hi' : i < (s.sweepReservations now).tenantPools.length := hPool i rfl
    rw [poolAt_some hi']
    simp only [sweepReservations, getElem_map]
    exact hReady.transfer (hSpec _)

theorem contains {id : PoolId} (hPool : s.HasPool id) (port : UInt16) :
    (s.poolAt id).contains port = (s₀.poolAt id).contains port := by
  cases id with
  | none =>
    change s.ports.contains port = s₀.ports.contains port
    rw [PortAllocator.contains, h.minPort, h.maxPort]
    rfl
  | some i =>
    have hi := hPool i rfl
    have hi₀ := h.routes.hasPool hPool i rfl
    have hRoute := congrArg (fun l : List (String × UInt16 × UInt16) => l[i]?) h.routes
    simp only [getElem?_map, getElem?_eq_getElem hi, getElem?_eq_getElem hi₀, Option.map_some,
      Option.some.injEq, routeOf, Prod.mk.injEq] at hRoute
    rw [poolAt_some hi, poolAt_some hi₀, PortAllocator.contains, hRoute.2.1, hRoute.2.2]
    rfl

theorem routed (hRouted : s₀.Routed) : s.Routed := by
  intro id id' hPool hPool' port hIn hIn'
  rw [h.contains hPool] at hIn
  rw [h.contains hPool'] at hIn'
  exact hRouted id id' (h.routes.hasPool hPool) (h.routes.hasPool hPool') port hIn hIn'

end

end PoolsKept

end AllocationStore

open AllocationStore

def HandsOutHome (s : AllocationStore) : Prop :=
  ∀ owner ∈ s.owners, ∀ port, (s.pool owner).HandsOut port →
    s.poolIdForPort port = s.poolId owner ∧ s.tenantIdForPort port = owner

/-- A used port is returned to the pool that has it, no port is in two pools, and a live or restored allocation is
charged to the tenant of its port. -/
structure PortsHome (s : AllocationStore) : Prop where
  returned : ∀ owner ∈ s.owners, ∀ port ∈ (s.pool owner).used, s.poolIdForPort port = s.poolId owner
  once : ∀ owner ∈ s.owners, ∀ owner' ∈ s.owners, ∀ port, port ∈ (s.pool owner).used →
    port ∈ (s.pool owner').used → owner = owner'
  charged : ∀ c a, s.allocations.get c = some a → a.tenantId = s.tenantIdForPort a.relayAddr.port
  restored : ∀ c a, s.allocations.get c = some a → ∀ s' (row : RehydrateRow) clock, SameRoutes s s' →
    row.relayAddr.port = a.relayAddr.port → (row.restored s' clock).tenantId = a.tenantId

/-- An allocation is created for an owner on a port that was drawn from the owner's pool. -/
def StoreOp.Draws (s : AllocationStore) : StoreOp → Prop
  | .pool id f => s.HasPool id ∧ ∃ (call : PoolCall) (env : PoolEnv),
      (s.poolAt id).reservations.get env.token = none ∧ f = fun pool => (call.step env pool).1
  | .create _ req => req.tenantId ∈ s.owners ∧ req.relayAddr.port ∈ (s.pool req.tenantId).used
  | _ => True

structure RoutingInvariant (s₀ s : AllocationStore) : Prop where
  pools : PoolsKept s₀ s
  charged : ∀ c a, s.allocations.get c = some a → a.tenantId = s₀.tenantIdForPort a.relayAddr.port

def routingRules (s₀ : AllocationStore) : Rules where
  publish _ _ a := a.tenantId = s₀.tenantIdForPort a.relayAddr.port
  edit _ _ := True
  teardown _ _ := True
  pools s s' := PoolsKept s₀ s → PoolsKept s₀ s'
  edit_of_channels _ _ _ := trivial
  teardown_own _ := trivial
  pools_same _ _ _ hPools h := h.same hPools
  pools_sweep _ now h := h.sweep now
  pools_reserve _ port h := h.reserve port

namespace RoutingInvariant

variable {s₀ s s' : AllocationStore}

section

variable (h : RoutingInvariant s₀ s)
include h

theorem effect (hEffect : Effect (routingRules s₀) s s') : RoutingInvariant s₀ s' := by
  refine ⟨?_, fun c a' hGet' => ?_⟩
  · cases hEffect with
    | quiet hQuiet hRule => exact hRule h.pools
    | publish hCharge hPools => exact h.pools.same hPools
    | @teardown c r a script =>
      have hOut : PoolsKept s₀ { s with allocations := s.allocations.remove c } := h.pools.same ⟨rfl, rfl⟩
      exact hOut.runScript script
    | _ => exact h.pools.same ⟨rfl, rfl⟩
  obtain ⟨c₀, a, hGet, hSame, -⟩ | ⟨_, hRule, -⟩ := hEffect.live hGet'
  · rw [hSame.tenantId, hSame.relayAddr]
    exact h.charged c₀ a hGet
  · exact hRule

theorem apply (hRouted : s₀.Routed) {op : StoreOp} (hDraws : op.Draws s) : RoutingInvariant s₀ (op.apply s) := by
  have hKeeps : op.Keeps (routingRules s₀) s := by
    cases op with
    | pool id f =>
      intro hPools
      obtain ⟨hPool, call, env, hFresh, rfl⟩ := hDraws
      exact @PoolsKept.updatePool s s₀ hPools id (fun pool => (call.step env pool).1) _ _ hPool
        (call.step_spec (hPools.ready id hPool).cursor hFresh)
    | create clock req =>
      intro _
      obtain ⟨hOwner, hDrawn⟩ := hDraws
      have hPool := s.hasPool_poolId req.tenantId
      have hNow := h.pools.routed hRouted
      have hHome := hNow.poolIdForPort hPool ((h.pools.ready _ hPool).inRange _ hDrawn)
      have hTenant := tenantIdForPort_of_poolId hOwner hHome
      rw [tenantIdForPort_congr h.pools.routes] at hTenant
      exact hTenant.symm
    | rehydrate order clock row =>
      intro _ _
      exact tenantIdForPort_congr h.pools.routes row.relayAddr.port
    | remove => exact fun _ _ => trivial
    | cleanup => exact fun _ _ _ _ => trivial
    | _ => trivial
  have hMinted : RoutingInvariant s₀ (op.minted s) := by
    rw [StoreOp.minted]
    split
    · exact ⟨h.pools.same ⟨rfl, rfl⟩, h.charged⟩
    · exact h
  exact (apply_effects s op hKeeps).invariant _ (fun _ _ hEffect hInv => hInv.effect hEffect) hMinted

theorem portsHome (hRouted : s₀.Routed) : PortsHome s := by
  have hNow := h.pools.routed hRouted
  have hReturned : ∀ owner ∈ s.owners, ∀ port ∈ (s.pool owner).used, s.poolIdForPort port = s.poolId owner := by
    intro owner _ port hMem
    have hPool := s.hasPool_poolId owner
    exact hNow.poolIdForPort hPool ((h.pools.ready _ hPool).inRange port hMem)
  refine ⟨hReturned, fun owner hOwner owner' hOwner' port hMem hMem' => ?_, fun c a hGet => ?_,
    fun c a hGet s' row clock hRoutes hPort => ?_⟩
  · refine poolId_inj hOwner hOwner' ?_
    rw [← hReturned owner hOwner port hMem, hReturned owner' hOwner' port hMem']
  · rw [h.charged c a hGet, tenantIdForPort_congr h.pools.routes]
  · rw [h.charged c a hGet, ← tenantIdForPort_congr h.pools.routes, ← tenantIdForPort_congr hRoutes, ← hPort]
    rfl

end

end RoutingInvariant

end Turna.Session
