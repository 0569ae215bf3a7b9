import Turna.Session.Moves
import Turna.Session.PortLedger
import Turna.Session.PortPool

/-! # Teardown under interleaving

`remove` works with the relay address its caller read in an earlier access. The sweep and a refresh to
zero read it before other workers may have replaced the allocation.
-/

namespace Turna.Session
open Lib Net AllocationStore Multiset Call PortAllocator

def Call.ports (call : Call) : Multiset UInt16 := (call.owed.filterMap Stmt.port? : List UInt16)

def World.drawsHome (w : World) (req : AllocateRequest) : Bool :=
  match (w.store.poolAt (w.store.poolId req.tenantId)).allocate.1 with
  | .ok port => w.store.poolIdForPort port = w.store.poolId req.tenantId
  | .error _ => true

namespace AllocationStore

def CursorsReady (s : AllocationStore) : Prop := ∀ id, s.HasPool id → (s.poolAt id).CursorInRange

variable {s s' : AllocationStore}

theorem poolAt_congr (h : SamePools s s') (id : PoolId) : s'.poolAt id = s.poolAt id := by
  obtain ⟨hBase, hTenants⟩ := h
  cases id with
  | none => exact hBase
  | some i =>
    rw [poolAt, hTenants, hBase]
    rfl

theorem CursorsReady.same (h : s.CursorsReady) (hPools : SamePools s s') : s'.CursorsReady := by
  intro id hPool
  rw [poolAt_congr hPools]
  exact h id (fun i hi => hPools.2 ▸ hPool i hi)

theorem CursorsReady.updatePool (h : s.CursorsReady) {id : PoolId} {f : PortAllocator → PortAllocator}
    {a b : Multiset UInt16} (hPool : s.HasPool id)
    (hTransfer : PortAllocator.Transfer (s.poolAt id) (f (s.poolAt id)) a b) : (s.updatePool f id).CursorsReady := by
  intro id' hPool'
  have hOld := (routes_updatePool hTransfer.minPort hTransfer.maxPort).hasPool hPool'
  by_cases hId : id' = id
  · subst hId
    rw [poolAt_updatePool_self hPool]
    exact hTransfer.cursor (h _ hPool)
  · rw [poolAt_updatePool_ne hOld hId]
    exact h id' hOld

theorem updatePool_of_not_hasPool {id : PoolId} (h : ¬ s.HasPool id) (f : PortAllocator → PortAllocator) :
    s.updatePool f id = s := by
  cases id with
  | none => exact absurd (fun _ hi => nomatch hi) h
  | some i =>
    have hi : s.tenantPools.length ≤ i := by
      by_contra hLt
      exact h fun j hj => by cases hj; exact Nat.lt_of_not_le hLt
    have hSame : s.tenantPools.modify i (fun p => { p with ports := f p.ports }) = s.tenantPools :=
      List.modify_eq_self hi
    rw [updatePool, hSame]

end AllocationStore

theorem ports_emits (ops : List WriteOp) : (ops.map Stmt.emitWrite).filterMap Stmt.port? = [] := by
  rw [List.filterMap_map, List.filterMap_eq_nil_iff]
  exact fun _ _ => rfl

theorem ports_carried (a : Allocation) : (carried a).filterMap Stmt.port? = [a.relayAddr.port] := by
  rw [carried, List.filterMap_append, filterMap_releaseCounters]
  simp [Stmt.port?]

theorem filterMap_drop {β : Type} {touch : Stmt → Option β} (h : ∀ c : Counter, touch c.release = none)
    (r : CounterReservation) : r.drop.filterMap touch = [] := by
  have hGlobal : touch .releaseGlobal = none := h .global
  have hTenant : ∀ tenantId, touch (.releaseTenant tenantId) = none := fun tenantId => h (.tenant tenantId)
  have hUser : ∀ key, touch (.releaseUser key) = none := fun key => h (.user key)
  obtain ⟨key, tenantId, user, tenant, global⟩ := r
  cases user <;> cases tenant <;> cases global <;>
    simp [CounterReservation.drop, List.filterMap_map, hGlobal, hTenant, hUser]

theorem port?_release (c : Counter) : c.release.port? = none := by
  cases c <;> rfl

theorem ports_onTaken {job : Job} (h : job.Backed) (clock : Clock) (allocationId : String) :
    job.onTaken.filterMap Stmt.port? = [(job.allocation clock allocationId).relayAddr.port] := by
  cases job with
  | create req onFail =>
    cases h
    rw [Job.onTaken, List.filterMap_append, filterMap_drop port?_release]
    rfl
  | rehydrate row tenantId =>
    rw [Job.onTaken, List.filterMap_cons, filterMap_drop port?_release]
    rfl

theorem SameLedger.samePools {s s' : AllocationStore} (h : SameLedger s s') : SamePools s s' :=
  ⟨h.ports, h.tenantPools⟩

section Counters

variable (s : AllocationStore) (c : Counter)

theorem samePools_add (n : Int) : SamePools s (s.add c n) := by
  cases c <;> exact ⟨rfl, rfl⟩

theorem samePools_entry : SamePools s (s.entry c) := by
  cases c <;> exact ⟨rfl, rfl⟩

theorem allocations_add (n : Int) : (s.add c n).allocations = s.allocations := by
  cases c <;> rfl

theorem allocations_entry : (s.entry c).allocations = s.allocations := by
  cases c <;> rfl

theorem writeTx_add (n : Int) : (s.add c n).writeTx = s.writeTx := by
  cases c <;> rfl

theorem writeTx_entry : (s.entry c).writeTx = s.writeTx := by
  cases c <;> rfl

end Counters

theorem owed_undo {job : Job} {caps : Caps} {kind : CounterKind} {c : Counter}
    (h : kind.counter job.userKey = some c) :
    (Call.admission job caps kind .undo).owed = c.release :: (Call.admission job caps kind .add).owed := by
  rw [owed, probe, h]
  rfl

theorem ports_release {call call' : Call} {c : Counter} (hOwed : call.owed = c.release :: call'.owed) :
    call.ports = call'.ports := by
  rw [Call.ports, hOwed, List.filterMap_cons, port?_release]
  rfl

structure LedgerInvariant (w : World) (calls : Multiset Call) : Prop where
  ledger : Ledger w.store (calls.map Call.ports).sum
  cursors : w.store.CursorsReady
  jobs : ∀ call ∈ calls, ∀ job, call.job? = some job → job.Backed

namespace LedgerInvariant

variable {w w' : World} {call call' : Call} {rest : Multiset Call}

section

variable (h : LedgerInvariant w (call ::ₘ rest)) (hNext : call.Follows w.store call')
include h hNext

theorem jobs_next : ∀ other ∈ call' ::ₘ rest, ∀ job, other.job? = some job → job.Backed := by
  intro other hMem job hJob
  obtain rfl | hMem := mem_cons.mp hMem
  · obtain hOld | hBacked := hNext.job job hJob
    · exact h.jobs call (mem_cons_self ..) job hOld
    · exact hBacked
  · exact h.jobs other (mem_cons_of_mem hMem) job hJob

theorem transfer (hPools : SamePools w.store w'.store)
    (hPorts : portsOf w'.store.allocations + call'.ports = portsOf w.store.allocations + call.ports) :
    LedgerInvariant w' (call' ::ₘ rest) where
  ledger := by
    refine h.ledger.transfer hPools (le_of_eq ?_)
    rw [map_cons, sum_cons, map_cons, sum_cons, ← add_assoc, hPorts, add_assoc]
  cursors := h.cursors.same hPools
  jobs := h.jobs_next hNext

theorem pool {id : AllocationStore.PoolId} {f : PortAllocator → PortAllocator} {a b : Multiset UInt16}
    (hPool : w.store.HasPool id) (hTransfer : PortAllocator.Transfer (w.store.poolAt id) (f (w.store.poolAt id)) a b)
    (hHome : ∀ port ∈ a + b, w.store.poolIdForPort port = id) {kept : Multiset UInt16}
    (hPorts : call.ports = a + kept) (hPorts' : call'.ports = b + kept) :
    LedgerInvariant ⟨w.store.updatePool f id, w.guards⟩ (call' ::ₘ rest) where
  ledger := by
    have hOld := h.ledger
    rw [map_cons, sum_cons, hPorts, add_assoc] at hOld
    have hNew := hOld.updatePool hPool hTransfer (fun port hMem => hHome port (mem_add.mpr (.inl hMem)))
    rw [filter_eq_self.mpr (fun port hMem => hHome port (mem_add.mpr (.inr hMem)))] at hNew
    rw [map_cons, sum_cons, hPorts', add_assoc]
    exact hNew
  cursors := h.cursors.updatePool hPool hTransfer
  jobs := h.jobs_next hNext

theorem exec {stmt : Stmt} (hOwed : call.owed = stmt :: call'.owed) :
    LedgerInvariant ⟨stmt.exec w.store, w.guards⟩ (call' ::ₘ rest) := by
  cases hPort : stmt.port? with
  | none =>
    refine h.transfer hNext (samePools_exec w.store hPort) ?_
    have hSame : (stmt.exec w.store).allocations = w.store.allocations := runScript_allocations w.store [stmt]
    rw [hSame, Call.ports, Call.ports, hOwed, List.filterMap_cons, hPort]
  | some port =>
    obtain rfl : stmt = .releasePort port := by
      cases stmt <;> first | cases hPort; rfl | cases hPort
    refine h.pool hNext (f := fun pool => pool.release port) (a := {port}) (b := 0)
      (w.store.hasPool_poolIdForPort port) (release_spec port) (fun p hMem => ?_) ?_ (zero_add _).symm
    · rw [add_zero, mem_singleton] at hMem
      rw [hMem]
    · rw [Call.ports, hOwed]
      rfl

theorem act {env : Env} {s' : AllocationStore} (hAct : Act env call w.store call' s')
    (hDraw : ∀ req, call = .allocate req → w.drawsHome req = true)
    (hOwn : ∀ c r a, call.removal = some (c, r) → w.store.allocations.get c = some a → a.relayAddr = r) :
    LedgerInvariant ⟨s', w.guards⟩ (call' ::ₘ rest) := by
  cases hAct with
  | quiet hStore hOwed =>
    refine h.transfer hNext hStore.samePools ?_
    rw [hStore.allocations, Call.ports, Call.ports, hOwed]
  | exec hOwed => exact h.exec hNext hOwed
  | edit hGet hSame hNone hOwed hTouch =>
    refine h.transfer hNext ⟨rfl, rfl⟩ ?_
    rw [portsOf_update hGet hSame.relayAddr, Call.ports, Call.ports, hNone, hOwed, ports_emits]
    rfl
  | @draw req _ port hPort =>
    have hHome : w.store.poolIdForPort port = w.store.poolId req.tenantId := by
      have hDrawn := hDraw req rfl
      rw [World.drawsHome, hPort] at hDrawn
      exact of_decide_eq_true hDrawn
    have hPool := w.store.hasPool_poolId req.tenantId
    have hSpec := allocate_spec (h.cursors _ hPool)
    have hTransfer : PortAllocator.Transfer (w.store.poolAt (w.store.poolId req.tenantId))
        (w.store.poolAt (w.store.poolId req.tenantId)).allocate.2 0 {port} := by
      generalize (w.store.poolAt (w.store.poolId req.tenantId)).allocate = r at hSpec hPort
      obtain ⟨result, pool'⟩ := r
      cases hPort
      exact hSpec
    refine h.pool hNext hPool hTransfer (fun p hMem => ?_) (zero_add _).symm rfl
    rw [zero_add, mem_singleton] at hMem
    rw [hMem, hHome]
  | @exhausted req _ e hPort =>
    have hPool := w.store.hasPool_poolId req.tenantId
    have hSpec := allocate_spec (h.cursors _ hPool)
    have hTransfer : PortAllocator.Transfer (w.store.poolAt (w.store.poolId req.tenantId))
        (w.store.poolAt (w.store.poolId req.tenantId)).allocate.2 0 0 := by
      generalize (w.store.poolAt (w.store.poolId req.tenantId)).allocate = r at hSpec hPort
      obtain ⟨result, pool'⟩ := r
      cases hPort
      exact hSpec
    exact h.pool hNext hPool hTransfer (fun p hMem => by cases notMem_zero _ hMem) (zero_add _).symm rfl
  | @reserve row tenantId _ hPort =>
    have hTransfer : PortAllocator.Transfer (w.store.poolForPort row.relayAddr.port)
        ((w.store.poolForPort row.relayAddr.port).reserve row.relayAddr.port).2 0 {row.relayAddr.port} := by
      have hSpec := @reserve_spec (w.store.poolForPort row.relayAddr.port) row.relayAddr.port
      generalize (w.store.poolForPort row.relayAddr.port).reserve row.relayAddr.port = r at hSpec hPort
      obtain ⟨result, pool'⟩ := r
      cases result with
      | error e => cases hPort
      | ok => exact hSpec
    refine @LedgerInvariant.pool _ _ _ _ h hNext _ (fun pool => (pool.reserve row.relayAddr.port).2) 0
      {row.relayAddr.port} (w.store.hasPool_poolIdForPort _) hTransfer (fun p hMem => ?_) 0 ?_ ?_
    · rw [zero_add, mem_singleton] at hMem
      rw [hMem]
    · change (((fullReservation _).drop ++ []).filterMap Stmt.port? : Multiset UInt16) = 0
      rw [List.append_nil, filterMap_drop port?_release]
      rfl
    · change ((Stmt.releasePort _ :: (fullReservation _).drop).filterMap Stmt.port? : Multiset UInt16) = _
      rw [List.filterMap_cons, filterMap_drop port?_release]
      rfl
  | sweep id now hNone hOwed =>
    have hPorts : call'.ports = call.ports := by rw [Call.ports, Call.ports, hNone, hOwed]
    by_cases hPool : w.store.HasPool id
    · exact @LedgerInvariant.pool _ _ _ _ h hNext id (fun pool => (pool.sweepExpiredReservations now).2) 0 0 hPool
        (sweepExpiredReservations_spec now 0) (fun p hMem => by cases notMem_zero _ hMem)
        call.ports (zero_add _).symm (by rw [zero_add, hPorts])
    · rw [updatePool_of_not_hasPool hPool]
      exact h.transfer hNext ⟨rfl, rfl⟩ (by rw [hPorts])
  | @publish job allocationId _ hVacant =>
    have hBacked := h.jobs _ (mem_cons_self ..) job rfl
    have hClaimed : (claim job allocationId).ports = {(job.allocation env.clock allocationId).relayAddr.port} := by
      change (job.onTaken.filterMap Stmt.port? : Multiset UInt16) = _
      rw [ports_onTaken hBacked env.clock allocationId]
      rfl
    have hDone : (published env.clock allocationId job).ports = 0 := by
      cases job <;> rfl
    have hSlot : w.store.allocations.get (job.allocation env.clock allocationId).clientAddr = none := by
      cases job <;> exact hVacant
    refine h.transfer hNext ⟨rfl, rfl⟩ ?_
    change portsOf (w.store.allocations.insert _ _) + _ = _
    rw [portsOf_insert hSlot, hDone, hClaimed, add_zero, ← singleton_add, add_comm]
  | @takeOut _ _ _ c r a hCall hGet hTeardown =>
    have hNone : call.ports = 0 := by
      cases call <;> first | rfl | cases hCall
    refine h.transfer hNext ⟨rfl, rfl⟩ ?_
    rw [hNone, Call.ports, hTeardown.ports, ← hOwn c r a hCall hGet, portsOf_remove hGet, add_zero, add_comm]
    rfl
  | @force _ _ c a hGet hTeardown =>
    refine h.transfer hNext ⟨rfl, rfl⟩ ?_
    change portsOf _ + (_ : Multiset UInt16) = _ + 0
    rw [Call.ports, hTeardown.ports, portsOf_remove hGet, add_zero, add_comm]
    rfl
  | @lift oldAddr newAddr _ a hGet =>
    refine h.transfer hNext ⟨rfl, rfl⟩ ?_
    change portsOf _ + ((carried a).filterMap Stmt.port? : Multiset UInt16) = _ + 0
    rw [ports_carried, portsOf_remove hGet, add_zero, add_comm]
    rfl
  | @land _ _ _ _ c a a' ops hVacant hSame hCarries hStore hOwed =>
    refine h.transfer hNext ⟨hStore.ports, hStore.tenantPools⟩ ?_
    rw [hStore.allocations, portsOf_insert hVacant, Call.ports, Call.ports, hOwed, Call.owed_of_carries hCarries, ports_carried, ports_emits,
      hSame.relayAddr]
    change _ ::ₘ _ + 0 = _ + {_}
    rw [add_zero, ← singleton_add, add_comm]
  | @lost oldAddr _ _ a hTeardown =>
    refine h.transfer hNext ⟨rfl, rfl⟩ ?_
    rw [Call.ports, hTeardown.ports]
    change _ = _ + ((carried a).filterMap Stmt.port? : Multiset UInt16)
    rw [ports_carried]

end

theorem step {env : Env} (h : LedgerInvariant w (call ::ₘ rest)) (hMove : Move env w call w' call')
    (hDraw : ∀ req, call = .allocate req → w.drawsHome req = true)
    (hOwn : ∀ c r a, call.removal = some (c, r) → w.store.allocations.get c = some a → a.relayAddr = r) :
    LedgerInvariant w' (call' ::ₘ rest) := by
  cases hMove with
  | act hCalm hCalm' hNext hAct => exact h.act hNext hAct hDraw hOwn
  | @lock job caps kind c hCounter =>
    refine h.transfer ⟨fun hCaps => hCaps, fun _ hJob => .inl hJob⟩ (samePools_entry ..) ?_
    rw [allocations_entry]
    rfl
  | @refuse job caps kind c hCounter =>
    refine h.transfer ⟨fun hCaps => hCaps, fun _ hJob => .inl hJob⟩ (samePools_add ..) ?_
    rw [allocations_add, ports_release (owed_undo hCounter)]
  | @charge job caps kind c _ hCounter hRoom hCalm' hNext hOwed =>
    refine h.transfer hNext (samePools_add ..) ?_
    rw [allocations_add, ports_release hOwed]
  | @undo job caps kind c _ hCounter hCalm' hNext hOwed =>
    refine h.transfer hNext (samePools_add ..) ?_
    rw [allocations_add, ports_release hOwed]
  | prune key hFree => exact h.transfer (.of_none rfl) ⟨rfl, rfl⟩ rfl

theorem start (h : LedgerInvariant w rest) (hEntry : call.isEntry = true) (hBare : call.job? = none) :
    LedgerInvariant w (call ::ₘ rest) where
  ledger := by
    have hNone : call.ports = 0 := by
      cases call <;> first | rfl | cases hEntry | cases hBare
    rw [map_cons, sum_cons, hNone, zero_add]
    exact h.ledger
  cursors := h.cursors
  jobs other hMem job hJob := by
    obtain rfl | hMem := mem_cons.mp hMem
    · rw [hBare] at hJob
      cases hJob
    · exact h.jobs other hMem job hJob

end LedgerInvariant

theorem cursorsReady_world (setup : Setup) : setup.world.store.CursorsReady := by
  have hNew : ∀ {minPort maxPort : UInt16} (random : UInt32), minPort < maxPort →
      (PortAllocator.new minPort maxPort random).CursorInRange :=
    fun random hRange => (PortAllocator.contains_iff _).mpr (randomStartPort_inRange hRange random)
  intro id hPool
  rw [Setup.world, configured_eq] at hPool ⊢
  cases id with
  | none => exact hNew setup.random setup.base
  | some i =>
    have hi : i < (setup.tenants.map TenantRange.pool).length := hPool i rfl
    rw [List.length_map] at hi
    rw [poolAt, List.getElem?_map, List.getElem?_eq_getElem hi]
    exact hNew _ (setup.ranges _ (List.getElem_mem hi))

theorem ledgerInvariant_initial (setup : Setup) : LedgerInvariant setup.world 0 where
  ledger := Ledger.transfer (ledger_configured setup.minPort setup.maxPort setup.random setup.runtime.maxAllocations
    setup.tenants) ⟨rfl, rfl⟩ (le_refl _)
  cursors := cursorsReady_world setup
  jobs _ hMem := by cases notMem_zero _ hMem

/-! ## Teardown under interleaving -/

section Conditions

variable {w : World} {call : Call} {env : Env}

end Conditions

section Own

variable {env : Env} {call call' : Call} {s s' : AllocationStore} {c : SocketAddr} {a : Allocation}

theorem eq_of_get_remove {c' : SocketAddr} (hGet : s.allocations.get c = some a)
    (hGone : (s.allocations.remove c').get c = none) : c = c' := by
  by_contra hNe
  rw [HashMap.get_remove_ne _ hNe, hGet] at hGone
  cases hGone

theorem not_gone_of_insert {c' : SocketAddr} {a' : Allocation} (hGet : s.allocations.get c = some a)
    (hGone : (s.allocations.insert c' a').get c = none) : False := by
  rw [HashMap.get_insert] at hGone
  split at hGone
  · cases hGone
  · rw [hGet] at hGone
    cases hGone

/-- By a removal under the relay address of its caller, by a forced removal, or on its way to another key. -/
theorem Act.gone (h : Act env call s call' s') (hGet : s.allocations.get c = some a)
    (hGone : s'.allocations.get c = none) :
    (∃ r, call.removal = some (c, r) ∧ IsTeardown call'.owed a c r) ∨ IsTeardown call'.owed a c a.relayAddr ∨
      ∃ newAddr, call' = .reKeyClaim c newAddr a := by
  have hStay : s'.allocations ≠ s.allocations := by
    intro hSame
    rw [hSame, hGet] at hGone
    cases hGone
  cases h with
  | quiet hStore hOwed => exact absurd hStore.allocations hStay
  | @exec _ _ _ stmt hOwed => exact absurd (runScript_allocations s [stmt]) hStay
  | edit | publish => exact (not_gone_of_insert hGet hGone).elim
  | draw | exhausted | reserve | sweep => exact absurd (sameIndex_updatePool ..).allocations hStay
  | @takeOut _ _ _ c' r a' hCall hGet' hTeardown =>
    obtain rfl := eq_of_get_remove hGet hGone
    obtain rfl := Option.some.inj (hGet.symm.trans hGet')
    exact .inl ⟨r, hCall, hTeardown⟩
  | @force _ _ c' a' hGet' hTeardown =>
    obtain rfl := eq_of_get_remove hGet hGone
    obtain rfl := Option.some.inj (hGet.symm.trans hGet')
    exact .inr (.inl hTeardown)
  | @lift oldAddr newAddr _ a' hGet' =>
    obtain rfl := eq_of_get_remove hGet hGone
    obtain rfl := Option.some.inj (hGet.symm.trans hGet')
    exact .inr (.inr ⟨newAddr, rfl⟩)
  | land hVacant hSame hCarries hStore hOwed =>
    rw [hStore.allocations] at hGone
    exact (not_gone_of_insert hGet hGone).elim
  | lost => exact absurd rfl hStay

end Own

namespace StaleRelay

def node : Setup where
  minPort := 40000
  maxPort := 40001
  random := 0
  tenants := []
  runtime := ⟨0, 0, 0, 0⟩
  userLimits := .empty
  writeTx := none
  base := Setup.twoPorts
  ranges := Setup.noTenants

def client (n : UInt16) : SocketAddr := .v4 ⟨10, 0, 0, 1⟩ n

def relay (port : UInt16) : SocketAddr := .v4 ⟨192, 0, 2, 1⟩ port

def allocate (n : UInt16) : Machine.Choice Call Env :=
  .start (.allocate ⟨client n, .v4 ⟨192, 0, 2, 1⟩, "alice", [], 600, "example.org", none⟩)

def env : Env := ⟨⟨0, 0⟩, .stored, none, none⟩

def steps (index n : Nat) : List (Machine.Choice Call Env) := List.replicate n (.advance index env)

/-- Between the read of a refresh to zero and its removal, client 1 allocates again on the other port. -/
def replaced : List (Machine.Choice Call Env) :=
  allocate 1 :: steps 0 8 ++ .start (.refresh (client 1) 0) :: steps 0 1 ++
    .start (.remove (client 1) (relay 40000)) :: steps 0 11 ++ allocate 1 :: steps 0 8 ++ allocate 2 :: steps 0 8 ++
    steps 3 8

end StaleRelay

end Turna.Session
