import Mathlib.Algebra.BigOperators.Group.Multiset.Basic
import Mathlib.Algebra.Order.BigOperators.Group.Multiset
import Mathlib.Algebra.Order.Group.Nat
import Turna.Session.Identity
import Turna.Session.Moves

/-! # Admission control under interleaving

A counter is charged by live allocations, by reservations in flight, by over-cap probes about to be
undone, and by allocations that are out of the map with their release still to come. Nothing else
moves it.
-/

namespace Turna.Session
open Lib Net HashMap Counter Nat AllocationStore Multiset

namespace Counter

def counts : Counter → UserKey → Bool
  | .user key', key => key = key'
  | .tenant tenantId, key => key.2.1 = some tenantId
  | .global, _ => true

def releases (c : Counter) (stmts : List Stmt) : Nat := (stmts.filterMap Stmt.counter?).count c

variable (c : Counter)

@[simp] theorem releases_nil : c.releases [] = 0 := rfl

theorem releases_append (l l' : List Stmt) : c.releases (l ++ l') = c.releases l + c.releases l' := by
  rw [releases, List.filterMap_append, List.count_append]
  rfl

theorem releases_cons (stmt : Stmt) (l : List Stmt) :
    c.releases (stmt :: l) = c.releases l + if stmt.counter? = some c then 1 else 0 := by
  rw [releases, releases, List.filterMap_cons]
  cases h : stmt.counter? with
  | none => simp
  | some c' => simp [List.count_cons]

@[simp] theorem counter?_release : c.release.counter? = some c := by
  cases c <;> rfl

theorem releases_emits (ops : List WriteOp) : c.releases (ops.map Stmt.emitWrite) = 0 := by
  induction ops with
  | nil => rfl
  | cons op ops ih =>
    rw [List.map_cons, releases_cons, ih]
    rfl

theorem releases_by_counter (l : List Stmt) : c.releases l = match c with
    | .user key => (l.filterMap Stmt.user?).count key
    | .tenant tenantId => (l.filterMap Stmt.tenant?).count tenantId
    | .global => (l.filterMap Stmt.global?).count () := by
  induction l with
  | nil => cases c <;> rfl
  | cons stmt l ih =>
    rw [releases_cons, ih]
    cases c <;> cases stmt <;>
      simp [Stmt.counter?, Stmt.user?, Stmt.tenant?, Stmt.global?, List.filterMap_cons, List.count_cons]

theorem releases_of_parts {l : List Stmt} {key : UserKey} (hGlobal : l.filterMap Stmt.global? = [()])
    (hTenant : l.filterMap Stmt.tenant? = key.2.1.toList) (hUser : l.filterMap Stmt.user? = [key]) :
    c.releases l = (c.counts key).toNat := by
  rw [releases_by_counter]
  cases c with
  | user key' =>
    simp only [hUser, List.count_singleton, counts, beq_iff_eq]
    split <;> simp_all
  | tenant tenantId =>
    simp only [hTenant, counts]
    cases key.2.1 with
    | none => rfl
    | some t =>
      simp only [Option.toList_some, List.count_singleton, beq_iff_eq, Option.some.injEq]
      split <;> simp_all
  | global => simp [hGlobal, counts]

theorem releases_fullReservation (key : UserKey) : c.releases (fullReservation key).drop = (c.counts key).toNat := by
  rw [fullReservation, drop_eq, releaseTenantUser]
  refine releases_of_parts c ?_ ?_ ?_
  all_goals
    simp [List.filterMap_cons, List.filterMap_map, Function.comp_def, Stmt.global?, Stmt.tenant?, Stmt.user?]

theorem releases_carried (a : Allocation) : c.releases (carried a) = (c.counts a.userKey).toNat := by
  rw [carried]
  refine releases_of_parts c ?_ ?_ ?_
  all_goals
    simp [filterMap_releaseCounters, Stmt.global?, Stmt.tenant?, Stmt.user?, Allocation.userKey]

theorem releases_teardown {script : List Stmt} {a : Allocation} {clientAddr relayAddr : SocketAddr}
    (h : IsTeardown script a clientAddr relayAddr) : c.releases script = (c.counts a.userKey).toNat :=
  releases_of_parts c h.globals h.tenants h.users

end Counter

namespace AllocationStore

variable (s : AllocationStore)

def hasEntry : Counter → Bool
  | .user key => s.userCounts.contains key
  | .tenant tenantId => s.tenantCounts.contains tenantId
  | .global => true

def capOf : Counter → Nat
  | .user key => (Call.capsFor s key).maxPerUser
  | .tenant tenantId => s.tenantMaxAllocations tenantId
  | .global => s.runtime.maxAllocations

variable {s} {s' : AllocationStore} {c : Counter}

theorem hasEntry_of_count_ne_zero (h : s.count c ≠ 0) : s.hasEntry c = true := by
  cases c with
  | user key | tenant tenantId => exact contains_of_tally_ne_zero h
  | global => rfl

theorem count_add (h : s.hasEntry c = true) (n : Int) (c' : Counter) :
    (s.add c n).count c' = s.count c' + if c' = c then n else 0 := by
  cases c with
  | user key =>
    cases c' with
    | user key' =>
      simp only [user.injEq]
      exact tally_modify h n key'
    | _ => exact (Int.add_zero _).symm
  | tenant tenantId =>
    cases c' with
    | tenant tenantId' =>
      simp only [tenant.injEq]
      exact tally_modify h n tenantId'
    | _ => exact (Int.add_zero _).symm
  | global =>
    cases c' with
    | global => rfl
    | _ => exact (Int.add_zero _).symm

theorem hasEntry_add (n : Int) (c' : Counter) : (s.add c n).hasEntry c' = s.hasEntry c' := by
  cases c <;> cases c' <;> first | rfl | exact contains_modify ..

theorem count_entry (c' : Counter) : (s.entry c).count c' = s.count c' := by
  cases c <;> cases c' <;> first | rfl | exact tally_orInsert ..

theorem hasEntry_entry_self (s : AllocationStore) (c : Counter) : (s.entry c).hasEntry c = true := by
  cases c with
  | user key | tenant tenantId => exact contains_orInsert ..
  | global => rfl

theorem hasEntry_entry {c' : Counter} (h : s.hasEntry c' = true) : (s.entry c).hasEntry c' = true := by
  cases c <;> cases c' <;> first | exact h | exact contains_orInsert_of_contains _ h

end AllocationStore

structure SameCounts (s s' : AllocationStore) : Prop where
  globalCount : s'.globalCount = s.globalCount
  tenantCounts : s'.tenantCounts = s.tenantCounts
  userCounts : s'.userCounts = s.userCounts

namespace SameCounts

variable {s s' : AllocationStore}

theorem of_quiet (h : Quiet s s') : SameCounts s s' := ⟨h.globalCount, h.tenantCounts, h.userCounts⟩

theorem of_sameIndex (h : SameIndex s s') : SameCounts s s' := ⟨h.globalCount, h.tenantCounts, h.userCounts⟩

theorem count (h : SameCounts s s') (c : Counter) : s'.count c = s.count c := by
  cases c with
  | user key => exact congrArg (tally · key) h.userCounts
  | tenant tenantId => exact congrArg (tally · tenantId) h.tenantCounts
  | global => exact h.globalCount

theorem hasEntry (h : SameCounts s s') (c : Counter) : s'.hasEntry c = s.hasEntry c := by
  cases c with
  | user key => exact congrArg (contains · key) h.userCounts
  | tenant tenantId => exact congrArg (contains · tenantId) h.tenantCounts
  | global => rfl

end SameCounts

theorem sameCounts_exec (s : AllocationStore) {stmt : Stmt} (h : stmt.counter? = none) :
    SameCounts s (stmt.exec s) := by
  cases stmt with
  | releaseGlobal | releaseTenant tenantId | releaseUser key => cases h
  | unlinkChannel port channel | unlinkRelay relayAddr | unlinkId allocationId | unlinkUser key clientAddr =>
    exact ⟨rfl, rfl, rfl⟩
  | _ => exact .of_sameIndex (sameIndex_exec s rfl)

variable {s : AllocationStore} {c : Counter}

theorem exec_of_counter {stmt : Stmt} (h : stmt.counter? = some c) : stmt.exec s = s.add c (-1) := by
  cases stmt <;> cases h <;> rfl

/-! ## Limits -/

def limitOf (p : TenantPool) : String × Nat × BandwidthQuota := (p.id, p.maxAllocations, p.quota)

structure SameLimits (s s' : AllocationStore) : Prop where
  runtime : s'.runtime = s.runtime
  userLimits : s'.userLimits = s.userLimits
  pools : s'.tenantPools.map limitOf = s.tenantPools.map limitOf

namespace SameLimits

variable {s s' : AllocationStore}

theorem trans {s'' : AllocationStore} (h : SameLimits s s') (h' : SameLimits s' s'') : SameLimits s s'' :=
  ⟨h'.runtime.trans h.runtime, h'.userLimits.trans h.userLimits, h'.pools.trans h.pools⟩

theorem of_sameLedger (h : SameLedger s s') : SameLimits s s' := ⟨h.runtime, h.userLimits, by rw [h.tenantPools]⟩

theorem updatePool (s : AllocationStore) (f : PortAllocator → PortAllocator) (id : AllocationStore.PoolId) :
    SameLimits s (s.updatePool f id) := by
  cases id with
  | none => exact ⟨rfl, rfl, rfl⟩
  | some i =>
    refine ⟨rfl, rfl, List.ext_getElem? fun j => ?_⟩
    rw [AllocationStore.updatePool, List.getElem?_map, List.getElem?_map, List.getElem?_modify]
    cases s.tenantPools[j]? with
    | none => rfl
    | some p =>
      simp only [Option.map_eq_map, Option.map_some, Option.some.injEq]
      split <;> rfl

theorem emitWrite (s : AllocationStore) (op : WriteOp) : SameLimits s (s.emitWrite op) := by
  rw [AllocationStore.emitWrite]
  split
  · exact ⟨rfl, rfl, rfl⟩
  · split <;> exact ⟨rfl, rfl, rfl⟩

theorem exec (s : AllocationStore) (stmt : Stmt) : SameLimits s (stmt.exec s) := by
  cases stmt with
  | releasePort port => exact updatePool s (fun pool => pool.release port) (s.poolIdForPort port)
  | emitWrite op => exact emitWrite s op
  | emitUsageStop alloc reason epochMs =>
    rw [Stmt.exec, emitUsageStop]
    split
    · exact ⟨rfl, rfl, rfl⟩
    · split <;> exact ⟨rfl, rfl, rfl⟩
  | accrueTenantTraffic alloc =>
    rw [Stmt.exec, accrueTenantTraffic]
    split <;> exact ⟨rfl, rfl, rfl⟩
  | _ => exact ⟨rfl, rfl, rfl⟩

theorem add (s : AllocationStore) (c : Counter) (n : Int) : SameLimits s (s.add c n) := by
  cases c <;> exact ⟨rfl, rfl, rfl⟩

theorem entry (s : AllocationStore) (c : Counter) : SameLimits s (s.entry c) := by
  cases c <;> exact ⟨rfl, rfl, rfl⟩

section

variable (h : SameLimits s s')
include h

theorem find (tenantId : String) : (s'.tenantPools.find? (fun p => p.id == tenantId)).map limitOf =
      (s.tenantPools.find? (fun p => p.id == tenantId)).map limitOf := by
  have hMap : ∀ l : List TenantPool, (l.find? (fun p => p.id == tenantId)).map limitOf =
      (l.map limitOf).find? (fun q => q.1 == tenantId) := by
    intro l
    rw [List.find?_map]
    rfl
  rw [hMap, hMap, h.pools]

theorem tenantMaxAllocations (tenantId : String) :
    s'.tenantMaxAllocations tenantId = s.tenantMaxAllocations tenantId := by
  have hFind := congrArg (fun o => (o.map (fun q => q.2.1)).getD 0) (h.find tenantId)
  simp only [Option.map_map] at hFind
  exact hFind

theorem tenantQuota (tenantId : Option String) : s'.tenantQuota tenantId = s.tenantQuota tenantId := by
  cases tenantId with
  | none => rfl
  | some id =>
    have hFind := congrArg (Option.map (fun q => q.2.2)) (h.find id)
    rw [Option.map_map, Option.map_map] at hFind
    exact hFind

theorem capsFor (key : UserKey) : Call.capsFor s' key = Call.capsFor s key := by
  rw [Call.capsFor, AllocationStore.effectiveUserLimits, h.runtime, h.userLimits, h.tenantQuota]
  rfl

theorem capOf (c : Counter) : s'.capOf c = s.capOf c := by
  cases c with
  | user key => exact congrArg Caps.maxPerUser (h.capsFor key)
  | tenant tenantId => exact h.tenantMaxAllocations tenantId
  | global => exact congrArg RuntimeLimits.maxAllocations h.runtime

end

end SameLimits

theorem cap_capsFor {kind : CounterKind} {key : UserKey} (s : AllocationStore)
    (h : kind.counter key = some c) : Call.cap s (Call.capsFor s key) c = s.capOf c := by
  cases kind with
  | user | global =>
    cases h
    rfl
  | tenant =>
    obtain ⟨t, -, rfl⟩ := Option.map_eq_some_iff.mp h
    rfl

/-! ## One access -/

/-- The counter moves with the live allocations it counts and the releases owed to it. -/
structure Balanced (s : AllocationStore) (call : Call) (s' : AllocationStore) (call' : Call) : Prop where
  balance : ∀ c : Counter, s'.count c + s.live c.counts + c.releases call.owed =
    s.count c + s'.live c.counts + c.releases call'.owed
  le : ∀ c, s'.count c ≤ s.count c
  entries : ∀ c, s.hasEntry c = true → s'.hasEntry c = true
  limits : SameLimits s s'

namespace Balanced

variable {s s' : AllocationStore} {call call' : Call}

section

variable (hCounts : SameCounts s s') (hLimits : SameLimits s s')
include hCounts hLimits

theorem of_counts (hMove : ∀ c : Counter, (s.live c.counts : Int) + c.releases call.owed =
      s'.live c.counts + c.releases call'.owed) : Balanced s call s' call' where
  balance c := by rw [hCounts.count, Int.add_assoc, hMove, Int.add_assoc]
  le c := le_of_eq (hCounts.count c)
  entries c h := (hCounts.hasEntry c).trans h
  limits := hLimits

theorem of_same (hLive : s'.allocations = s.allocations)
    (hOwed : ∀ c : Counter, c.releases call'.owed = c.releases call.owed) : Balanced s call s' call' := by
  refine .of_counts hCounts hLimits fun c => ?_
  rw [hOwed, live, live, hLive]

theorem of_gain {client : SocketAddr} {a : Allocation}
    (hVacant : s.allocations.get client = none) (hMap : s'.allocations = s.allocations.insert client a)
    (hOwed : ∀ c : Counter, c.releases call.owed = (c.counts a.userKey).toNat)
    (hPaid : ∀ c : Counter, c.releases call'.owed = 0) : Balanced s call s' call' := by
  refine .of_counts hCounts hLimits fun c => ?_
  have hLive : (s'.live c.counts : Int) = s.live c.counts + if c.counts a.userKey then 1 else 0 := by
    rw [live, hMap]
    exact live_insert hVacant c.counts
  rw [hLive, hOwed, hPaid]
  cases c.counts a.userKey <;> simp

theorem of_loss {client : SocketAddr} {a : Allocation}
    (hGet : s.allocations.get client = some a) (hMap : s'.allocations = s.allocations.remove client)
    (hOwed : ∀ c : Counter, c.releases call.owed = 0)
    (hPaid : ∀ c : Counter, c.releases call'.owed = (c.counts a.userKey).toNat) : Balanced s call s' call' := by
  refine .of_counts hCounts hLimits fun c => ?_
  have hLive : (s'.live c.counts : Int) = s.live c.counts + if c.counts a.userKey then -1 else 0 := by
    rw [live, hMap]
    exact live_remove hGet c.counts
  rw [hLive, hOwed, hPaid]
  cases c.counts a.userKey
  · simp
  · simp only [if_true, Bool.toNat_true]
    omega

end

theorem of_exec {stmt : Stmt} (hOwed : call.owed = stmt :: call'.owed)
    (hEnough : ∀ c : Counter, (c.releases call.owed : Int) ≤ s.count c) :
    Balanced s call (stmt.exec s) call' := by
  have hLive : ∀ p, (stmt.exec s).live p = s.live p := by
    intro p
    have hSame := runScript_allocations s [stmt]
    rw [live, show (stmt.exec s).allocations = s.allocations from hSame]
    rfl
  cases hCounter : stmt.counter? with
  | none =>
    have hCounts := sameCounts_exec s hCounter
    refine .of_counts hCounts (.exec s stmt) fun c => ?_
    rw [hLive, hOwed, releases_cons, hCounter]
    simp
  | some c₀ =>
    have hEntry : s.hasEntry c₀ = true := by
      have hPos := hEnough c₀
      rw [hOwed, releases_cons, if_pos hCounter] at hPos
      exact hasEntry_of_count_ne_zero (by omega)
    refine ⟨fun c => ?_, fun c => ?_, fun c h => ?_, .exec s stmt⟩
    · rw [hLive, hOwed, releases_cons, exec_of_counter hCounter, count_add hEntry, hCounter]
      simp only [Option.some.injEq, eq_comm (a := c₀)]
      split <;> omega
    · rw [exec_of_counter hCounter, count_add hEntry]
      split <;> omega
    · rwa [exec_of_counter hCounter, hasEntry_add]

end Balanced

theorem Act.balanced {env : Env} {call call' : Call} {s' : AllocationStore} (h : Act env call s call' s')
    (hEnough : ∀ c : Counter, (c.releases call.owed : Int) ≤ s.count c)
    (hJob : ∀ job, call.job? = some job → ∀ c : Counter, c.releases job.onFail = 0) :
    Balanced s call s' call' := by
  cases h with
  | quiet hStore hOwed =>
    exact .of_same (.of_quiet hStore) (.of_sameLedger hStore.toSameLedger) hStore.allocations (fun c => by rw [hOwed])
  | exec hOwed => exact .of_exec hOwed hEnough
  | @edit _ _ _ client a a' ops hGet hSame hNone hOwed hTouch =>
    refine .of_counts ⟨rfl, rfl, rfl⟩ ⟨rfl, rfl, rfl⟩ fun c => ?_
    rw [hNone, hOwed, releases_emits, ← live_edit hGet hSame.userKey]
    rfl
  | @draw req _ port hPort | exhausted hPort =>
    exact .of_same (.of_sameIndex (sameIndex_updatePool ..)) (.updatePool ..) (sameIndex_updatePool ..).allocations
      (fun c => rfl)
  | @reserve row tenantId _ hPort =>
    refine .of_same (.of_sameIndex (sameIndex_updatePool ..)) (.updatePool ..) (sameIndex_updatePool ..).allocations
      (fun c => ?_)
    change c.releases (Stmt.releasePort _ :: (fullReservation _).drop) = c.releases ((fullReservation _).drop ++ [])
    rw [releases_cons, List.append_nil]
    rfl
  | sweep id now hNone hOwed =>
    exact .of_same (.of_sameIndex (sameIndex_updatePool ..)) (.updatePool ..) (sameIndex_updatePool ..).allocations
      (fun c => by rw [hNone, hOwed])
  | @publish job allocationId _ hVacant =>
    cases job with
    | create req onFail =>
      refine .of_gain ⟨rfl, rfl, rfl⟩ ⟨rfl, rfl, rfl⟩ hVacant rfl (fun c => ?_) (fun c => rfl)
      change c.releases ((fullReservation req.userKey).drop ++ onFail) = (c.counts req.userKey).toNat
      have hFree : c.releases onFail = 0 := hJob _ rfl c
      rw [releases_append, releases_fullReservation, hFree, add_zero]
    | rehydrate row tenantId =>
      refine .of_gain ⟨rfl, rfl, rfl⟩ ⟨rfl, rfl, rfl⟩ hVacant rfl (fun c => ?_) (fun c => rfl)
      change c.releases (Stmt.releasePort _ :: (fullReservation (row.realm, tenantId, row.username)).drop) = _
      rw [releases_cons, releases_fullReservation]
      rfl
  | takeOut hCall hGet hTeardown =>
    have hNone : call.owed = [] := by
      cases call <;> first | rfl | cases hCall
    exact .of_loss ⟨rfl, rfl, rfl⟩ ⟨rfl, rfl, rfl⟩ hGet rfl (fun c => by rw [hNone]; rfl)
      (fun c => c.releases_teardown hTeardown)
  | force hGet hTeardown =>
    exact .of_loss ⟨rfl, rfl, rfl⟩ ⟨rfl, rfl, rfl⟩ hGet rfl (fun _ => rfl) (fun c => c.releases_teardown hTeardown)
  | lift hGet =>
    exact .of_loss ⟨rfl, rfl, rfl⟩ ⟨rfl, rfl, rfl⟩ hGet rfl (fun _ => rfl) (fun c => c.releases_carried _)
  | land hVacant hSame hCarries hStore hOwed =>
    have hCounts := SameCounts.of_quiet hStore
    have hLimits := SameLimits.of_sameLedger hStore.toSameLedger
    refine .of_gain ⟨hCounts.globalCount, hCounts.tenantCounts, hCounts.userCounts⟩
      ⟨hLimits.runtime, hLimits.userLimits, hLimits.pools⟩ hVacant hStore.allocations (fun c => ?_) (fun c => ?_)
    · rw [Call.owed_of_carries hCarries, releases_carried, hSame.userKey]
    · rw [hOwed, releases_emits]
  | @lost oldAddr _ _ a hTeardown =>
    refine .of_same ⟨rfl, rfl, rfl⟩ ⟨rfl, rfl, rfl⟩ rfl fun c => ?_
    rw [releases_teardown c hTeardown]
    exact (releases_carried c a).symm

theorem Counter.releases_owed (c : Counter) (call : Call) :
    c.releases call.owed = c.releases call.kept + if call.probe = some c then 1 else 0 := by
  rw [Call.owed]
  cases call.probe with
  | none => rfl
  | some c' =>
    rw [Option.toList_some, List.map_singleton, List.singleton_append, releases_cons, counter?_release]

theorem Call.CapsOf.mono {s' : AllocationStore} {call : Call} (h : call.CapsOf s) (hLimits : SameLimits s s') :
    call.CapsOf s' := by
  cases call with
  | admission job caps kind stage => exact Eq.trans h (hLimits.capsFor job.userKey).symm
  | _ => trivial

theorem Job.Backed.releases {job : Job} (h : job.Backed) (c : Counter) : c.releases job.onFail = 0 := by
  cases job with
  | create req onFail =>
    cases h
    rfl
  | rehydrate row tenantId => rfl

theorem guard_admission {job : Job} {caps : Caps} {kind : CounterKind} {stage : Stage}
    (hStage : stage ≠ .entry) (hCounter : kind.counter job.userKey = some c) :
    (Call.admission job caps kind stage).guard = c.guard := by
  rw [Call.guard, if_neg hStage, hCounter]
  rfl

theorem eq_of_mem_guard {c' : Counter} (h : c' ∈ c.guard) : c' = c := by
  cases c with
  | global => cases notMem_zero _ h
  | _ => exact mem_singleton.mp h

theorem live_add (s : AllocationStore) (c : Counter) (n : Int) (p : UserKey → Bool) :
    (s.add c n).live p = s.live p := by
  cases c <;> rfl

theorem live_entry (s : AllocationStore) (c : Counter) (p : UserKey → Bool) : (s.entry c).live p = s.live p := by
  cases c <;> rfl

/-! ## Runs -/

structure AdmissionInvariant (s₀ : AllocationStore) (w : World) (calls : Multiset Call) : Prop where
  limits : SameLimits s₀ w.store
  guards : w.guards = (calls.map Call.guard).sum
  entries : ∀ c ∈ w.guards, w.store.hasEntry c = true
  caps : ∀ call ∈ calls, call.CapsOf w.store
  jobs : ∀ call ∈ calls, ∀ job, call.job? = some job → ∀ c : Counter, c.releases job.onFail = 0
  exact : ∀ c : Counter, w.store.count c =
    w.store.live c.counts + (calls.map (fun call => c.releases call.owed)).sum
  capped : ∀ c, 0 < w.store.capOf c →
    w.store.live c.counts + (calls.map (fun call => c.releases call.kept)).sum ≤ w.store.capOf c

namespace AdmissionInvariant

variable {s₀ : AllocationStore} {w w' : World} {call call' : Call} {rest : Multiset Call}

/-- A counter's live and reserved allocations grow only when the counter was below its cap. -/
theorem advance (h : AdmissionInvariant s₀ w (call ::ₘ rest))
    (hGuards : ∀ others, w.guards = call.guard + others → w'.guards = call'.guard + others)
    (hEntries : ∀ c ∈ w'.guards, w'.store.hasEntry c = true) (hLimits : SameLimits w.store w'.store)
    (hNext : call.Follows w.store call')
    (hBalance : ∀ c : Counter, w'.store.count c + w.store.live c.counts + c.releases call.owed =
      w.store.count c + w'.store.live c.counts + c.releases call'.owed)
    (hGrowth : ∀ c : Counter, 0 < w.store.capOf c →
      w'.store.live c.counts + c.releases call'.kept ≤ w.store.live c.counts + c.releases call.kept ∨
        w.store.count c < w.store.capOf c ∧
          w'.store.live c.counts + c.releases call'.kept ≤ w.store.live c.counts + c.releases call.kept + 1) :
    AdmissionInvariant s₀ w' (call' ::ₘ rest) where
  limits := h.limits.trans hLimits
  guards := by
    have hOld := h.guards
    rw [map_cons, sum_cons] at hOld ⊢
    exact hGuards _ hOld
  entries := hEntries
  caps other hMem := by
    obtain rfl | hMem := mem_cons.mp hMem
    · exact (hNext.caps (h.caps call (mem_cons_self ..))).mono hLimits
    · exact (h.caps other (mem_cons_of_mem hMem)).mono hLimits
  jobs other hMem job hJob := by
    obtain rfl | hMem := mem_cons.mp hMem
    · obtain hOld | hBacked := hNext.job job hJob
      · exact h.jobs call (mem_cons_self ..) job hOld
      · exact hBacked.releases
    · exact h.jobs other (mem_cons_of_mem hMem) job hJob
  exact c := by
    have hOld := h.exact c
    have hMove := hBalance c
    rw [map_cons, sum_cons] at hOld ⊢
    omega
  capped c hPos := by
    rw [hLimits.capOf] at hPos ⊢
    have hOld := h.capped c hPos
    have hCount := h.exact c
    have hLe : (rest.map (fun call => c.releases call.kept)).sum ≤ (rest.map (fun call => c.releases call.owed)).sum :=
      sum_map_le_sum_map _ _ fun call _ => by rw [c.releases_owed]; exact le_add_right _ _
    have hProbe := c.releases_owed call
    rw [map_cons, sum_cons] at hOld hCount ⊢
    obtain hKeep | ⟨hRoom, hGrow⟩ := hGrowth c hPos
    · omega
    · omega

theorem act {env : Env} {s' : AllocationStore} (h : AdmissionInvariant s₀ w (call ::ₘ rest)) (hCalm : call.Calm)
    (hCalm' : call'.Calm) (hNext : call.Follows w.store call') (hAct : Act env call w.store call' s') :
    AdmissionInvariant s₀ ⟨s', w.guards⟩ (call' ::ₘ rest) := by
  have hMem : call ∈ call ::ₘ rest := mem_cons_self ..
  have hEnough : ∀ c : Counter, (c.releases call.owed : Int) ≤ w.store.count c := by
    intro c
    have hCount := h.exact c
    rw [map_cons, sum_cons] at hCount
    omega
  have hBalanced := hAct.balanced hEnough (h.jobs call hMem)
  refine h.advance (fun others hOthers => ?_) (fun c hc => hBalanced.entries c (h.entries c hc)) hBalanced.limits hNext
    hBalanced.balance (fun c _ => .inl ?_)
  · rw [hCalm'.guard]
    rwa [hCalm.guard] at hOthers
  have hMove := hBalanced.balance c
  have hLe := hBalanced.le c
  have hProbe := c.releases_owed call
  have hProbe' := c.releases_owed call'
  rw [hCalm.probe] at hProbe
  rw [hCalm'.probe] at hProbe'
  simp only [reduceCtorEq, if_false, add_zero] at hProbe hProbe'
  change s'.live c.counts + _ ≤ _
  omega

theorem held {job : Job} {caps : Caps} {kind : CounterKind} {stage : Stage} {c : Counter}
    (h : AdmissionInvariant s₀ w (.admission job caps kind stage ::ₘ rest)) (hStage : stage ≠ .entry)
    (hCounter : kind.counter job.userKey = some c) : w.store.hasEntry c = true := by
  have hGuards := h.guards
  rw [map_cons, sum_cons, guard_admission hStage hCounter] at hGuards
  cases c with
  | global => rfl
  | _ =>
    refine h.entries _ ?_
    rw [hGuards]
    exact mem_add.mpr (.inl (mem_singleton_self _))

theorem step {env : Env} (h : AdmissionInvariant s₀ w (call ::ₘ rest)) (hMove : Move env w call w' call') :
    AdmissionInvariant s₀ w' (call' ::ₘ rest) := by
  cases hMove with
  | act hCalm hCalm' hNext hAct => exact h.act hCalm hCalm' hNext hAct
  | @lock job caps kind c hCounter =>
    refine h.advance (fun others hOthers => ?_) (fun c' hc => ?_) (.entry _ _)
      ⟨fun hCaps => hCaps, fun _ hJob => .inl hJob⟩ (fun c' => ?_) (fun c' _ => .inl ?_)
    · change w.guards = 0 + others at hOthers
      rw [zero_add] at hOthers
      rw [guard_admission (by decide) hCounter, hOthers]
    · obtain hc | hc := mem_add.mp hc
      · rw [eq_of_mem_guard hc]
        exact hasEntry_entry_self ..
      · exact hasEntry_entry (h.entries c' hc)
    · rw [count_entry, live_entry]
      rfl
    · rw [live_entry]
      exact le_refl _
  | @refuse job caps kind c hCounter =>
    have hEntry := h.held (by decide) hCounter
    refine h.advance (fun others hOthers => ?_) (fun c' hc => ?_) (.add _ _ _)
      ⟨fun hCaps => hCaps, fun _ hJob => .inl hJob⟩ (fun c' => ?_) (fun c' _ => .inl ?_)
    · rwa [guard_admission (by decide) hCounter] at hOthers ⊢
    · rw [hasEntry_add]
      exact h.entries c' hc
    · have hOwed := c'.releases_owed (.admission job caps kind .undo)
      rw [count_add hEntry, live_add, hOwed, c'.releases_owed]
      simp only [Call.probe, Call.kept, hCounter, Option.some.injEq, reduceCtorEq, if_false, eq_comm (a := c)]
      split <;> omega
    · rw [live_add]
      exact le_refl _
  | @charge job caps kind c _ hCounter hRoom hCalm' hNext hOwed =>
    have hEntry := h.held (by decide) hCounter
    have hCaps : caps = Call.capsFor w.store job.userKey := h.caps _ (mem_cons_self ..)
    have hKept : ∀ c', releases c' call'.kept =
        c'.releases (Call.admission job caps kind .add).kept + if c' = c then 1 else 0 := by
      intro c'
      have hNew := c'.releases_owed call'
      have hOld := c'.releases_owed (.admission job caps kind .add)
      rw [hCalm'.probe, hOwed, releases_cons, counter?_release] at hNew
      simp only [Call.probe, Option.some.injEq, reduceCtorEq, if_false, eq_comm (a := c)] at hNew hOld
      omega
    refine h.advance (fun others hOthers => ?_) (fun c' hc => ?_) (.add _ _ _) hNext (fun c' => ?_) (fun c' hPos => ?_)
    · rw [hCalm'.guard, zero_add]
      rw [guard_admission (by decide) hCounter] at hOthers
      rw [hOthers, add_tsub_cancel_left]
    · rw [hasEntry_add]
      exact h.entries c' (Multiset.mem_of_le (Multiset.sub_le_self _ _) hc)
    · rw [count_add hEntry, live_add, hOwed, releases_cons, counter?_release]
      simp only [Option.some.injEq, eq_comm (a := c)]
      split <;> omega
    · rw [live_add, hKept]
      split
      · next hEq =>
        subst hEq
        rw [hCaps, cap_capsFor w.store hCounter] at hRoom
        exact .inr ⟨hRoom hPos, le_refl _⟩
      · exact .inl (le_refl _)
  | @undo job caps kind c _ hCounter hCalm' hNext hOwed =>
    have hEntry := h.held (by decide) hCounter
    refine h.advance (fun others hOthers => ?_) (fun c' hc => ?_) (.add _ _ _) hNext (fun c' => ?_)
      (fun c' _ => .inl ?_)
    · rw [hCalm'.guard, zero_add]
      rw [guard_admission (by decide) hCounter] at hOthers
      rw [hOthers, add_tsub_cancel_left]
    · rw [hasEntry_add]
      exact h.entries c' (Multiset.mem_of_le (Multiset.sub_le_self _ _) hc)
    · rw [count_add hEntry, live_add, hOwed, releases_cons, counter?_release]
      simp only [Option.some.injEq, eq_comm (a := c)]
      split <;> omega
    · have hOld := c'.releases_owed (.admission job caps kind .undo)
      have hNew := c'.releases_owed call'
      rw [hOwed, releases_cons, counter?_release] at hOld
      rw [hCalm'.probe] at hNew
      simp only [Call.probe, hCounter, reduceCtorEq, if_false] at hOld hNew
      rw [live_add]
      omega
  | prune key hFree =>
    have hZero : 0 ≤ w.store.userCount key := by
      have hCount := h.exact (.user key)
      change w.store.userCount key = _ at hCount
      omega
    refine h.advance (fun others hOthers => hOthers) (fun c hc => ?_) ⟨rfl, rfl, rfl⟩ (.of_none rfl) (fun c => ?_)
      (fun c _ => .inl (le_refl _))
    · have hOld := h.entries c hc
      cases c with
      | user key' =>
        have hNe : key' ≠ key := fun hEq => hFree (hEq ▸ hc)
        exact (contains_prune hNe).trans hOld
      | tenant tenantId => exact hOld
      | global => rfl
    · cases c with
      | user key' => exact congrArg (· + _ + _) (tally_prune hZero key')
      | _ => rfl

theorem start (h : AdmissionInvariant s₀ w rest) (hEntry : call.isEntry = true) :
    AdmissionInvariant s₀ w (call ::ₘ rest) := by
  obtain ⟨hGuard, hOwed, hKept, hCaps, hJob⟩ : call.guard = 0 ∧ call.owed = [] ∧ call.kept = [] ∧
      call.CapsOf w.store ∧ ∀ job, call.job? = some job → job.onFail = [] := by
    cases call with
    | create req onFail =>
      cases List.isEmpty_iff.mp hEntry
      refine ⟨rfl, rfl, rfl, trivial, fun job hJob => ?_⟩
      cases hJob
      rfl
    | _ => first | exact ⟨rfl, rfl, rfl, trivial, fun _ hJob => nomatch hJob⟩ | cases hEntry
  refine ⟨h.limits, ?_, h.entries, fun other hMem => ?_, fun other hMem job hSome => ?_, fun c => ?_, fun c hPos => ?_⟩
  · rw [map_cons, sum_cons, hGuard, zero_add]
    exact h.guards
  · obtain rfl | hMem := mem_cons.mp hMem
    · exact hCaps
    · exact h.caps other hMem
  · obtain rfl | hMem := mem_cons.mp hMem
    · intro c
      rw [hJob job hSome]
      rfl
    · exact h.jobs other hMem job hSome
  · rw [map_cons, sum_cons, hOwed, releases_nil, zero_add]
    exact h.exact c
  · rw [map_cons, sum_cons, hKept, releases_nil, zero_add]
    exact h.capped c hPos

end AdmissionInvariant

def Call.leaving : Call → Bool
  | .teardown .. | .reKeyClaim .. | .reKeyBack .. => true
  | _ => false

namespace Counter

variable (c : Counter) (call : Call)

/-- The call's reservation on the counter, whether it goes on or is being rolled back. -/
def reserved : Nat := if call.leaving then 0 else c.releases call.kept

def probed : Nat := if call.probe = some c then 1 else 0

/-- Of an allocation that is out of the map and whose release is still to come. -/
def leaving : Nat := if call.leaving then c.releases call.kept else 0

theorem releases_kept : c.releases call.kept = c.reserved call + c.leaving call := by
  rw [reserved, leaving]
  cases call.leaving with
  | false => rfl
  | true => exact (zero_add _).symm

theorem releases_split : c.releases call.owed = c.reserved call + c.probed call + c.leaving call := by
  rw [releases_owed, releases_kept, probed, add_right_comm]

end Counter

structure AdmissionSafe (s₀ : AllocationStore) (w : World) (calls : Multiset Call) : Prop where
  exact : ∀ c : Counter, w.store.count c =
    w.store.live c.counts + (calls.map c.reserved).sum + (calls.map c.probed).sum + (calls.map c.leaving).sum
  nonneg : ∀ c, 0 ≤ w.store.count c
  capped : ∀ c, 0 < s₀.capOf c →
    w.store.live c.counts + (calls.map c.reserved).sum + (calls.map c.leaving).sum ≤ s₀.capOf c
  returned : (∀ call ∈ calls, call = .done) → ∀ c : Counter, w.store.count c = w.store.live c.counts

theorem AdmissionInvariant.safe {s₀ : AllocationStore} {w : World} {calls : Multiset Call}
    (h : AdmissionInvariant s₀ w calls) : AdmissionSafe s₀ w calls where
  exact c := by
    have hExact := h.exact c
    simp only [releases_split, sum_map_add] at hExact
    omega
  nonneg c := by
    have hExact := h.exact c
    omega
  capped c hPos := by
    rw [← h.limits.capOf] at hPos ⊢
    have hCapped := h.capped c hPos
    simp only [releases_kept, sum_map_add] at hCapped
    omega
  returned hDone c := by
    have hExact := h.exact c
    have hZero : (calls.map fun call => c.releases call.owed).sum = 0 := by
      refine sum_eq_zero fun n hMem => ?_
      obtain ⟨call, hCall, rfl⟩ := mem_map.mp hMem
      rw [hDone call hCall]
      rfl
    rw [hExact, hZero]
    exact Int.add_zero _

theorem admissionInvariant_initial (setup : Setup) : AdmissionInvariant setup.world.store setup.world 0 where
  limits := ⟨rfl, rfl, rfl⟩
  guards := rfl
  entries c hc := by cases notMem_zero _ hc
  caps _ hMem := by cases notMem_zero _ hMem
  jobs _ hMem := by cases notMem_zero _ hMem
  exact c := by
    rw [Setup.world, configured_eq]
    cases c <;> rfl
  capped c hPos := by
    rw [Setup.world, configured_eq]
    exact zero_le _

namespace OneUser

def node (maxPerUser : Nat) : Setup where
  minPort := 40000
  maxPort := 40001
  random := 0
  tenants := []
  runtime := ⟨0, 0, maxPerUser, 0⟩
  userLimits := .empty
  writeTx := none
  base := Setup.twoPorts
  ranges := Setup.noTenants

def client (port : UInt16) : SocketAddr := .v4 ⟨10, 0, 0, 1⟩ port

def relay (port : UInt16) : SocketAddr := .v4 ⟨192, 0, 2, 1⟩ port

def create (port relayPort : UInt16) : Call :=
  .create ⟨client port, relay relayPort, "alice", [], 600, "example.org", none⟩ []

def env : Env := ⟨⟨0, 0⟩, .stored, none, none⟩

def steps (index n : Nat) : List (Machine.Choice Call Env) := List.replicate n (.advance index env)

def removal : List (Machine.Choice Call Env) :=
  .start (create 5000 40000) :: steps 0 7 ++ .start (.remove (client 5000) (relay 40000)) :: steps 0 1

def probing : List (Machine.Choice Call Env) :=
  .start (create 5000 40000) :: steps 0 3 ++ .start (create 5001 40001) :: steps 0 3

end OneUser

/-- Between removal and release the counter counts an allocation that is neither live nor reserved. -/
theorem removed_still_counted : ∃ (w : World) (calls : Multiset Call),
    callMachine.Reaches (fun _ _ _ => True) ((OneUser.node 0).world, 0) (w, calls) ∧
      w.store.count .global ≠ w.store.live Counter.global.counts + (calls.map Counter.global.reserved).sum +
        (calls.map Counter.global.probed).sum := by
  obtain ⟨w, calls, hReaches, hSeen⟩ := callMachine.exists_reaches_of_exec (fun _ _ _ => True)
    ((OneUser.node 0).world, []) OneUser.removal
    (fun w calls => w.store.count .global = 1 ∧ w.store.live Counter.global.counts = 0 ∧
      (calls.map Counter.global.reserved).sum = 0 ∧ (calls.map Counter.global.probed).sum = 0) (by decide +kernel)
  obtain ⟨hCount, hLive, hReserved, hProbed⟩ := hSeen
  refine ⟨w, calls, hReaches, ?_⟩
  rw [Multiset.map_coe, Multiset.sum_coe, Multiset.map_coe, Multiset.sum_coe, hCount, hLive, hReserved, hProbed]
  decide

theorem admission_safe (setup : Setup) {w : World} {calls : Multiset Call}
    (h : callMachine.Reaches (fun _ _ _ => True) (setup.world, 0) (w, calls)) :
    AdmissionSafe setup.world.store w calls := by
  refine AdmissionInvariant.safe (h.invariant (AdmissionInvariant setup.world.store) ?_ ?_
    (admissionInvariant_initial setup))
  · intro w calls call w' hInv _ hStart
    obtain ⟨hEntry, rfl⟩ := isEntry_of_start hStart
    exact hInv.start hEntry
  · intro w rest call env w' call' hInv _ hNext
    exact hInv.step (next_move hNext)

theorem admission_safe_probing : ∃ (w : World) (calls : Multiset Call),
    w.store.count (.user ("example.org", none, "alice")) = 2 ∧ AdmissionSafe (OneUser.node 1).world.store w calls := by
  obtain ⟨w, calls, hReaches, hSeen⟩ := callMachine.exists_reaches_of_exec (fun _ _ _ => True)
    ((OneUser.node 1).world, []) OneUser.probing
    (fun w _ => w.store.count (.user ("example.org", none, "alice")) = 2) (by decide +kernel)
  exact ⟨w, calls, hSeen, admission_safe (OneUser.node 1) hReaches⟩

end Turna.Session
