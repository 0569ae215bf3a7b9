import Turna.Session.StoreRun

/-! # The outcomes of creating and restoring an allocation

Both functions reserve counters, take an id and publish. Whatever refuses on the way undoes what
was reserved, except for the id.
-/

namespace Turna.Session
open Lib Net HashMap AllocationStore List Int Function PortAllocator Option

namespace Stmt

@[simp] def global? : Stmt → Option Unit
  | .releaseGlobal => some ()
  | _ => none

@[simp] def tenant? : Stmt → Option String
  | .releaseTenant tenantId => some tenantId
  | _ => none

@[simp] def user? : Stmt → Option UserKey
  | .releaseUser key => some key
  | _ => none

@[simp] def channel? : Stmt → Option (UInt16 × UInt16)
  | .unlinkChannel port channel => some (port, channel)
  | _ => none

@[simp] def relay? : Stmt → Option SocketAddr
  | .unlinkRelay relayAddr => some relayAddr
  | _ => none

@[simp] def id? : Stmt → Option String
  | .unlinkId allocationId => some allocationId
  | _ => none

@[simp] def listed? : Stmt → Option (UserKey × SocketAddr)
  | .unlinkUser key clientAddr => some (key, clientAddr)
  | _ => none

@[simp] def port? : Stmt → Option UInt16
  | .releasePort port => some port
  | _ => none

@[simp] def op? : Stmt → Option WriteOp
  | .emitWrite op => some op
  | _ => none

end Stmt

structure SameIndex (s s' : AllocationStore) : Prop where
  allocations : s'.allocations = s.allocations
  relayToClient : s'.relayToClient = s.relayToClient
  channelToClient : s'.channelToClient = s.channelToClient
  idToClient : s'.idToClient = s.idToClient
  nextId : s'.nextId = s.nextId
  userAllocations : s'.userAllocations = s.userAllocations
  globalCount : s'.globalCount = s.globalCount
  tenantCounts : s'.tenantCounts = s.tenantCounts
  userCounts : s'.userCounts = s.userCounts

section Parts

variable (s : AllocationStore)

theorem sameIndex_emitWrite (op : WriteOp) : SameIndex s (s.emitWrite op) := by
  rw [emitWrite]
  split
  · constructor <;> rfl
  · split <;> constructor <;> rfl

theorem sameIndex_emitUsageStop (alloc : Allocation) (reason : UsageEndReason) (epochMs : Nat) :
    SameIndex s (s.emitUsageStop alloc reason epochMs) := by
  rw [emitUsageStop]
  split
  · constructor <;> rfl
  · split <;> constructor <;> rfl

theorem sameIndex_accrueTenantTraffic (alloc : Allocation) : SameIndex s (s.accrueTenantTraffic alloc) := by
  rw [accrueTenantTraffic]
  split <;> constructor <;> rfl

theorem sameIndex_updatePool (f : PortAllocator → PortAllocator) (id : AllocationStore.PoolId) :
    SameIndex s (s.updatePool f id) := by
  cases id <;> constructor <;> rfl

def Stmt.isOuter : Stmt → Bool
  | .accrueTenantTraffic _ | .emitUsageStop .. | .releasePort _ | .emitWrite _ => true
  | _ => false

theorem sameIndex_exec {stmt : Stmt} (h : stmt.isOuter = true) : SameIndex s (stmt.exec s) := by
  cases stmt with
  | accrueTenantTraffic alloc => exact sameIndex_accrueTenantTraffic s alloc
  | emitUsageStop alloc reason epochMs => exact sameIndex_emitUsageStop s alloc reason epochMs
  | releasePort port => exact sameIndex_updatePool s (fun pool => pool.release port) (s.poolIdForPort port)
  | emitWrite op => exact sameIndex_emitWrite s op
  | _ => cases h

variable {α : Type}

theorem runScript_fold {β : Type} (part : AllocationStore → α) (touch : Stmt → Option β) (act : α → β → α)
    (hExec : ∀ s (stmt : Stmt), part (stmt.exec s) = (touch stmt).elim (part s) (act (part s)))
    (script : List Stmt) : part (s.runScript script) = (script.filterMap touch).foldl act (part s) := by
  induction script generalizing s with
  | nil => rfl
  | cons stmt script ih =>
    change part ((stmt.exec s).runScript script) = _
    rw [ih, hExec, List.filterMap_cons]
    cases touch stmt <;> rfl

theorem runScript_part {β : Type} (part : AllocationStore → α) (touch : Stmt → Option β) (act : α → β → α)
    (hPart : ∀ s s', SameIndex s s' → part s' = part s) (hOuter : ∀ stmt, stmt.isOuter = true → touch stmt = none)
    (hInner : ∀ s stmt, stmt.isOuter = false →
      part (stmt.exec s) = (touch stmt).elim (part s) (act (part s)))
    (script : List Stmt) : part (s.runScript script) = (script.filterMap touch).foldl act (part s) := by
  refine runScript_fold s part touch act (fun s stmt => ?_) script
  cases hStmt : stmt.isOuter with
  | true =>
    rw [hPart s _ (sameIndex_exec s hStmt), hOuter stmt hStmt]
    rfl
  | false => exact hInner s stmt hStmt

theorem runScript_same (part : AllocationStore → α) (hPart : ∀ s s', SameIndex s s' → part s' = part s)
    (hInner : ∀ s (stmt : Stmt), stmt.isOuter = false → part (stmt.exec s) = part s) (script : List Stmt) :
    part (s.runScript script) = part s := by
  have h := runScript_part s part (fun _ => (none : Option Unit)) (fun a _ => a) hPart (fun _ _ => rfl)
    hInner script
  rw [h, List.filterMap_none]
  rfl

@[simp] theorem runScript_allocations (script : List Stmt) : (s.runScript script).allocations = s.allocations := by
  refine runScript_same s (·.allocations) (fun _ _ h => h.allocations) (fun s stmt h => ?_) script
  cases stmt <;> first | rfl | cases h

@[simp] theorem runScript_nextId (script : List Stmt) : (s.runScript script).nextId = s.nextId := by
  refine runScript_same s (·.nextId) (fun _ _ h => h.nextId) (fun s stmt h => ?_) script
  cases stmt <;> first | rfl | cases h

theorem runScript_relayToClient (script : List Stmt) :
    (s.runScript script).relayToClient = (script.filterMap Stmt.relay?).foldl remove s.relayToClient := by
  refine runScript_part s (·.relayToClient) Stmt.relay? remove (fun _ _ h => h.relayToClient)
    (fun stmt h => ?_) (fun s stmt h => ?_) script
  all_goals cases stmt <;> first | rfl | cases h

theorem runScript_channelToClient (script : List Stmt) : (s.runScript script).channelToClient =
      (script.filterMap Stmt.channel?).foldl remove s.channelToClient := by
  refine runScript_part s (·.channelToClient) Stmt.channel? remove (fun _ _ h => h.channelToClient)
    (fun stmt h => ?_) (fun s stmt h => ?_) script
  all_goals cases stmt <;> first | rfl | cases h

theorem runScript_idToClient (script : List Stmt) :
    (s.runScript script).idToClient = (script.filterMap Stmt.id?).foldl remove s.idToClient := by
  refine runScript_part s (·.idToClient) Stmt.id? remove (fun _ _ h => h.idToClient)
    (fun stmt h => ?_) (fun s stmt h => ?_) script
  all_goals cases stmt <;> first | rfl | cases h

theorem runScript_userAllocations (script : List Stmt) : (s.runScript script).userAllocations =
      (script.filterMap Stmt.listed?).foldl
        (fun m e => m.modify e.1 (fun addrs => addrs.filter (· ≠ e.2))) s.userAllocations := by
  refine runScript_part s (·.userAllocations) Stmt.listed? _ (fun _ _ h => h.userAllocations)
    (fun stmt h => ?_) (fun s stmt h => ?_) script
  all_goals cases stmt <;> first | rfl | cases h

theorem runScript_globalCount (script : List Stmt) : (s.runScript script).globalCount =
      (script.filterMap Stmt.global?).foldl (fun n _ => n + (-1)) s.globalCount := by
  refine runScript_part s (·.globalCount) Stmt.global? _ (fun _ _ h => h.globalCount)
    (fun stmt h => ?_) (fun s stmt h => ?_) script
  all_goals cases stmt <;> first | rfl | cases h

theorem runScript_tenantCounts (script : List Stmt) : (s.runScript script).tenantCounts =
      (script.filterMap Stmt.tenant?).foldl (fun m t => m.modify t (· + (-1))) s.tenantCounts := by
  refine runScript_part s (·.tenantCounts) Stmt.tenant? _ (fun _ _ h => h.tenantCounts)
    (fun stmt h => ?_) (fun s stmt h => ?_) script
  all_goals cases stmt <;> first | rfl | cases h

theorem runScript_userCounts (script : List Stmt) : (s.runScript script).userCounts =
      (script.filterMap Stmt.user?).foldl (fun m k => m.modify k (· + (-1))) s.userCounts := by
  refine runScript_part s (·.userCounts) Stmt.user? _ (fun _ _ h => h.userCounts)
    (fun stmt h => ?_) (fun s stmt h => ?_) script
  all_goals cases stmt <;> first | rfl | cases h

/-! ## Pools -/

def SamePools (s s' : AllocationStore) : Prop := s'.ports = s.ports ∧ s'.tenantPools = s.tenantPools

theorem samePools_emitWrite (op : WriteOp) : SamePools s (s.emitWrite op) := by
  rw [emitWrite]
  split
  · exact ⟨rfl, rfl⟩
  · split <;> exact ⟨rfl, rfl⟩

theorem samePools_exec {stmt : Stmt} (h : stmt.port? = none) : SamePools s (stmt.exec s) := by
  cases stmt with
  | emitWrite op => exact samePools_emitWrite s op
  | emitUsageStop alloc reason epochMs =>
    rw [Stmt.exec, emitUsageStop]
    split
    · exact ⟨rfl, rfl⟩
    · split <;> exact ⟨rfl, rfl⟩
  | accrueTenantTraffic alloc =>
    rw [Stmt.exec, accrueTenantTraffic]
    split <;> exact ⟨rfl, rfl⟩
  | releasePort port => cases h
  | _ => exact ⟨rfl, rfl⟩

theorem SamePools.trans {s s' s'' : AllocationStore} (h : SamePools s s') (h' : SamePools s' s'') : SamePools s s'' :=
  ⟨h'.1.trans h.1, h'.2.trans h.2⟩

theorem SamePools.releasePort {s s' : AllocationStore} (h : SamePools s s') (port : UInt16) :
    SamePools ((Stmt.releasePort port).exec s) ((Stmt.releasePort port).exec s') := by
  obtain ⟨hPorts, hTenants⟩ := h
  have hRoute : s'.poolIdForPort port = s.poolIdForPort port := by
    rw [poolIdForPort, hTenants]
    rfl
  rw [Stmt.exec, Stmt.exec, hRoute]
  cases s.poolIdForPort port with
  | none => exact ⟨congrArg (·.release port) hPorts, hTenants⟩
  | some i => exact ⟨hPorts, congrArg (List.modify · i _) hTenants⟩

theorem runScript_pools (script : List Stmt) :
    SamePools ((script.filterMap Stmt.port?).foldl (fun s port => (Stmt.releasePort port).exec s) s)
      (s.runScript script) := by
  have hFold : ∀ (ports : List UInt16) {s s' : AllocationStore}, SamePools s s' →
      SamePools (ports.foldl (fun s port => (Stmt.releasePort port).exec s) s)
        (ports.foldl (fun s port => (Stmt.releasePort port).exec s) s') := by
    intro ports
    induction ports with
    | nil => exact fun h => h
    | cons port ports ih => exact fun h => ih (h.releasePort port)
  induction script generalizing s with
  | nil => exact ⟨rfl, rfl⟩
  | cons stmt script ih =>
    rw [List.filterMap_cons]
    cases hPort : stmt.port? with
    | none => exact (hFold _ (samePools_exec s hPort)).trans (ih (stmt.exec s))
    | some port =>
      obtain rfl : stmt = .releasePort port := by
        cases stmt <;> first | cases hPort; rfl | cases hPort
      exact ih _

end Parts

structure IsTeardown (script : List Stmt) (alloc : Allocation) (clientAddr relayAddr : SocketAddr) : Prop where
  globals : script.filterMap Stmt.global? = [()]
  tenants : script.filterMap Stmt.tenant? = alloc.tenantId.toList
  users : script.filterMap Stmt.user? = [alloc.userKey]
  channels : (script.filterMap Stmt.channel?).Perm
    (alloc.channelBindings.keys.map (fun ch => (relayAddr.port, ch)))
  relays : script.filterMap Stmt.relay? = [relayAddr]
  ids : script.filterMap Stmt.id? = [alloc.allocationId]
  lists : script.filterMap Stmt.listed? = [(alloc.userKey, clientAddr)]
  ports : script.filterMap Stmt.port? = [relayAddr.port]
  ops : script.filterMap Stmt.op? = [.remove relayAddr.port]

@[simp] theorem filterMap_releaseCounters {β : Type} (touch : Stmt → Option β) (realm : String) (tenantId : Option String)
    (username : String) :
    (releaseCounters realm tenantId username).filterMap touch =
      (touch .releaseGlobal).toList ++ (tenantId.toList.filterMap (fun t => touch (.releaseTenant t))) ++
        (touch (.releaseUser (realm, tenantId, username))).toList := by
  rw [releaseCounters, List.cons_append, List.filterMap_cons, List.filterMap_append, List.filterMap_map]
  cases touch .releaseGlobal <;>
    cases h : touch (.releaseUser (realm, tenantId, username)) <;> simp [h]

section Teardown

variable (order : IterOrder) (epochMs now : Nat) (clientAddr relayAddr : SocketAddr) (alloc : Allocation)

theorem removeScript_isTeardown :
    IsTeardown (removeScript order epochMs now clientAddr relayAddr alloc) alloc clientAddr relayAddr := by
  constructor
  case channels =>
    simpa [removeScript, onAllocationClosed, comp_def, filterMap_cons, filterMap_map] using
      (order.perm alloc.channelBindings.keys).map fun ch => (relayAddr.port, ch)
  all_goals simp [removeScript, onAllocationClosed, comp_def, filterMap_cons, filterMap_map, Allocation.userKey]

theorem forceRemoveScript_isTeardown : IsTeardown (forceRemoveScript order epochMs clientAddr alloc) alloc clientAddr alloc.relayAddr := by
  constructor
  case channels =>
    simpa [forceRemoveScript, onAllocationClosed, comp_def, filterMap_cons, filterMap_map] using
      (order.perm alloc.channelBindings.keys).map fun ch => (alloc.relayAddr.port, ch)
  all_goals simp [forceRemoveScript, onAllocationClosed, comp_def, filterMap_cons, filterMap_map, Allocation.userKey]

theorem migrationLostScript_isTeardown : IsTeardown (migrationLostScript order epochMs clientAddr alloc) alloc clientAddr alloc.relayAddr := by
  constructor
  case channels =>
    simpa [migrationLostScript, onAllocationClosed, comp_def, filterMap_cons, filterMap_map] using
      (order.perm alloc.channelBindings.keys).map fun ch => (alloc.relayAddr.port, ch)
  all_goals simp [migrationLostScript, onAllocationClosed, comp_def, filterMap_cons, filterMap_map, Allocation.userKey]

end Teardown

/-! ## What the operations leave in the allocation map -/

@[simp] theorem allocations_emitWrite (s : AllocationStore) (op : WriteOp) :
    (s.emitWrite op).allocations = s.allocations :=
  (sameIndex_emitWrite s op).allocations

section Entry

variable {s : AllocationStore} {c : SocketAddr} {a : Allocation} (order : IterOrder) (clock : Clock)

theorem refresh_none (hGet : s.get c = none) (lifetime : UInt32) :
    s.refresh order clock c lifetime = (.error .notFound, s) := by
  rw [refresh, show s.allocations.get c = none from hGet]

theorem refresh_some (hGet : s.get c = some a) (lifetime : UInt32) : (s.refresh order clock c lifetime).1 = .ok () ∧
      (s.refresh order clock c lifetime).2.allocations =
        if lifetime = 0 then s.allocations.remove c
        else s.allocations.insert c { a with expiresAt := clock.now + secs lifetime.toNat } := by
  have hGet : s.allocations.get c = some a := hGet
  rw [refresh, hGet]
  dsimp only
  split_ifs
  · rw [AllocationStore.remove, hGet]
    exact ⟨rfl, runScript_allocations _ _⟩
  · exact ⟨rfl, allocations_emitWrite _ _⟩

theorem reKey_some {newAddr : SocketAddr} (hGet : s.get c = some a) (hVacant : s.get newAddr = none) :
    (s.reKey order clock c newAddr).1 = .ok a.relayAddr ∧
      (s.reKey order clock c newAddr).2.allocations = (s.allocations.remove c).insert newAddr
        { a with clientAddr := newAddr, migrationEpoch := a.migrationEpoch + 1 } := by
  have hNe : c ≠ newAddr := by
    rintro rfl
    rw [hGet] at hVacant
    cases hVacant
  have hGone : (s.allocations.remove c).get newAddr = none := by
    rw [HashMap.get_remove_ne _ hNe.symm]
    exact hVacant
  rw [reKey, if_neg hNe, show s.allocations.get c = some a from hGet]
  dsimp only
  rw [hGone]
  exact ⟨rfl, allocations_emitWrite _ _⟩

def roomForPermission (permissions : HashMap IpAddr Permission) (peerIp : IpAddr) : Bool :=
  permissions.contains peerIp || decide (permissions.len < maxPermissionsPerAllocation)

theorem addPermission_none (hGet : s.get c = none) (peerIp : IpAddr) :
    s.addPermission clock c peerIp = (.error .notFound, s) := by
  rw [addPermission, show s.allocations.get c = none from hGet]

variable {peerAddr : SocketAddr} {channel : UInt16} {peerIp : IpAddr}

theorem addPermission_full (hGet : s.get c = some a) (hFull : roomForPermission a.permissions peerIp = false) :
    s.addPermission clock c peerIp = (.error .limitExceeded, s) := by
  rw [roomForPermission, Bool.or_eq_false_iff, decide_eq_false_iff_not, Nat.not_lt] at hFull
  rw [addPermission, show s.allocations.get c = some a from hGet]
  exact if_pos ⟨by rw [hFull.1]; exact Bool.false_ne_true, hFull.2⟩

theorem addPermission_room (hGet : s.get c = some a) (hRoom : roomForPermission a.permissions peerIp = true) :
    ∃ op, s.addPermission clock c peerIp = (.ok (), { s with
      allocations := s.allocations.insert c { a with permissions := a.permissions.insert peerIp (.new clock.now) }
    }.emitWrite op) := by
  rw [roomForPermission, Bool.or_eq_true, decide_eq_true_iff] at hRoom
  have hNotFull : ¬ (¬ a.permissions.contains peerIp = true ∧ maxPermissionsPerAllocation ≤ a.permissions.len) := by
    rintro ⟨hNew, hFull⟩
    exact hRoom.elim hNew (Nat.not_lt.mpr hFull)
  rw [addPermission, show s.allocations.get c = some a from hGet]
  dsimp only
  rw [if_neg hNotFull]
  exact ⟨_, rfl⟩

/-- Whether the channel can be bound to the peer: neither is bound to another, and there is room. -/
def channelFree (a : Allocation) (channel : UInt16) (peerAddr : SocketAddr) : Bool :=
  !(a.channelBindings.get channel).any (fun b => b.peerAddr ≠ peerAddr) &&
    !(a.channelsReverse.get peerAddr).any (· ≠ channel) &&
    (a.channelBindings.contains channel || decide (a.channelBindings.len < maxChannelsPerAllocation))

theorem addChannel_none (hGet : s.get c = none) (channel : UInt16) (peerAddr : SocketAddr) :
    s.addChannel clock c channel peerAddr = (.error .notFound, s) := by
  rw [addChannel, show s.allocations.get c = none from hGet]

theorem addChannel_refused (hGet : s.get c = some a) (hTaken : channelFree a channel peerAddr = false) :
    ∃ e, s.addChannel clock c channel peerAddr = (.error e, s) := by
  rw [addChannel, show s.allocations.get c = some a from hGet]
  dsimp only
  split_ifs with hChannel hPeer hFull
  · exact ⟨_, rfl⟩
  · exact ⟨_, rfl⟩
  · exact ⟨_, rfl⟩
  · rw [Bool.not_eq_true] at hChannel hPeer
    rw [channelFree, hChannel, hPeer] at hTaken
    simp only [Bool.not_false, Bool.true_and, Bool.or_eq_false_iff, decide_eq_false_iff_not, Nat.not_lt] at hTaken
    exact absurd ⟨by rw [hTaken.1]; exact Bool.false_ne_true, hTaken.2⟩ hFull

theorem addChannel_free (hGet : s.get c = some a) (hFree : channelFree a channel peerAddr = true) :
    (s.addChannel clock c channel peerAddr).1 = .ok () ∧ (s.addChannel clock c channel peerAddr).2.allocations =
        s.allocations.insert c (a.bindChannel clock.now channel peerAddr) := by
  rw [channelFree, Bool.and_eq_true, Bool.and_eq_true, Bool.not_eq_true', Bool.not_eq_true', Bool.or_eq_true,
    decide_eq_true_iff] at hFree
  obtain ⟨⟨hChannel, hPeer⟩, hRoom⟩ := hFree
  have hNotFull : ¬ (¬ a.channelBindings.contains channel = true ∧
      maxChannelsPerAllocation ≤ a.channelBindings.len) := by
    rintro ⟨hNew, hFull⟩
    exact hRoom.elim hNew (Nat.not_lt.mpr hFull)
  rw [addChannel, show s.allocations.get c = some a from hGet]
  dsimp only
  rw [if_neg (by rw [hChannel]; exact Bool.false_ne_true), if_neg (by rw [hPeer]; exact Bool.false_ne_true),
    if_neg hNotFull]
  refine ⟨rfl, ?_⟩
  rw [allocations_emitWrite, allocations_emitWrite]

end Entry

/-! ## Admission -/

/-- The global counter moves by `g`, those of the tenant and the user of `key` by `t` and `u`. -/
structure Recount (s s' : AllocationStore) (key : UserKey) (g t u : Int) : Prop where
  frame : s' = { s with
    globalCount := s'.globalCount, tenantCounts := s'.tenantCounts, userCounts := s'.userCounts }
  global : s'.globalCount = s.globalCount + g
  tenant : ∀ tenantId, s'.tenantCount tenantId = s.tenantCount tenantId + if key.2.1 = some tenantId then t else 0
  user : ∀ key', s'.userCount key' = s.userCount key' + if key' = key then u else 0

namespace Recount

theorem refl (s : AllocationStore) (key : UserKey) : Recount s s key 0 0 0 where
  frame := rfl
  global := (add_zero _).symm
  tenant _ := by rw [ite_self, add_zero]
  user _ := by rw [ite_self, add_zero]

theorem trans {s s' s'' : AllocationStore} {key : UserKey} {g t u g' t' u' : Int}
    (h : Recount s s' key g t u) (h' : Recount s' s'' key g' t' u') :
    Recount s s'' key (g + g') (t + t') (u + u') where
  frame := by
    rw [h'.frame, h.frame]
  global := by rw [h'.global, h.global, add_assoc]
  tenant tenantId := by
    rw [h'.tenant, h.tenant, add_assoc]
    split <;> simp
  user key' := by
    rw [h'.user, h.user, add_assoc]
    split <;> simp

end Recount

section Steps

variable (s : AllocationStore) (key : UserKey)

theorem recount_addGlobal (n : Int) : Recount s (s.addGlobal n) key n 0 0 where
  frame := rfl
  global := rfl
  tenant _ := by rw [ite_self, add_zero]; rfl
  user _ := by rw [ite_self, add_zero]; rfl

theorem recount_userEntry : Recount s (s.userEntry key) key 0 0 0 where
  frame := rfl
  global := (add_zero _).symm
  tenant _ := by rw [ite_self, add_zero]; rfl
  user key' := by
    rw [ite_self, add_zero]
    exact s.userCounts.tally_orInsert key key'

theorem recount_addUser {s : AllocationStore} {key : UserKey} (h : s.userCounts.contains key = true) (n : Int) :
    Recount s (s.addUser key n) key 0 0 n where
  frame := rfl
  global := (add_zero _).symm
  tenant _ := by rw [ite_self, add_zero]; rfl
  user key' := tally_modify h n key'

theorem recount_tenantEntry (tenantId : String) : Recount s (s.tenantEntry tenantId) key 0 0 0 where
  frame := rfl
  global := (add_zero _).symm
  tenant tenantId' := by
    rw [ite_self, add_zero]
    exact s.tenantCounts.tally_orInsert tenantId tenantId'
  user _ := by rw [ite_self, add_zero]; rfl

theorem recount_addTenant {s : AllocationStore} {key : UserKey} {tenantId : String} (hKey : key.2.1 = some tenantId)
    (h : s.tenantCounts.contains tenantId = true) (n : Int) :
    Recount s (s.addTenant tenantId n) key 0 n 0 where
  frame := rfl
  global := (add_zero _).symm
  tenant tenantId' := by
    simp only [hKey, some.injEq, eq_comm (a := tenantId)]
    exact tally_modify h n tenantId'
  user _ := by rw [ite_self, add_zero]; rfl

end Steps

section Admission

def releaseTenantUser (key : UserKey) : List Stmt :=
  key.2.1.toList.map Stmt.releaseTenant ++ [.releaseUser key]

theorem drop_eq (key : UserKey) (globalReserved : Bool) :
    CounterReservation.drop ⟨key, key.2.1, true, key.2.1.isSome, globalReserved⟩ =
      (if globalReserved then [.releaseGlobal] else []) ++ releaseTenantUser key := by
  rw [CounterReservation.drop, releaseTenantUser, List.append_assoc]
  cases key.2.1 <;> rfl

/-- The counters of `key` have their entries. -/
structure HasEntries (s : AllocationStore) (key : UserKey) : Prop where
  user : s.userCounts.contains key = true
  tenant : ∀ tenantId, key.2.1 = some tenantId → s.tenantCounts.contains tenantId = true

variable {s : AllocationStore} {key : UserKey}

theorem recount_releaseTenantUser (h : HasEntries s key) :
    Recount s (s.runScript (releaseTenantUser key)) key 0 (-1) (-1) := by
  rw [releaseTenantUser]
  cases hKey : key.2.1 with
  | none =>
    have hAdd := recount_addUser h.user (-1)
    refine ⟨hAdd.frame, hAdd.global, fun tenantId => ?_, hAdd.user⟩
    rw [if_neg (by rw [hKey]; simp)]
    exact (add_zero _).symm
  | some tenantId =>
    exact (recount_addTenant hKey (h.tenant tenantId hKey) (-1)).trans
      (recount_addUser (s := s.addTenant tenantId (-1)) h.user (-1))

theorem recount_drop (h : HasEntries s key) :
    Recount s (s.runScript (fullReservation key).drop) key (-1) (-1) (-1) := by
  rw [fullReservation, drop_eq]
  exact (recount_addGlobal s key (-1)).trans (recount_releaseTenantUser (s := s.addGlobal (-1)) ⟨h.user, h.tenant⟩)

def Charges (s : AllocationStore) (key : UserKey) (r : Except SessionError Unit × AllocationStore) : Prop :=
  match r.1 with
  | .ok _ => Recount s r.2 key 1 1 1 ∧ HasEntries r.2 key
  | .error _ => Recount s r.2 key 0 0 0

variable {s₀ : AllocationStore} {maxGlobal : Nat}

theorem reserveGlobal_spec (h : Recount s₀ s key 0 1 1) (hEntries : HasEntries s key) (maxGlobal : Nat) :
    Charges s₀ key (s.reserveGlobal key maxGlobal) := by
  have hAdd := recount_addGlobal s key 1
  rw [reserveGlobal]
  split
  · have hUndo := recount_addGlobal (s.addGlobal 1) key (-1)
    have hDrop := recount_releaseTenantUser (s := (s.addGlobal 1).addGlobal (-1)) ⟨hEntries.user, hEntries.tenant⟩
    rw [drop_eq]
    exact ((h.trans hAdd).trans hUndo).trans hDrop
  · exact ⟨h.trans hAdd, hEntries.user, hEntries.tenant⟩

theorem reserveTenant_spec (h : Recount s₀ s key 0 0 1) (hUser : s.userCounts.contains key = true) (maxGlobal : Nat) :
    Charges s₀ key (s.reserveTenant key maxGlobal) := by
  rw [reserveTenant]
  split
  · next hKey =>
    refine reserveGlobal_spec ⟨h.frame, h.global, fun tenantId => ?_, h.user⟩ ⟨hUser, fun tenantId hSome => ?_⟩
      maxGlobal
    · rw [h.tenant, hKey, if_neg (by simp), if_neg (by simp)]
    · rw [hKey] at hSome
      cases hSome
  · next tenantId hKey =>
    have hEntry : (s.tenantEntry tenantId).tenantCounts.contains tenantId = true := contains_orInsert ..
    have hAdd := (h.trans (recount_tenantEntry s key tenantId)).trans (recount_addTenant hKey hEntry 1)
    have hTenant : ((s.tenantEntry tenantId).addTenant tenantId 1).tenantCounts.contains tenantId = true :=
      (contains_modify ..).trans hEntry
    have hUser' : ((s.tenantEntry tenantId).addTenant tenantId 1).userCounts.contains key = true := hUser
    dsimp only
    generalize (s.tenantEntry tenantId).addTenant tenantId 1 = s₁ at hAdd hTenant hUser'
    split
    · exact (hAdd.trans (recount_addTenant hKey hTenant (-1))).trans
        (recount_addUser (s := s₁.addTenant tenantId (-1)) hUser' (-1))
    refine reserveGlobal_spec hAdd ⟨hUser', fun tenantId' hSome => ?_⟩ maxGlobal
    rw [hKey, some.injEq] at hSome
    exact hSome ▸ hTenant

theorem reserveCounters_spec (s : AllocationStore) (key : UserKey) (maxPerUser : Nat) (allocationsDisabled : Bool)
    (maxGlobal : Nat) :
    Charges s key (s.reserveCounters key maxPerUser allocationsDisabled maxGlobal) := by
  rw [reserveCounters]
  split
  · exact .refl s key
  have hEntry : (s.userEntry key).userCounts.contains key = true := contains_orInsert ..
  have hAdd := (recount_userEntry s key).trans (recount_addUser hEntry 1)
  have hUser : ((s.userEntry key).addUser key 1).userCounts.contains key = true := (contains_modify ..).trans hEntry
  dsimp only
  generalize (s.userEntry key).addUser key 1 = s₁ at hAdd hUser
  split
  · exact hAdd.trans (recount_addUser hUser (-1))
  · exact reserveTenant_spec hAdd hUser maxGlobal

theorem reserveFor_cases (s : AllocationStore) (key : UserKey) :
    (∃ e s', s.reserveFor key = (.error e, s') ∧ Recount s s' key 0 0 0) ∨
      ∃ s', s.reserveFor key = (.ok (), s') ∧ Recount s s' key 1 1 1 ∧ HasEntries s' key := by
  have hSpec : Charges s key (s.reserveFor key) := reserveCounters_spec ..
  generalize s.reserveFor key = r at hSpec
  obtain ⟨result, s'⟩ := r
  cases result with
  | error e => exact .inl ⟨e, s', rfl, hSpec⟩
  | ok => exact .inr ⟨s', rfl, hSpec⟩

/-- Every counter of `key` is below its cap, if it has one, and the user is not disabled. -/
structure HasRoom (s : AllocationStore) (key : UserKey) : Prop where
  enabled : ((s.effectiveUserLimits key.1 key.2.1 key.2.2).allocationsDisabled ||
    (s.effectiveUserLimits key.1 key.2.1 key.2.2).lifetimeDisabled) = false
  user : 0 < (s.effectiveUserLimits key.1 key.2.1 key.2.2).maxAllocations →
    s.userCount key < (s.effectiveUserLimits key.1 key.2.1 key.2.2).maxAllocations
  tenant : ∀ tenantId, key.2.1 = some tenantId → 0 < s.tenantMaxAllocations tenantId →
    s.tenantCount tenantId < s.tenantMaxAllocations tenantId
  global : 0 < s.runtime.maxAllocations → s.globalCount < s.runtime.maxAllocations

theorem reserveGlobal_ok (h : 0 < maxGlobal → s.globalCount < maxGlobal) :
    (s.reserveGlobal key maxGlobal).1 = .ok () := by
  rw [reserveGlobal, if_neg]
  rintro ⟨hPos, hFull⟩
  have hLt := h hPos
  omega

theorem reserveTenant_ok (hTenant : ∀ tenantId, key.2.1 = some tenantId → 0 < s.tenantMaxAllocations tenantId →
      s.tenantCount tenantId < s.tenantMaxAllocations tenantId)
    (hGlobal : 0 < maxGlobal → s.globalCount < maxGlobal) : (s.reserveTenant key maxGlobal).1 = .ok () := by
  rw [reserveTenant]
  split
  · exact reserveGlobal_ok hGlobal
  next tenantId hKey =>
  rw [if_neg]
  · exact reserveGlobal_ok hGlobal
  rintro ⟨hPos, hFull⟩
  have hEntry := (recount_tenantEntry s key tenantId).tenant tenantId
  rw [ite_self, add_zero] at hEntry
  have hLt := hTenant tenantId hKey hPos
  omega

theorem reserveFor_ok (h : HasRoom s key) : (s.reserveFor key).1 = .ok () := by
  rw [reserveFor, reserveCounters, h.enabled, if_neg Bool.false_ne_true]
  rw [if_neg]
  · exact reserveTenant_ok h.tenant h.global
  rintro ⟨hPos, hFull⟩
  have hEntry := (recount_userEntry s key).user key
  rw [ite_self, add_zero] at hEntry
  have hLt := h.user hPos
  omega

end Admission

/-! ## Pools of a port -/

namespace AllocationStore

variable {s s' : AllocationStore}

def HasPool (s : AllocationStore) (id : PoolId) : Prop := ∀ i, id = some i → i < s.tenantPools.length

theorem hasPool_poolIdForPort (s : AllocationStore) (port : UInt16) : s.HasPool (s.poolIdForPort port) := by
  intro i hi
  exact (findIdx?_eq_some_iff_getElem.mp hi).1

theorem hasPool_poolId (s : AllocationStore) (tenantId : Option String) : s.HasPool (s.poolId tenantId) := by
  intro i hi
  cases tenantId with
  | none => cases hi
  | some id => exact (findIdx?_eq_some_iff_getElem.mp hi).1

theorem poolAt_some {i : Nat} (hi : i < s.tenantPools.length) : s.poolAt (some i) = s.tenantPools[i].ports := by
  rw [poolAt, getElem?_eq_getElem hi]
  rfl

variable {id : PoolId}

theorem poolAt_updatePool_self (h : s.HasPool id) (f : PortAllocator → PortAllocator) :
    (s.updatePool f id).poolAt id = f (s.poolAt id) := by
  cases id with
  | none => rfl
  | some i =>
    have hi := h i rfl
    rw [poolAt_some hi, poolAt, updatePool, getElem?_modify_eq, getElem?_eq_getElem hi]
    rfl

theorem poolAt_updatePool_ne {id' : PoolId} (h : s.HasPool id') (hNe : id' ≠ id)
    (f : PortAllocator → PortAllocator) : (s.updatePool f id).poolAt id' = s.poolAt id' := by
  cases id' with
  | none =>
    cases id with
    | none => exact absurd rfl hNe
    | some i => rfl
  | some j =>
    have hj := h j rfl
    cases id with
    | none => rw [poolAt_some hj, poolAt_some (s := s.updatePool f none) hj]; rfl
    | some i =>
      have hij : i ≠ j := fun hEq => hNe (hEq ▸ rfl)
      simp only [poolAt, updatePool, getElem?_modify, if_neg hij, id_map']

variable {f : PortAllocator → PortAllocator}

theorem updatePool_undo {g : PortAllocator → PortAllocator} {id : PoolId} (hPool : s.HasPool id)
    (h : g (f (s.poolAt id)) = s.poolAt id) : (s.updatePool f id).updatePool g id = s := by
  cases id with
  | none =>
    change { s with ports := g (f s.ports) } = s
    rw [show g (f s.ports) = s.ports from h]
  | some i =>
    have hi := hPool i rfl
    rw [poolAt_some hi] at h
    rw [updatePool, updatePool]
    rw [modify_modify_eq]
    have hSame : s.tenantPools.modify i
        ((fun p : TenantPool => { p with ports := g p.ports }) ∘ fun p => { p with ports := f p.ports }) =
          s.tenantPools := by
      apply ext_getElem?
      intro j
      by_cases hij : i = j
      · rw [← hij, getElem?_modify_eq, getElem?_eq_getElem hi, Option.map_eq_map, Option.map_some, comp_apply, h]
      · simp only [getElem?_modify, if_neg hij, id_map']
    rw [hSame]

def routeOf (p : TenantPool) : String × UInt16 × UInt16 := (p.id, p.ports.minPort, p.ports.maxPort)

def SameRoutes (s s' : AllocationStore) : Prop := s'.tenantPools.map routeOf = s.tenantPools.map routeOf

theorem routes_updatePool (hMin : (f (s.poolAt id)).minPort = (s.poolAt id).minPort)
    (hMax : (f (s.poolAt id)).maxPort = (s.poolAt id).maxPort) : SameRoutes s (s.updatePool f id) := by
  cases id with
  | none => rfl
  | some i =>
    apply ext_getElem?
    intro j
    rw [updatePool, getElem?_map, getElem?_map, getElem?_modify]
    cases hj : s.tenantPools[j]? with
    | none => rfl
    | some p =>
      simp only [Option.map_eq_map, Option.map_some, Option.some.injEq]
      split
      · next hij =>
        have hPool : s.poolAt (some i) = p.ports := by rw [hij, poolAt, hj]; rfl
        rw [hPool] at hMin hMax
        simp only [routeOf, hMin, hMax]
      · rfl

theorem poolIdForPort_congr (h : SameRoutes s s') (port : UInt16) :
    s'.poolIdForPort port = s.poolIdForPort port := by
  have hRoute : ∀ l : List TenantPool, l.findIdx? (fun p => p.ports.contains port) =
      (l.map routeOf).findIdx? (fun r => r.2.1 ≤ port && port ≤ r.2.2) := by
    intro l
    rw [findIdx?_map]
    rfl
  rw [poolIdForPort, poolIdForPort, hRoute, hRoute, show _ = _ from h]

theorem tenantIdForPort_congr (h : SameRoutes s s') (port : UInt16) :
    s'.tenantIdForPort port = s.tenantIdForPort port := by
  have hRoute : ∀ l : List TenantPool, (l.find? (fun p => p.ports.contains port)).map TenantPool.id =
      ((l.map routeOf).find? (fun r => r.2.1 ≤ port && port ≤ r.2.2)).map Prod.fst := by
    intro l
    rw [find?_map, Option.map_map]
    rfl
  rw [tenantIdForPort, tenantIdForPort, hRoute, hRoute, show _ = _ from h]

theorem SameRoutes.hasPool (h : SameRoutes s s') (hPool : s'.HasPool id) : s.HasPool id := by
  intro i hi
  have hLength := congrArg length h
  rw [length_map, length_map] at hLength
  exact hLength ▸ hPool i hi

end AllocationStore

/-! ## Creating and restoring -/

section Frames

variable {s s' : AllocationStore} {key : UserKey} {g t u : Int}

section

variable (h : Recount s s' key g t u)
include h

theorem Recount.mint : Recount s.mintId.2 s'.mintId.2 key g t u :=
  ⟨by rw [h.frame]; rfl, h.global, h.tenant, h.user⟩

theorem Recount.updatePool (f : PortAllocator → PortAllocator)
    (id : AllocationStore.PoolId) : Recount (s.updatePool f id) (s'.updatePool f id) key g t u := by
  cases id with
  | none | some i => exact ⟨by rw [h.frame]; rfl, h.global, h.tenant, h.user⟩

theorem Recount.restoredId (allocationId : String) :
    (s'.restoredId allocationId).1 = (s.restoredId allocationId).1 ∧
      Recount (s.restoredId allocationId).2 (s'.restoredId allocationId).2 key g t u := by
  rw [AllocationStore.restoredId, AllocationStore.restoredId]
  split
  · exact ⟨by rw [h.frame]; rfl, h.mint⟩
  · exact ⟨rfl, h⟩

theorem Recount.allocations : s'.allocations = s.allocations := by
  rw [h.frame]

theorem Recount.samePools : SamePools s s' := by
  constructor <;> rw [h.frame]

theorem Recount.poolIdForPort (port : UInt16) : s'.poolIdForPort port = s.poolIdForPort port := by
  rw [h.frame]
  rfl

end

theorem HasEntries.mono (h : HasEntries s key) (hUser : s'.userCounts = s.userCounts)
    (hTenant : s'.tenantCounts = s.tenantCounts) : HasEntries s' key :=
  ⟨hUser ▸ h.user, fun tenantId hKey => hTenant ▸ h.tenant tenantId hKey⟩

theorem updatePool_hasEntries (h : HasEntries s key) (f : PortAllocator → PortAllocator)
    (id : AllocationStore.PoolId) : HasEntries (s.updatePool f id) key := by
  cases id <;> exact h.mono rfl rfl

theorem restoredId_hasEntries (h : HasEntries s key) (allocationId : String) :
    HasEntries (s.restoredId allocationId).2 key := by
  rw [restoredId]
  split
  · exact h.mono rfl rfl
  · exact h

end Frames

variable (s : AllocationStore)

/-- The ways `create_for_identity` can end. -/
inductive CreateOutcome (clock : Clock) (req : CreateRequest) : Except SessionError Unit × AllocationStore → Prop where
  | refused {e : SessionError} {s' : AllocationStore} (hRefused : (s.reserveFor req.userKey).1 = .error e)
      (hSame : Recount s s' req.userKey 0 0 0) : CreateOutcome clock req (.error e, s')
  | taken {a : Allocation} {s' : AllocationStore} (hOk : (s.reserveFor req.userKey).1 = .ok ())
      (hTaken : s.allocations.get req.clientAddr = some a) (hSame : Recount s.mintId.2 s' req.userKey 0 0 0) :
      CreateOutcome clock req (.error .allocationExists, s')
  | created {s' : AllocationStore} (hOk : (s.reserveFor req.userKey).1 = .ok ())
      (hVacant : s.allocations.get req.clientAddr = none) (hCharge : Recount s.mintId.2 s' req.userKey 1 1 1) :
      CreateOutcome clock req
        (.ok (), (s'.publish [] (req.allocation clock s.mintId.1)).emitWrite (req.writeOp clock s.mintId.1))

theorem create_outcome (clock : Clock) (req : CreateRequest) :
    CreateOutcome s clock req (s.createForIdentity clock req) := by
  rw [createForIdentity]
  obtain ⟨e, s₁, hEq, hCharge⟩ | ⟨s₁, hEq, hCharge, hEntries⟩ := reserveFor_cases s req.userKey
  · rw [hEq]
    exact .refused (by rw [hEq]) hCharge
  have hId : s₁.mintId.1 = s.mintId.1 := by rw [hCharge.frame]; rfl
  have hOk : (s.reserveFor req.userKey).1 = .ok () := by rw [hEq]
  rw [hEq]
  dsimp only
  rw [hId, show s₁.mintId.2.allocations = s.allocations from hCharge.allocations]
  split
  · next hTaken =>
    exact .taken hOk hTaken (hCharge.mint.trans (recount_drop (s := s₁.mintId.2) (hEntries.mono rfl rfl)))
  · next hVacant => exact .created hOk hVacant hCharge.mint

variable {reserved : PortAllocator} {req : CreateRequest}

theorem createForIdentity_vacant (clock : Clock) (hRoom : HasRoom s req.userKey)
    (hVacant : s.allocations.get req.clientAddr = none) :
    ∃ s', Recount s.mintId.2 s' req.userKey 1 1 1 ∧ s.createForIdentity clock req =
      (.ok (), (s'.publish [] (req.allocation clock s.mintId.1)).emitWrite (req.writeOp clock s.mintId.1)) := by
  have hOutcome := create_outcome s clock req
  generalize s.createForIdentity clock req = r at hOutcome
  cases hOutcome with
  | refused hRefused =>
    rw [reserveFor_ok hRoom] at hRefused
    cases hRefused
  | taken _ hTaken =>
    rw [hVacant] at hTaken
    cases hTaken
  | created _ _ hCharge => exact ⟨_, hCharge, rfl⟩

theorem createForIdentity_taken (clock : Clock) {a : Allocation}
    (hRoom : HasRoom s req.userKey) (hTaken : s.allocations.get req.clientAddr = some a) :
    ∃ s', s.createForIdentity clock req = (.error .allocationExists, s') ∧ Recount s.mintId.2 s' req.userKey 0 0 0 := by
  have hOutcome := create_outcome s clock req
  generalize s.createForIdentity clock req = r at hOutcome
  cases hOutcome with
  | refused hRefused =>
    rw [reserveFor_ok hRoom] at hRefused
    cases hRefused
  | taken _ _ hSame => exact ⟨_, rfl, hSame⟩
  | created _ hVacant =>
    rw [hTaken] at hVacant
    cases hVacant

def RehydrateRow.prepared (row : RehydrateRow) : AllocationStore :=
  ((s.updatePool (fun pool => (pool.reserve row.relayAddr.port).2) (s.poolIdForPort row.relayAddr.port)).restoredId
    row.allocationId).2

def RehydrateRow.userKey (row : RehydrateRow) : UserKey :=
  (row.realm, s.tenantIdForPort row.relayAddr.port, row.username)

def RehydrateRow.restored (row : RehydrateRow) (clock : Clock) : Allocation :=
  row.allocation clock (s.restoredId row.allocationId).1 (s.tenantIdForPort row.relayAddr.port)

/-- The ways `rehydrate` can end. -/
inductive RehydrateOutcome (order : IterOrder) (clock : Clock) (row : RehydrateRow) :
    Except SessionError Bool × AllocationStore → Prop where
  | expired (hExpired : row.expiresAtMs ≤ clock.epochMs) : RehydrateOutcome order clock row (.ok false, s)
  | refused {e : SessionError} {s' : AllocationStore} (hSame : Recount s s' (row.userKey s) 0 0 0) :
      RehydrateOutcome order clock row (.error e, s')
  | taken {a : Allocation} {s' : AllocationStore} (hTaken : s.allocations.get row.clientAddr = some a)
      (hSame : Recount (s.restoredId row.allocationId).2 s' (row.userKey s) 0 0 0) :
      RehydrateOutcome order clock row (.error .allocationExists, s')
  | restored {s' : AllocationStore} {reserved : PortAllocator}
      (hReserve : (s.poolForPort row.relayAddr.port).reserve row.relayAddr.port = (.ok (), reserved))
      (hVacant : s.allocations.get row.clientAddr = none)
      (hCharge : Recount (row.prepared s) s' (row.userKey s) 1 1 1) :
      RehydrateOutcome order clock row
        (.ok true, s'.publish (order.visit (row.channelMap clock).keys) (row.restored s clock))

theorem restoredId_updatePool (f : PortAllocator → PortAllocator) (id : AllocationStore.PoolId)
    (allocationId : String) :
    (s.updatePool f id).restoredId allocationId =
      ((s.restoredId allocationId).1, (s.restoredId allocationId).2.updatePool f id) := by
  rw [restoredId, restoredId]
  cases id <;> split <;> rfl

theorem restoredId_poolAt (allocationId : String) (id : AllocationStore.PoolId) :
    (s.restoredId allocationId).2.poolAt id = s.poolAt id := by
  rw [restoredId]
  split <;> rfl

theorem restoredId_samePools (allocationId : String) : SamePools s (s.restoredId allocationId).2 := by
  rw [restoredId]
  split <;> exact ⟨rfl, rfl⟩

theorem restoredId_allocations (allocationId : String) :
    (s.restoredId allocationId).2.allocations = s.allocations := by
  rw [restoredId]
  split <;> rfl

theorem reserve_range (pool : PortAllocator) (port : UInt16) :
    (pool.reserve port).2.minPort = pool.minPort ∧ (pool.reserve port).2.maxPort = pool.maxPort := by
  rw [reserve]
  split_ifs <;> exact ⟨rfl, rfl⟩

theorem release_reserve {pool : PortAllocator} {port : UInt16}
    (h : pool.reserve port = (.ok (), reserved)) : reserved.release port = pool := by
  have hFree := notMem_used_of_reserve h
  rw [reserve] at h
  split_ifs at h
  · cases h
  · obtain rfl := (Prod.mk.inj h).2
    rw [release, Finset.erase_insert hFree]

theorem prepared_allocations (row : RehydrateRow) : (row.prepared s).allocations = s.allocations := by
  rw [RehydrateRow.prepared, restoredId_allocations]
  cases s.poolIdForPort row.relayAddr.port <;> rfl

theorem prepared_poolIdForPort (row : RehydrateRow) (port : UInt16) :
    (row.prepared s).poolIdForPort port = s.poolIdForPort port := by
  apply poolIdForPort_congr
  rw [RehydrateRow.prepared, AllocationStore.SameRoutes, (restoredId_samePools _ _).2]
  exact routes_updatePool (reserve_range _ _).1 (reserve_range _ _).2

theorem release_prepared {row : RehydrateRow}
    (hReserve : (s.poolForPort row.relayAddr.port).reserve row.relayAddr.port = (.ok (), reserved)) :
    (row.prepared s).updatePool (fun pool => pool.release row.relayAddr.port) (s.poolIdForPort row.relayAddr.port) =
      (s.restoredId row.allocationId).2 := by
  rw [RehydrateRow.prepared, restoredId_updatePool]
  refine @updatePool_undo _ (fun pool => (pool.reserve row.relayAddr.port).2)
    (fun pool => pool.release row.relayAddr.port) _ ?_ ?_
  · intro i hi
    rw [(restoredId_samePools s _).2]
    exact s.hasPool_poolIdForPort _ i hi
  rw [restoredId_poolAt, show s.poolAt (s.poolIdForPort row.relayAddr.port) = s.poolForPort row.relayAddr.port from rfl,
    hReserve]
  exact release_reserve hReserve

theorem rehydrate_outcome (order : IterOrder) (clock : Clock) (row : RehydrateRow) :
    RehydrateOutcome s order clock row (s.rehydrate order clock row) := by
  rw [rehydrate]
  by_cases hExpired : row.expiresAtMs ≤ clock.epochMs
  · rw [if_pos hExpired]
    exact .expired hExpired
  rw [if_neg hExpired]
  dsimp only
  obtain ⟨e, s₁, hEq, hCharge⟩ | ⟨s₁, hEq, hCharge, hEntries⟩ := reserveFor_cases s (row.userKey s)
  · rw [show s.reserveFor (row.realm, s.tenantIdForPort row.relayAddr.port, row.username) = _ from hEq]
    exact .refused hCharge
  rw [show s.reserveFor (row.realm, s.tenantIdForPort row.relayAddr.port, row.username) = _ from hEq]
  have hPool : s₁.poolForPort row.relayAddr.port = s.poolForPort row.relayAddr.port := by
    rw [hCharge.frame]
    rfl
  dsimp only
  rw [hPool, hCharge.poolIdForPort]
  cases hReserve : (s.poolForPort row.relayAddr.port).reserve row.relayAddr.port with
  | mk result reserved =>
    cases result with
    | error e => exact .refused (hCharge.trans (recount_drop hEntries))
    | ok =>
      obtain ⟨hId, hPrepared⟩ := (hCharge.updatePool (fun pool => (pool.reserve row.relayAddr.port).2)
        (s.poolIdForPort row.relayAddr.port)).restoredId row.allocationId
      change Recount (row.prepared s) _ _ 1 1 1 at hPrepared
      have hEntries' := restoredId_hasEntries (updatePool_hasEntries hEntries
        (fun pool => (pool.reserve row.relayAddr.port).2) (s.poolIdForPort row.relayAddr.port)) row.allocationId
      rw [restoredId_updatePool s] at hId
      dsimp only at hId ⊢
      rw [hId, hPrepared.allocations, prepared_allocations]
      generalize restoredId _ row.allocationId = r at hPrepared hEntries' ⊢
      split
      · next hTaken =>
        have hUndo := hPrepared.updatePool (fun pool => pool.release row.relayAddr.port)
          (s.poolIdForPort row.relayAddr.port)
        rw [release_prepared s hReserve] at hUndo
        have hRoute : r.2.poolIdForPort row.relayAddr.port = s.poolIdForPort row.relayAddr.port := by
          rw [hPrepared.poolIdForPort, prepared_poolIdForPort]
        have hDrop := recount_drop (updatePool_hasEntries hEntries'
          (fun pool => pool.release row.relayAddr.port) (s.poolIdForPort row.relayAddr.port))
        rw [← hRoute] at hUndo hDrop
        exact .taken hTaken (hUndo.trans hDrop)
      · next hVacant => exact .restored hReserve hVacant hPrepared

/-! ## Failed admission -/

/-- The stores agree but for the counter of ids; a counter without an entry counts as zero. -/
structure NoTrace (s s' : AllocationStore) : Prop where
  frame : s' = { s with
    nextId := s'.nextId, globalCount := s'.globalCount, tenantCounts := s'.tenantCounts, userCounts := s'.userCounts }
  global : s'.globalCount = s.globalCount
  tenant : ∀ tenantId, s'.tenantCount tenantId = s.tenantCount tenantId
  user : ∀ key, s'.userCount key = s.userCount key

theorem Recount.noTrace {s₁ s' : AllocationStore} {key : UserKey} (h : Recount s₁ s' key 0 0 0)
    (hId : s₁ = { s with nextId := s₁.nextId }) : NoTrace s s' where
  frame := by rw [h.frame, hId]
  global := by rw [h.global, hId, add_zero]
  tenant tenantId := by rw [h.tenant, hId, ite_self, add_zero]; rfl
  user key' := by rw [h.user, hId, ite_self, add_zero]; rfl

theorem failed_admission_leaves_no_trace (s : AllocationStore) (order : IterOrder) (clock : Clock)
    (req : CreateRequest) (row : RehydrateRow) :
    ((s.createForIdentity clock req).1 ≠ .ok () → NoTrace s (s.createForIdentity clock req).2) ∧
      ((s.rehydrate order clock row).1 ≠ .ok true → NoTrace s (s.rehydrate order clock row).2) := by
  constructor
  · have hOutcome := create_outcome s clock req
    generalize s.createForIdentity clock req = r at hOutcome
    cases hOutcome with
    | refused _ hSame => exact fun _ => hSame.noTrace s rfl
    | taken _ _ hSame => exact fun _ => hSame.noTrace s rfl
    | created => exact fun h => absurd rfl h
  · have hOutcome := rehydrate_outcome s order clock row
    generalize s.rehydrate order clock row = r at hOutcome
    cases hOutcome with
    | expired => exact fun _ => (Recount.refl s ("", none, "")).noTrace s rfl
    | refused hSame => exact fun _ => hSame.noTrace s rfl
    | taken _ hSame =>
      refine fun _ => hSame.noTrace s ?_
      rw [AllocationStore.restoredId]
      split <;> rfl
    | restored => exact fun h => absurd rfl h

/-- A row whose relay port no pool has. -/
def strayRow : RehydrateRow :=
  ⟨.v4 ⟨192, 0, 2, 1⟩ 1, .v4 ⟨198, 51, 100, 1⟩ 40000, "u", "r", "", 0, 0, 600000, [], []⟩

theorem failed_admission_leaves_no_trace_stray :
    NoTrace (.new 50000 50007 0 0) ((AllocationStore.new 50000 50007 0 0).rehydrate .stored ⟨0, 0⟩ strayRow).2 :=
  (failed_admission_leaves_no_trace (.new 50000 50007 0 0) .stored ⟨0, 0⟩
    ⟨strayRow.clientAddr, strayRow.relayAddr, "u", [], 600, "r", none⟩ strayRow).2 (by decide +kernel)

end Turna.Session
