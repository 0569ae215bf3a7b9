import Turna.Lib.Machine
import Turna.Session.Effects

/-! # What one access of a call does

Every call owes statements: what it would still run, were it to fail here. An access to shared state
moves obligations between the calls, the counters, the pools and the allocation map.
-/

namespace Turna.Session
open Lib Net AllocationStore

inductive Counter where
  | user (key : UserKey)
  | tenant (tenantId : String)
  | global
  deriving DecidableEq, Repr

namespace AllocationStore

variable (s : AllocationStore)

def count : Counter → Int
  | .user key => s.userCount key
  | .tenant tenantId => s.tenantCount tenantId
  | .global => s.globalCount

def add (c : Counter) (n : Int) : AllocationStore :=
  match c with
  | .user key => s.addUser key n
  | .tenant tenantId => s.addTenant tenantId n
  | .global => s.addGlobal n

def entry : Counter → AllocationStore
  | .user key => s.userEntry key
  | .tenant tenantId => s.tenantEntry tenantId
  | .global => s

end AllocationStore

def Stmt.counter? : Stmt → Option Counter
  | .releaseUser key => some (.user key)
  | .releaseTenant tenantId => some (.tenant tenantId)
  | .releaseGlobal => some .global
  | _ => none

def Counter.release : Counter → Stmt
  | .user key => .releaseUser key
  | .tenant tenantId => .releaseTenant tenantId
  | .global => .releaseGlobal

/-- The global counter is in no map. -/
def Counter.guard : Counter → Multiset Counter
  | .global => 0
  | c => {c}

structure World where
  store : AllocationStore
  guards : Multiset Counter

/-- The entry is the one that a pass over a map visits next, if it visits another one. -/
structure Env where
  clock : Clock
  order : IterOrder
  client : Option SocketAddr
  user : Option UserKey

/-- An Allocate request. Its relay port is drawn from the tenant's pool. -/
structure AllocateRequest where
  clientAddr : SocketAddr
  relayIp : IpAddr
  username : String
  key : List UInt8
  lifetime : UInt32
  realm : String
  tenantId : Option String

def AllocateRequest.create (req : AllocateRequest) (port : UInt16) : CreateRequest where
  clientAddr := req.clientAddr
  relayAddr := .new req.relayIp port
  username := req.username
  key := req.key
  lifetime := req.lifetime
  realm := req.realm
  tenantId := req.tenantId

/-- A caller of `create_for_identity` runs `onFail` when the creation fails. -/
inductive Job where
  | create (req : CreateRequest) (onFail : List Stmt)
  | rehydrate (row : RehydrateRow) (tenantId : Option String)

namespace Job

def userKey : Job → UserKey
  | .create req _ => req.userKey
  | .rehydrate row tenantId => (row.realm, tenantId, row.username)

def onFail : Job → List Stmt
  | .create _ onFail => onFail
  | .rehydrate .. => []

def clientAddr : Job → SocketAddr
  | .create req _ => req.clientAddr
  | .rehydrate row _ => row.clientAddr

def allocation (clock : Clock) (allocationId : String) : Job → Allocation
  | .create req _ => req.allocation clock allocationId
  | .rehydrate row tenantId => row.allocation clock allocationId tenantId

def channels (order : IterOrder) (alloc : Allocation) : Job → List UInt16
  | .create .. => []
  | .rehydrate .. => order.visit alloc.channelBindings.keys

/-- `rehydrate` drops its port guard first. -/
def onTaken : Job → List Stmt
  | .create req onFail => (fullReservation req.userKey).drop ++ onFail
  | .rehydrate row tenantId =>
    .releasePort row.relayAddr.port :: (fullReservation (row.realm, tenantId, row.username)).drop

end Job

structure Caps where
  maxPerUser : Nat
  maxGlobal : Nat

/-- The counters in the order in which `reserve_counters` charges them. -/
inductive CounterKind where
  | user
  | tenant
  | global
  deriving DecidableEq, Repr

namespace CounterKind

def counter (key : UserKey) : CounterKind → Option Counter
  | .user => some (.user key)
  | .tenant => key.2.1.map .tenant
  | .global => some .global

def reservation (key : UserKey) : CounterKind → CounterReservation
  | .user => ⟨key, key.2.1, false, false, false⟩
  | .tenant => ⟨key, key.2.1, true, false, false⟩
  | .global => ⟨key, key.2.1, true, key.2.1.isSome, false⟩

end CounterKind

/-- At a counter's entry, at its `fetch_add`, or at the `fetch_sub` that follows a refusal. -/
inductive Stage where
  | entry
  | add
  | undo
  deriving DecidableEq, Repr

inductive Call where
  | create (req : CreateRequest) (onFail : List Stmt)
  | allocate (req : AllocateRequest)
  | rehydrate (row : RehydrateRow)
  | admission (job : Job) (caps : Caps) (kind : CounterKind) (stage : Stage)
  | reserved (job : Job)
  | portReserved (row : RehydrateRow) (tenantId : Option String)
  | claim (job : Job) (allocationId : String)
  | rollback (todo : List Stmt)
  | send (op : WriteOp)
  | remove (clientAddr relayAddr : SocketAddr)
  | forceRemove (clientAddr : SocketAddr)
  | refresh (clientAddr : SocketAddr) (lifetime : UInt32)
  | teardown (todo : List Stmt) (expired : Option (List (SocketAddr × SocketAddr)))
  | reKey (oldAddr newAddr : SocketAddr)
  | reKeyClaim (oldAddr newAddr : SocketAddr) (alloc : Allocation)
  | reKeyBack (oldAddr : SocketAddr) (alloc : Allocation)
  | cleanup (maxOps : Nat)
  | sweepPools (maxOps : Nat) (ids : List AllocationStore.PoolId)
  | scan (maxOps : Nat) (seen : List SocketAddr) (found : AllocationStore.Classified)
  | pruneEntries (toClean : List SocketAddr) (expired : List (SocketAddr × SocketAddr))
  | recheck (expired : List (SocketAddr × SocketAddr))
  | removeExpired (clientAddr relayAddr : SocketAddr) (expired : List (SocketAddr × SocketAddr))
  | pruneLists
  | pruneCounts
  | done

namespace Call

def isEntry : Call → Bool
  | .create _ onFail => onFail.isEmpty
  | .allocate _ | .rehydrate _ | .remove .. | .forceRemove _ | .refresh .. | .reKey .. | .cleanup _ => true
  | _ => false

def capsFor (s : AllocationStore) (key : UserKey) : Caps where
  maxPerUser := (s.effectiveUserLimits key.1 key.2.1 key.2.2).maxAllocations
  maxGlobal := s.runtime.maxAllocations

def reserveFor (s : AllocationStore) (job : Job) : Call :=
  let key := job.userKey
  let effective := s.effectiveUserLimits key.1 key.2.1 key.2.2
  if effective.allocationsDisabled || effective.lifetimeDisabled then .rollback job.onFail
  else .admission job (capsFor s key) .user .entry

def cap (s : AllocationStore) (caps : Caps) : Counter → Nat
  | .user _ => caps.maxPerUser
  | .tenant tenantId => s.tenantMaxAllocations tenantId
  | .global => caps.maxGlobal

def charged (job : Job) (caps : Caps) : CounterKind → Call
  | .user => if job.userKey.2.1.isSome then .admission job caps .tenant .entry else .admission job caps .global .add
  | .tenant => .admission job caps .global .add
  | .global => .reserved job

/-- The guard of an entry is held from the access to the entry to the last operation on its counter. -/
def reserveCounter (w : World) (job : Job) (caps : Caps) (kind : CounterKind) (c : Counter) :
    Stage → Option (World × Call)
  | .entry =>
    if c ∈ w.guards then none
    else some (⟨w.store.entry c, c.guard + w.guards⟩, .admission job caps kind .add)
  | .add =>
    let old := w.store.count c
    let store := w.store.add c 1
    if cap w.store caps c > 0 ∧ (cap w.store caps c : Int) ≤ old then
      some (⟨store, w.guards⟩, .admission job caps kind .undo)
    else some (⟨store, w.guards - c.guard⟩, charged job caps kind)
  | .undo =>
    some (⟨w.store.add c (-1), w.guards - c.guard⟩, .rollback ((kind.reservation job.userKey).drop ++ job.onFail))

def published (clock : Clock) (allocationId : String) : Job → Call
  | .create req _ => .send (req.writeOp clock allocationId)
  | .rehydrate .. => .done

def execStmt (w : World) (stmt : Stmt) : Option World :=
  if stmt.counter?.any (· ∈ w.guards) then none else some ⟨stmt.exec w.store, w.guards⟩

def takeOut (w : World) (clientAddr : SocketAddr) : World :=
  { w with store := { w.store with allocations := w.store.allocations.remove clientAddr } }

def removeWith (w : World) (clientAddr : SocketAddr) (script : Allocation → List Stmt)
    (expired : Option (List (SocketAddr × SocketAddr))) (missing : Call) : World × Call :=
  match w.store.allocations.get clientAddr with
  | none => (w, missing)
  | some alloc => (takeOut w clientAddr, .teardown (script alloc) expired)

/-- One access to shared state. `none`: the call has returned or waits for a guard. -/
def next (env : Env) (w : World) : Call → Option (World × Call)
  | .create req onFail => some (w, reserveFor w.store (.create req onFail))
  | .allocate req =>
    let id := w.store.poolId req.tenantId
    let pooled : World := { w with store := w.store.updatePool (fun pool => pool.allocate.2) id }
    match (w.store.poolAt id).allocate.1 with
    | .error _ => some (pooled, .done)
    | .ok port => some (pooled, .create (req.create port) [.releasePort port])
  | .rehydrate row =>
    if row.expiresAtMs ≤ env.clock.epochMs then some (w, .done)
    else some (w, reserveFor w.store (.rehydrate row (w.store.tenantIdForPort row.relayAddr.port)))
  | .admission job caps kind stage => (kind.counter job.userKey).bind fun c => reserveCounter w job caps kind c stage
  | .reserved (.create req onFail) =>
    let (allocationId, store) := w.store.mintId
    some ({ w with store }, .claim (.create req onFail) allocationId)
  | .reserved (.rehydrate row tenantId) =>
    let port := row.relayAddr.port
    match (w.store.poolForPort port).reserve port with
    | (.error _, _) => some (w, .rollback (fullReservation (row.realm, tenantId, row.username)).drop)
    | (.ok _, _) =>
      some ({ w with store := w.store.updatePool (fun pool => (pool.reserve port).2) (w.store.poolIdForPort port) },
        .portReserved row tenantId)
  | .portReserved row tenantId =>
    let (allocationId, store) := w.store.restoredId row.allocationId
    some ({ w with store }, .claim (.rehydrate row tenantId) allocationId)
  | .claim job allocationId =>
    match w.store.allocations.get job.clientAddr with
    | some _ => some (w, .rollback job.onTaken)
    | none =>
      let alloc := job.allocation env.clock allocationId
      some ({ w with store := w.store.publish (job.channels env.order alloc) alloc },
        published env.clock allocationId job)
  | .rollback [] => some (w, .done)
  | .rollback (stmt :: todo) => (execStmt w stmt).map fun w => (w, .rollback todo)
  | .send op => some ({ w with store := w.store.emitWrite op }, .done)
  | .remove clientAddr relayAddr =>
    some (removeWith w clientAddr
      (removeScript env.order env.clock.epochMs env.clock.now clientAddr relayAddr) none .done)
  | .forceRemove clientAddr =>
    some (removeWith w clientAddr (forceRemoveScript env.order env.clock.epochMs clientAddr) none .done)
  | .refresh clientAddr lifetime =>
    match w.store.allocations.get clientAddr with
    | none => some (w, .done)
    | some alloc =>
      -- The relay address is read here and used by the removal, which is a later access.
      if lifetime = 0 then some (w, .remove clientAddr alloc.relayAddr)
      else
        let alloc := { alloc with expiresAt := env.clock.now + secs lifetime.toNat }
        some ({ w with store := { w.store with allocations := w.store.allocations.insert clientAddr alloc } },
          .send (.refresh alloc.relayAddr.port (env.clock.epochMs + lifetime.toNat * 1000)))
  | .teardown [] none => some (w, .done)
  | .teardown [] (some expired) => some (w, .recheck expired)
  | .teardown (stmt :: todo) expired => (execStmt w stmt).map fun w => (w, .teardown todo expired)
  | .reKey oldAddr newAddr =>
    if oldAddr = newAddr then some (w, .done)
    else
      match w.store.allocations.get oldAddr with
      | none => some (w, .done)
      | some alloc => some (takeOut w oldAddr, .reKeyClaim oldAddr newAddr alloc)
  | .reKeyClaim oldAddr newAddr alloc =>
    match w.store.allocations.get newAddr with
    | none =>
      some ({ w with store := w.store.relink env.order oldAddr newAddr alloc },
        .send (.reKey alloc.relayAddr.port newAddr (alloc.migrationEpoch + 1)))
    | some _ => some (w, .reKeyBack oldAddr { alloc with clientAddr := oldAddr })
  | .reKeyBack oldAddr alloc =>
    match w.store.allocations.get oldAddr with
    | none =>
      some ({ w with store := { w.store with allocations := w.store.allocations.insert oldAddr alloc } }, .done)
    | some _ => some (w, .teardown (migrationLostScript env.order env.clock.epochMs oldAddr alloc) none)
  | .cleanup maxOps =>
    some (w, .sweepPools maxOps (none :: (List.range w.store.tenantPools.length).map some))
  | .sweepPools maxOps [] => some (w, .scan maxOps [] ⟨[], []⟩)
  | .sweepPools maxOps (id :: ids) =>
    some ({ w with store := w.store.updatePool (fun pool => (pool.sweepExpiredReservations env.clock.now).2) id },
      .sweepPools maxOps ids)
  | .scan maxOps seen found =>
    match env.client with
    | none => some (w, .pruneEntries found.toClean found.expired)
    | some client =>
      if client ∈ seen then none
      else
        match w.store.allocations.get client with
        | none => none
        | some alloc =>
          some (w, .scan maxOps (client :: seen)
            (AllocationStore.classify (fun _ => env.clock.now) maxOps found (client, alloc)))
  | .pruneEntries [] expired => some (w, .recheck expired)
  | .pruneEntries (client :: toClean) expired =>
    some ({ w with store := w.store.pruneEntries env.order (fun _ => env.clock.now) client },
      .pruneEntries toClean expired)
  | .recheck [] => some (w, .pruneLists)
  | .recheck ((client, relayAddr) :: expired) =>
    if (w.store.allocations.get client).any (fun alloc => alloc.isExpired env.clock.now) then
      some (w, .removeExpired client relayAddr expired)
    else some (w, .recheck expired)
  | .removeExpired client relayAddr expired =>
    some (removeWith w client
      (removeScript env.order env.clock.epochMs env.clock.now client relayAddr) (some expired) (.recheck expired))
  | .pruneLists =>
    match env.user with
    | none => some (w, .pruneCounts)
    | some key =>
      some ({ w with store := { w.store with
        userAllocations :=
          if w.store.userAllocations.get key = some [] then w.store.userAllocations.remove key
          else w.store.userAllocations } }, .pruneLists)
  | .pruneCounts =>
    match env.user with
    | none => some (w, .done)
    | some key =>
      if .user key ∈ w.guards then none
      else
        some ({ w with store := { w.store with
          userCounts :=
            if 0 < w.store.userCount key then w.store.userCounts else w.store.userCounts.remove key } },
          .pruneCounts)
  | .done => none

end Call

def callMachine : Machine World Call Env where
  start w call := if call.isEntry then some w else none
  advance env w call := call.next env w

theorem isEntry_of_start {w w' : World} {call : Call} (h : callMachine.start w call = some w') :
    call.isEntry = true ∧ w' = w := by
  change (if call.isEntry then some w else none) = some w' at h
  split at h
  · next hEntry =>
    cases h
    exact ⟨hEntry, rfl⟩
  · cases h

structure Setup where
  minPort : UInt16
  maxPort : UInt16
  random : UInt32
  tenants : List TenantRange
  runtime : RuntimeLimits
  userLimits : UserLimitsSnapshot
  writeTx : Option (Channel WriteOp)
  base : minPort < maxPort
  ranges : ∀ t ∈ tenants, t.minPort < t.maxPort

theorem Setup.twoPorts : (40000 : UInt16) < 40001 := by decide

theorem Setup.noTenants : ∀ t ∈ ([] : List TenantRange), t.minPort < t.maxPort := List.forall_mem_nil _

def Setup.world (setup : Setup) : World where
  store :=
    { AllocationStore.configured setup.minPort setup.maxPort setup.random setup.runtime.maxAllocations
        setup.tenants with
      runtime := setup.runtime
      userLimits := setup.userLimits
      writeTx := setup.writeTx }
  guards := 0

/-! ## What one access of a call does -/

structure SameLedger (s s' : AllocationStore) : Prop where
  allocations : s'.allocations = s.allocations
  ports : s'.ports = s.ports
  tenantPools : s'.tenantPools = s.tenantPools
  writeTx : s'.writeTx = s.writeTx
  runtime : s'.runtime = s.runtime
  userLimits : s'.userLimits = s.userLimits

/-- They also agree on the counters. Indices and traffic totals may differ. -/
structure Quiet (s s' : AllocationStore) : Prop extends SameLedger s s' where
  globalCount : s'.globalCount = s.globalCount
  tenantCounts : s'.tenantCounts = s.tenantCounts
  userCounts : s'.userCounts = s.userCounts

theorem Quiet.refl (s : AllocationStore) : Quiet s s := by
  constructor
  · constructor <;> rfl
  all_goals rfl

/-- What an allocation outside the map owes: its counters and its port. -/
def carried (alloc : Allocation) : List Stmt :=
  releaseCounters alloc.realm alloc.tenantId alloc.username ++ [.releasePort alloc.relayAddr.port]

def Job.Backed : Job → Prop
  | .create req onFail => onFail = [.releasePort req.relayAddr.port]
  | .rehydrate .. => True

namespace Call

/-- The counter on which the call is over the cap and about to undo its own increment. -/
def probe : Call → Option Counter
  | .admission job _ kind .undo => kind.counter job.userKey
  | _ => none

def kept : Call → List Stmt
  | .create _ onFail => onFail
  | .admission job _ kind _ => (kind.reservation job.userKey).drop ++ job.onFail
  | .reserved job => (fullReservation job.userKey).drop ++ job.onFail
  | .portReserved row tenantId => (Job.rehydrate row tenantId).onTaken
  | .claim job _ => job.onTaken
  | .rollback todo => todo
  | .teardown todo _ => todo
  | .send op => [.emitWrite op]
  | .reKeyClaim _ _ alloc => carried alloc
  | .reKeyBack _ alloc => carried alloc
  | _ => []

def owed (call : Call) : List Stmt := call.probe.toList.map Counter.release ++ call.kept

def guard : Call → Multiset Counter
  | .admission job _ kind stage => if stage = .entry then 0 else (kind.counter job.userKey).elim 0 Counter.guard
  | _ => 0

structure Calm (call : Call) : Prop where
  guard : call.guard = 0
  probe : call.probe = none

def CapsOf (s : AllocationStore) : Call → Prop
  | .admission job caps _ _ => caps = capsFor s job.userKey
  | _ => True

def job? : Call → Option Job
  | .create req onFail => some (.create req onFail)
  | .admission job .. => some job
  | .reserved job => some job
  | .portReserved row tenantId => some (.rehydrate row tenantId)
  | .claim job _ => some job
  | _ => none

structure Follows (s : AllocationStore) (call call' : Call) : Prop where
  caps : call.CapsOf s → call'.CapsOf s
  job : ∀ job, call'.job? = some job → call.job? = some job ∨ job.Backed

theorem Follows.of_none {s : AllocationStore} {call call' : Call} (h : call'.job? = none) :
    Follows s call call' where
  caps _ := by
    cases call' with
    | admission => cases h
    | _ => trivial
  job _ hJob := by
    rw [h] at hJob
    cases hJob

/-- The allocation the call has outside the map, on its way to another key. -/
def carries : Call → Option Allocation
  | .reKeyClaim _ _ alloc => some alloc
  | .reKeyBack _ alloc => some alloc
  | _ => none

def removal : Call → Option (SocketAddr × SocketAddr)
  | .remove clientAddr relayAddr => some (clientAddr, relayAddr)
  | .removeExpired clientAddr relayAddr _ => some (clientAddr, relayAddr)
  | _ => none

end Call

inductive Act (env : Env) : Call → AllocationStore → Call → AllocationStore → Prop where
  | quiet {call call' : Call} {s s' : AllocationStore} (hStore : Quiet s s') (hOwed : call'.owed = call.owed) :
      Act env call s call' s'
  | exec {call call' : Call} {s : AllocationStore} {stmt : Stmt} (hOwed : call.owed = stmt :: call'.owed) :
      Act env call s call' (stmt.exec s)
  | edit {call call' : Call} {s : AllocationStore} {c : SocketAddr} {a a' : Allocation} {ops : List WriteOp}
      (hGet : s.allocations.get c = some a) (hSame : SameOwner a a') (hNone : call.owed = [])
      (hOwed : call'.owed = ops.map .emitWrite) (hTouch : ∀ op ∈ ops, op.terminal = none) :
      Act env call s call' { s with allocations := s.allocations.insert c a' }
  | draw {req : AllocateRequest} {s : AllocationStore} {port : UInt16}
      (hPort : (s.poolAt (s.poolId req.tenantId)).allocate.1 = .ok port) :
      Act env (.allocate req) s (.create (req.create port) [.releasePort port])
        (s.updatePool (fun pool => pool.allocate.2) (s.poolId req.tenantId))
  | exhausted {req : AllocateRequest} {s : AllocationStore} {e : SessionError}
      (hPort : (s.poolAt (s.poolId req.tenantId)).allocate.1 = .error e) :
      Act env (.allocate req) s .done (s.updatePool (fun pool => pool.allocate.2) (s.poolId req.tenantId))
  | reserve {row : RehydrateRow} {tenantId : Option String} {s : AllocationStore}
      (hPort : ((s.poolForPort row.relayAddr.port).reserve row.relayAddr.port).1.isOk = true) :
      Act env (.reserved (.rehydrate row tenantId)) s (.portReserved row tenantId)
        (s.updatePool (fun pool => (pool.reserve row.relayAddr.port).2) (s.poolIdForPort row.relayAddr.port))
  | sweep {call call' : Call} {s : AllocationStore} (id : AllocationStore.PoolId) (now : Nat)
      (hNone : call.owed = []) (hOwed : call'.owed = []) :
      Act env call s call' (s.updatePool (fun pool => (pool.sweepExpiredReservations now).2) id)
  | publish {job : Job} {allocationId : String} {s : AllocationStore}
      (hVacant : s.allocations.get job.clientAddr = none) :
      Act env (.claim job allocationId) s (Call.published env.clock allocationId job)
        (s.publish (job.channels env.order (job.allocation env.clock allocationId))
          (job.allocation env.clock allocationId))
  | takeOut {call call' : Call} {s : AllocationStore} {c r : SocketAddr} {a : Allocation}
      (hCall : call.removal = some (c, r)) (hGet : s.allocations.get c = some a)
      (hTeardown : IsTeardown call'.owed a c r) :
      Act env call s call' { s with allocations := s.allocations.remove c }
  | force {call' : Call} {s : AllocationStore} {c : SocketAddr} {a : Allocation}
      (hGet : s.allocations.get c = some a) (hTeardown : IsTeardown call'.owed a c a.relayAddr) :
      Act env (.forceRemove c) s call' { s with allocations := s.allocations.remove c }
  | lift {oldAddr newAddr : SocketAddr} {s : AllocationStore} {a : Allocation}
      (hGet : s.allocations.get oldAddr = some a) :
      Act env (.reKey oldAddr newAddr) s (.reKeyClaim oldAddr newAddr a)
        { s with allocations := s.allocations.remove oldAddr }
  | land {call call' : Call} {s s' : AllocationStore} {c : SocketAddr} {a a' : Allocation} {ops : List WriteOp}
      (hVacant : s.allocations.get c = none) (hSame : SameOwner a a') (hCarries : call.carries = some a)
      (hStore : Quiet { s with allocations := s.allocations.insert c a' } s') (hOwed : call'.owed = ops.map .emitWrite) :
      Act env call s call' s'
  | lost {oldAddr : SocketAddr} {call' : Call} {s : AllocationStore} {a : Allocation}
      (hTeardown : IsTeardown call'.owed a oldAddr a.relayAddr) :
      Act env (.reKeyBack oldAddr a) s call' s

inductive Move (env : Env) : World → Call → World → Call → Prop where
  | act {w : World} {call call' : Call} {s' : AllocationStore} (hCalm : call.Calm) (hCalm' : call'.Calm)
      (hNext : call.Follows w.store call') (h : Act env call w.store call' s') : Move env w call ⟨s', w.guards⟩ call'
  | lock {w : World} {job : Job} {caps : Caps} {kind : CounterKind} {c : Counter}
      (hCounter : kind.counter job.userKey = some c) :
      Move env w (.admission job caps kind .entry) ⟨w.store.entry c, c.guard + w.guards⟩ (.admission job caps kind .add)
  | refuse {w : World} {job : Job} {caps : Caps} {kind : CounterKind} {c : Counter}
      (hCounter : kind.counter job.userKey = some c) :
      Move env w (.admission job caps kind .add) ⟨w.store.add c 1, w.guards⟩ (.admission job caps kind .undo)
  | charge {w : World} {job : Job} {caps : Caps} {kind : CounterKind} {c : Counter} {call' : Call}
      (hCounter : kind.counter job.userKey = some c)
      (hRoom : 0 < Call.cap w.store caps c → w.store.count c < Call.cap w.store caps c) (hCalm' : call'.Calm)
      (hNext : (Call.admission job caps kind .add).Follows w.store call')
      (hOwed : call'.owed = c.release :: (Call.admission job caps kind .add).owed) :
      Move env w (.admission job caps kind .add) ⟨w.store.add c 1, w.guards - c.guard⟩ call'
  | undo {w : World} {job : Job} {caps : Caps} {kind : CounterKind} {c : Counter} {call' : Call}
      (hCounter : kind.counter job.userKey = some c) (hCalm' : call'.Calm)
      (hNext : (Call.admission job caps kind .undo).Follows w.store call')
      (hOwed : (Call.admission job caps kind .undo).owed = c.release :: call'.owed) :
      Move env w (.admission job caps kind .undo) ⟨w.store.add c (-1), w.guards - c.guard⟩ call'
  | prune {w : World} (key : UserKey) (hFree : Counter.user key ∉ w.guards) :
      Move env w .pruneCounts { w with store := { w.store with
        userCounts :=
          if 0 < w.store.userCount key then w.store.userCounts else w.store.userCounts.remove key } } .pruneCounts

theorem Call.owed_of_carries {call : Call} {a : Allocation} (h : call.carries = some a) : call.owed = carried a := by
  cases call with
  | reKeyClaim | reKeyBack => cases h; rfl
  | _ => cases h

section Inversion

variable {env : Env} {w w' : World} {call' : Call}

theorem quiet_mintId (s : AllocationStore) : Quiet s s.mintId.2 := by
  constructor
  · constructor <;> rfl
  all_goals rfl

theorem quiet_restoredId (s : AllocationStore) (allocationId : String) : Quiet s (s.restoredId allocationId).2 := by
  rw [restoredId]
  split
  · exact quiet_mintId s
  · exact .refl s

variable {call : Call}

theorem move_reserveFor (job : Job) (hCalm : call.Calm) (hOwed : call.owed = job.onFail)
    (hJob : call.job? = some job ∨ job.Backed) : Move env w call w (Call.reserveFor w.store job) := by
  rw [Call.reserveFor]
  split
  · exact .act hCalm ⟨rfl, rfl⟩ (.of_none rfl) (.quiet (.refl _) hOwed.symm)
  refine .act hCalm ⟨rfl, rfl⟩ ⟨fun _ => rfl, fun job' h => ?_⟩ (.quiet (.refl _) hOwed.symm)
  cases h
  exact hJob

theorem owed_charged {job : Job} {caps : Caps} {kind : CounterKind} {c : Counter}
    (h : kind.counter job.userKey = some c) :
    (Call.charged job caps kind).owed = c.release :: (Call.admission job caps kind .add).owed := by
  cases kind with
  | user =>
    cases h
    rw [Call.charged]
    cases hTenant : job.userKey.2.1 with
    | none => simp [Call.owed, Call.probe, Call.kept, CounterKind.reservation, CounterReservation.drop, hTenant, Counter.release]
    | some t => simp [Call.owed, Call.probe, Call.kept, CounterKind.reservation, CounterReservation.drop, Counter.release]
  | tenant =>
    obtain ⟨t, hTenant, rfl⟩ := Option.map_eq_some_iff.mp h
    simp [Call.charged, Call.owed, Call.probe, Call.kept, CounterKind.reservation, CounterReservation.drop, hTenant, Counter.release]
  | global =>
    cases h
    rfl

theorem calm_charged (job : Job) (caps : Caps) (kind : CounterKind) : (Call.charged job caps kind).Calm := by
  cases kind with
  | user =>
    rw [Call.charged]
    split <;> exact ⟨rfl, rfl⟩
  | tenant | global => exact ⟨rfl, rfl⟩

theorem follows_charged (s : AllocationStore) (job : Job) (caps : Caps) (kind : CounterKind) :
    (Call.admission job caps kind .add).Follows s (Call.charged job caps kind) := by
  cases kind with
  | user =>
    rw [Call.charged]
    split <;> exact ⟨fun h => h, fun _ h => .inl h⟩
  | tenant => exact ⟨fun h => h, fun _ h => .inl h⟩
  | global => exact ⟨fun _ => trivial, fun _ h => .inl h⟩

theorem move_reserveCounter {job : Job} {caps : Caps} {kind : CounterKind} {c : Counter} {stage : Stage}
    (hCounter : kind.counter job.userKey = some c)
    (h : Call.reserveCounter w job caps kind c stage = some (w', call')) :
    Move env w (.admission job caps kind stage) w' call' := by
  cases stage with
  | entry =>
    rw [Call.reserveCounter] at h
    split at h
    · cases h
    · cases h
      exact .lock hCounter
  | add =>
    rw [Call.reserveCounter] at h
    split at h
    · cases h
      exact .refuse hCounter
    next hRoom =>
    cases h
    refine .charge hCounter (fun hPos => ?_) (calm_charged job caps kind) (follows_charged ..) (owed_charged hCounter)
    by_contra hFull
    exact hRoom ⟨hPos, Int.not_lt.mp hFull⟩
  | undo =>
    cases h
    refine .undo hCounter ⟨rfl, rfl⟩ (.of_none rfl) ?_
    simp [Call.owed, Call.probe, Call.kept, hCounter]

theorem move_execStmt {stmt : Stmt} (hCalm : call.Calm) (hCalm' : call'.Calm)
    (hNext : call.Follows w.store call') (hOwed : call.owed = stmt :: call'.owed) (h : Call.execStmt w stmt = some w') :
    Move env w call w' call' := by
  rw [Call.execStmt] at h
  split at h
  · cases h
  · cases h
    exact .act hCalm hCalm' hNext (.exec hOwed)

theorem quiet_relink (s : AllocationStore) (order : IterOrder) (oldAddr newAddr : SocketAddr) (a : Allocation) :
    Quiet { s with
      allocations := s.allocations.insert newAddr
        { a with clientAddr := newAddr, migrationEpoch := a.migrationEpoch + 1 } }
      (s.relink order oldAddr newAddr a) := by
  constructor
  · constructor <;> rfl
  all_goals rfl

theorem Move.plain {s' : AllocationStore} (h : Act env call w.store call' s') (hCalm : call.Calm := by exact ⟨rfl, rfl⟩)
    (hCalm' : call'.Calm := by exact ⟨rfl, rfl⟩) (hDone : call'.job? = none := by rfl) :
    Move env w call ⟨s', w.guards⟩ call' :=
  .act hCalm hCalm' (.of_none hDone) h

theorem Move.still (hOwed : call'.owed = call.owed := by rfl) (hCalm : call.Calm := by exact ⟨rfl, rfl⟩)
    (hCalm' : call'.Calm := by exact ⟨rfl, rfl⟩) (hDone : call'.job? = none := by rfl) : Move env w call w call' :=
  .act hCalm hCalm' (.of_none hDone) (.quiet (.refl _) hOwed)

theorem move_removeWith {missing : Call} {c : SocketAddr} {script : Allocation → List Stmt}
    {expired : Option (List (SocketAddr × SocketAddr))}
    (h : some (Call.removeWith w c script expired missing) = some (w', call')) (hCalm : call.Calm)
    (hMissing : missing.Calm) (hDone : missing.job? = none) (hNone : call.owed = []) (hMissed : missing.owed = [])
    (hAct : ∀ a, w.store.allocations.get c = some a → ∀ call' : Call, call'.owed = script a →
      Act env call w.store call' { w.store with allocations := w.store.allocations.remove c }) :
    Move env w call w' call' := by
  have hNext := Option.some.inj h
  rw [Call.removeWith] at hNext
  split at hNext
  · cases hNext
    exact .act hCalm hMissing (.of_none hDone) (.quiet (.refl _) (hMissed.trans hNone.symm))
  next a hGet =>
  cases hNext
  exact .act hCalm ⟨rfl, rfl⟩ (.of_none rfl) (hAct a hGet _ rfl)

theorem next_move (h : call.next env w = some (w', call')) : Move env w call w' call' := by
  cases call with
  | create req onFail =>
    cases h
    exact move_reserveFor (.create req onFail) ⟨rfl, rfl⟩ rfl (.inl rfl)
  | allocate req =>
    rw [Call.next] at h
    split at h
    · next e hPort =>
      cases h
      exact .plain (.exhausted hPort)
    next port hPort =>
    cases h
    refine .act ⟨rfl, rfl⟩ ⟨rfl, rfl⟩ ⟨fun _ => trivial, fun job h => .inr ?_⟩ (.draw hPort)
    cases h
    simp [Job.Backed, AllocateRequest.create]
  | rehydrate row =>
    rw [Call.next] at h
    split at h
    · cases h
      exact .still
    · cases h
      exact move_reserveFor (.rehydrate row _) ⟨rfl, rfl⟩ rfl (.inr trivial)
  | admission job caps kind stage =>
    obtain ⟨c, hCounter, hNext⟩ := Option.bind_eq_some_iff.mp h
    exact move_reserveCounter hCounter hNext
  | reserved job =>
    cases job with
    | create req onFail =>
      cases h
      exact .act ⟨rfl, rfl⟩ ⟨rfl, rfl⟩ ⟨fun _ => trivial, fun _ h => .inl h⟩ (.quiet (quiet_mintId _) rfl)
    | rehydrate row tenantId =>
      rw [Call.next] at h
      split at h
      · cases h
        refine .plain (.quiet (.refl _) ?_)
        exact (List.append_nil _).symm
      next u pool hPort =>
      cases h
      exact .act ⟨rfl, rfl⟩ ⟨rfl, rfl⟩ ⟨fun _ => trivial, fun _ h => .inl h⟩ (.reserve (by rw [hPort]; rfl))
  | portReserved row tenantId =>
    cases h
    exact .act ⟨rfl, rfl⟩ ⟨rfl, rfl⟩ ⟨fun _ => trivial, fun _ h => .inl h⟩ (.quiet (quiet_restoredId _ _) rfl)
  | claim job allocationId =>
    rw [Call.next] at h
    split at h
    · cases h
      exact .still
    next hVacant =>
    cases h
    cases job <;> exact .plain (.publish hVacant)
  | rollback todo =>
    cases todo with
    | nil =>
      cases h
      exact .still
    | cons stmt todo =>
      obtain ⟨w₁, hExec, hNext⟩ := Option.map_eq_some_iff.mp h
      cases hNext
      exact move_execStmt ⟨rfl, rfl⟩ ⟨rfl, rfl⟩ (.of_none rfl) rfl hExec
  | send op =>
    cases h
    exact .plain (@Act.exec env (.send op) .done w.store (.emitWrite op) rfl)
  | remove c r | removeExpired c r expired =>
    refine move_removeWith h ⟨rfl, rfl⟩ ⟨rfl, rfl⟩ rfl rfl rfl (fun a hGet call' hOwed => ?_)
    exact .takeOut rfl hGet (hOwed ▸ removeScript_isTeardown ..)
  | forceRemove c =>
    refine move_removeWith h ⟨rfl, rfl⟩ ⟨rfl, rfl⟩ rfl rfl rfl (fun a hGet call' hOwed => ?_)
    exact .force hGet (hOwed ▸ forceRemoveScript_isTeardown ..)
  | refresh c lifetime =>
    rw [Call.next] at h
    split at h
    · cases h
      exact .still
    next a hGet =>
    split at h
    · cases h
      exact .still
    cases h
    exact .plain (.edit hGet ⟨rfl, rfl, rfl, rfl, rfl⟩ rfl (List.map_singleton ..).symm (by simp [WriteOp.terminal]))
  | teardown todo expired =>
    cases todo with
    | nil =>
      cases expired <;> cases h <;> exact .still
    | cons stmt todo =>
      obtain ⟨w₁, hExec, hNext⟩ := Option.map_eq_some_iff.mp h
      cases hNext
      exact move_execStmt ⟨rfl, rfl⟩ ⟨rfl, rfl⟩ (.of_none rfl) rfl hExec
  | reKey oldAddr newAddr =>
    rw [Call.next] at h
    split at h
    · cases h
      exact .still
    split at h
    · cases h
      exact .still
    next a hGet =>
    cases h
    exact .plain (.lift hGet)
  | reKeyClaim oldAddr newAddr a =>
    rw [Call.next] at h
    split at h
    · next hVacant =>
      cases h
      refine .plain (.land hVacant ?_ rfl (quiet_relink ..) (List.map_singleton ..).symm)
      exact ⟨rfl, rfl, rfl, rfl, rfl⟩
    · cases h
      exact .still
  | reKeyBack oldAddr a =>
    rw [Call.next] at h
    split at h
    · next hVacant =>
      cases h
      exact .plain (.land hVacant ⟨rfl, rfl, rfl, rfl, rfl⟩ rfl (.refl _) List.map_nil.symm)
    · cases h
      exact .plain (.lost (migrationLostScript_isTeardown ..))
  | cleanup maxOps =>
    cases h
    exact .still
  | sweepPools maxOps ids =>
    cases ids with
    | nil =>
      cases h
      exact .still
    | cons id ids =>
      cases h
      exact .plain (.sweep id env.clock.now rfl rfl)
  | scan maxOps seen found =>
    rw [Call.next] at h
    split at h
    · cases h
      exact .still
    split at h
    · cases h
    split at h
    · cases h
    · cases h
      exact .still
  | pruneEntries toClean expired =>
    cases toClean with
    | nil =>
      cases h
      exact .still
    | cons client toClean =>
      cases h
      rw [pruneEntries]
      split
      · exact .still
      next a hGet =>
      exact .plain (.edit hGet ⟨rfl, rfl, rfl, rfl, rfl⟩ rfl List.map_nil.symm (List.forall_mem_nil _))
  | recheck expired =>
    cases expired with
    | nil =>
      cases h
      exact .still
    | cons e expired =>
      rw [Call.next] at h
      split at h <;> cases h <;> exact .still
  | pruneLists =>
    rw [Call.next] at h
    split at h
    · cases h
      exact .still
    cases h
    refine .plain (.quiet ?_ rfl)
    constructor
    · constructor <;> rfl
    all_goals rfl
  | pruneCounts =>
    rw [Call.next] at h
    split at h
    · cases h
      exact .still
    next key hKey =>
    split at h
    · cases h
    next hFree =>
    cases h
    exact .prune key hFree
  | done => cases h

end Inversion

end Turna.Session
