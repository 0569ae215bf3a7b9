import Turna.Session.PortAllocator

/-! # The allocation store: state, pools, counters and teardown statements

Counters are integers, so that an underflow would show. A `Stmt` is one statement of a teardown or
a rollback that touches shared state; the functions of the store run lists of them.
-/

namespace Turna.Session
open Lib Net

def permissionLifetime : Nat := secs 300

def channelLifetime : Nat := secs 600

def maxPermissionsPerAllocation : Nat := 256

def maxChannelsPerAllocation : Nat := 256

/-- Realm, tenant and username: the key of per-user accounting. -/
abbrev UserKey := String × Option String × String

inductive TransportProto where
  | udp
  | tcp
  deriving DecidableEq, Repr

structure Permission where
  expiresAt : Nat
  deriving DecidableEq, Repr

def Permission.new (now : Nat) : Permission := ⟨now + permissionLifetime⟩

def Permission.isExpired (now : Nat) (p : Permission) : Bool := p.expiresAt < now

structure ChannelBinding where
  peerAddr : SocketAddr
  expiresAt : Nat
  deriving DecidableEq, Repr

def ChannelBinding.new (now : Nat) (peerAddr : SocketAddr) : ChannelBinding :=
  ⟨peerAddr, now + channelLifetime⟩

def ChannelBinding.isExpired (now : Nat) (b : ChannelBinding) : Bool := b.expiresAt < now

structure Allocation where
  allocationId : String
  migrationEpoch : UInt64
  clientAddr : SocketAddr
  relayAddr : SocketAddr
  username : String
  key : List UInt8
  realm : String
  tenantId : Option String
  transport : TransportProto
  permissions : HashMap IpAddr Permission
  channelBindings : HashMap UInt16 ChannelBinding
  channelsReverse : HashMap SocketAddr UInt16
  expiresAt : Nat
  createdAt : Nat
  createdAtMs : Nat
  bytesRelayed : UInt64
  packetsRelayed : UInt64
  bytesToClient : UInt64
  packetsToClient : UInt64

structure AllocationUsage where
  bytesFromClient : UInt64
  packetsFromClient : UInt64
  bytesToClient : UInt64
  packetsToClient : UInt64
  deriving DecidableEq, Repr

def saturatingSub (a b : UInt64) : UInt64 := if a < b then 0 else a - b

def saturatingAdd (a b : UInt64) : UInt64 :=
  if a.toNat + b.toNat < 2 ^ 64 then a + b else 18446744073709551615

namespace Allocation

variable (alloc : Allocation)

def userKey : UserKey := (alloc.realm, alloc.tenantId, alloc.username)

def isExpired (now : Nat) : Bool := alloc.expiresAt < now

def usage : AllocationUsage where
  bytesFromClient := saturatingSub alloc.bytesRelayed alloc.bytesToClient
  packetsFromClient := saturatingSub alloc.packetsRelayed alloc.packetsToClient
  bytesToClient := alloc.bytesToClient
  packetsToClient := alloc.packetsToClient

/-- Drops expired permissions, and expired channel bindings with the reverse entry of their peer. -/
def cleanupExpiredEntries (order : IterOrder) (now : Nat) : Allocation :=
  let expired := order.visit (alloc.channelBindings.entries.filter (fun e => e.2.isExpired now))
  { alloc with
    permissions := alloc.permissions.retain (fun _ p => !p.isExpired now)
    channelBindings := expired.foldl (fun m e => m.remove e.1) alloc.channelBindings
    channelsReverse := expired.foldl (fun m e => m.remove e.2.peerAddr) alloc.channelsReverse }

/-- Binding also installs or refreshes the permission of the peer. -/
def bindChannel (now : Nat) (channel : UInt16) (peerAddr : SocketAddr) : Allocation :=
  match alloc.channelBindings.get channel with
  | some binding =>
    { alloc with
      permissions := alloc.permissions.insert peerAddr.ip (.new now)
      channelBindings := alloc.channelBindings.insert channel { binding with expiresAt := now + channelLifetime } }
  | none =>
    { alloc with
      permissions := alloc.permissions.insert peerAddr.ip (.new now)
      channelBindings := alloc.channelBindings.insert channel (.new now peerAddr)
      channelsReverse := alloc.channelsReverse.insert peerAddr channel }

def hasStaleEntries (now : Nat) : Bool :=
  alloc.permissions.entries.any (fun e => e.2.isExpired now) ||
    alloc.channelBindings.entries.any (fun e => e.2.isExpired now)

end Allocation

inductive UsageRecordKind where
  | interim
  | stop
  deriving DecidableEq, Repr

inductive UsageEndReason where
  | expired
  | released
  | adminDeleted
  | migrationLost
  deriving DecidableEq, Repr

structure UsageRecord where
  kind : UsageRecordKind
  endReason : Option UsageEndReason
  allocationId : String
  username : String
  realm : String
  tenant : Option String
  transport : String
  clientAddr : SocketAddr
  relayAddr : SocketAddr
  startMs : Nat
  eventMs : Nat
  usage : AllocationUsage
  bytesCounted : Bool
  deriving DecidableEq, Repr

def UsageRecord.fromAllocation (a : Allocation) (kind : UsageRecordKind) (endReason : Option UsageEndReason)
    (eventMs : Nat) : UsageRecord where
  kind := kind
  endReason := endReason
  allocationId := a.allocationId
  username := a.username
  realm := a.realm
  tenant := a.tenantId
  transport := match a.transport with
    | .udp => "udp"
    | .tcp => "tcp"
  clientAddr := a.clientAddr
  relayAddr := a.relayAddr
  startMs := a.createdAtMs
  eventMs := eventMs
  usage := a.usage
  bytesCounted := match a.transport with
    | .udp => true
    | .tcp => false

/-! ## Limits -/

inductive LimitMode where
  | inherit
  | value
  | unlimited
  | disabled
  deriving DecidableEq, Repr

/-- One overridable limit (`LimitU32` and `LimitU64`). -/
structure Limit where
  mode : LimitMode
  value : Nat
  deriving DecidableEq, Repr

structure UserLimitsOverride where
  maxAllocations : Option Limit
  maxBytesPerSecPerAllocation : Option Limit
  maxLifetimeSecs : Option Limit
  deriving DecidableEq, Repr

def UserLimitsOverride.default : UserLimitsOverride := ⟨none, none, none⟩

structure UserLimitsSnapshot where
  generation : Nat
  bootstrapMaxLifetimeSecs : Nat
  global : UserLimitsOverride
  tenants : HashMap (String × String) UserLimitsOverride
  users : HashMap (String × String × String) UserLimitsOverride

def UserLimitsSnapshot.empty : UserLimitsSnapshot := ⟨0, 0, .default, .empty, .empty⟩

structure RuntimeLimits where
  version : Nat
  maxBytesPerSecPerAllocation : Nat
  maxPerUser : Nat
  maxAllocations : Nat
  deriving DecidableEq, Repr

structure BandwidthQuota where
  maxBytesPerSecPerAllocation : Nat
  maxPerUser : Nat
  deriving DecidableEq, Repr

def BandwidthQuota.default : BandwidthQuota := ⟨0, 100⟩

structure EffectiveUserLimits where
  maxAllocations : Nat
  allocationsDisabled : Bool
  maxBytesPerSecPerAllocation : Nat
  bandwidthDisabled : Bool
  maxLifetimeSecs : Nat
  lifetimeDisabled : Bool
  inheritedFields : List String
  cappedFields : List String
  deriving DecidableEq, Repr

structure Resolved where
  effective : Nat
  inherited : Bool
  disabled : Bool
  capped : Bool
  deriving DecidableEq, Repr

/-- The first candidate that decides. A positive fallback is a hard ceiling. -/
def resolve (fallback : Nat) : List (Option Limit) → Resolved
  | [] => ⟨fallback, true, false, false⟩
  | none :: candidates => resolve fallback candidates
  | some candidate :: candidates =>
    match candidate.mode with
    | .inherit => resolve fallback candidates
    | .disabled => ⟨0, false, true, false⟩
    | .value =>
      if fallback > 0 ∧ candidate.value > fallback then ⟨fallback, false, false, true⟩
      else ⟨candidate.value, false, false, false⟩
    | .unlimited =>
      if fallback > 0 then ⟨fallback, false, false, true⟩ else ⟨0, false, false, false⟩

def fieldNames (alloc bandwidth lifetime : Bool) : List String :=
  (if alloc then ["max_allocations"] else []) ++
    (if bandwidth then ["max_bytes_per_sec_per_allocation"] else []) ++
    (if lifetime then ["max_lifetime_secs"] else [])

def effectiveUserLimits (runtime : RuntimeLimits) (limits : UserLimitsSnapshot)
    (bootstrapTenant : Option BandwidthQuota) (realm : String) (tenantId : Option String)
    (username : String) : EffectiveUserLimits :=
  let tenant := tenantId.getD ""
  let user := limits.users.get (realm, tenant, username)
  let tenantOverride := limits.tenants.get (realm, tenant)
  let candidates (field : UserLimitsOverride → Option Limit) :=
    [user.bind field, tenantOverride.bind field, field limits.global]
  let alloc := resolve
    (((bootstrapTenant.map BandwidthQuota.maxPerUser).filter (0 < ·)).getD runtime.maxPerUser)
    (candidates UserLimitsOverride.maxAllocations)
  let bandwidth := resolve
    (((bootstrapTenant.map BandwidthQuota.maxBytesPerSecPerAllocation).filter (0 < ·)).getD
      runtime.maxBytesPerSecPerAllocation)
    (candidates UserLimitsOverride.maxBytesPerSecPerAllocation)
  let lifetime := resolve limits.bootstrapMaxLifetimeSecs (candidates UserLimitsOverride.maxLifetimeSecs)
  { maxAllocations := alloc.effective
    allocationsDisabled := alloc.disabled
    maxBytesPerSecPerAllocation := bandwidth.effective
    bandwidthDisabled := bandwidth.disabled
    maxLifetimeSecs := lifetime.effective
    lifetimeDisabled := lifetime.disabled
    inheritedFields := fieldNames alloc.inherited bandwidth.inherited lifetime.inherited
    cappedFields := fieldNames alloc.capped bandwidth.capped lifetime.capped }

/-! ## Durable writes -/

inductive WriteOp where
  | create (relayPort : UInt16) (clientAddr relayAddr : SocketAddr) (username realm : String)
      (createdAtMs expiresAtMs : Nat) (allocationId : String) (migrationEpoch : UInt64)
  | refresh (relayPort : UInt16) (expiresAtMs : Nat)
  | remove (relayPort : UInt16)
  | reKey (relayPort : UInt16) (newClientAddr : SocketAddr) (newEpoch : UInt64)
  | permission (relayPort : UInt16) (peerIp : IpAddr) (expiresAtMs : Nat)
  | channel (relayPort number : UInt16) (peerAddr : SocketAddr) (expiresAtMs : Nat)
  | barrier (generation : Nat)
  deriving DecidableEq, Repr

/-- The port that owns an event. A barrier owns none; the writer intercepts it before batching. -/
def WriteOp.relayPort : WriteOp → UInt16
  | .create relayPort .. => relayPort
  | .refresh relayPort _ => relayPort
  | .remove relayPort => relayPort
  | .reKey relayPort .. => relayPort
  | .permission relayPort .. => relayPort
  | .channel relayPort .. => relayPort
  | .barrier _ => 0

inductive Terminal where
  | create
  | remove
  deriving DecidableEq, Repr

def WriteOp.terminal : WriteOp → Option Terminal
  | .create .. => some .create
  | .remove _ => some .remove
  | _ => none

def portOps (port : UInt16) (ops : List WriteOp) : List WriteOp :=
  ops.filter (fun op => op.relayPort = port)

def terminals (port : UInt16) (ops : List WriteOp) : List Terminal :=
  (portOps port ops).filterMap WriteOp.terminal

theorem portOps_append (port : UInt16) (ops ops' : List WriteOp) :
    portOps port (ops ++ ops') = portOps port ops ++ portOps port ops' :=
  List.filter_append ..

/-! ## State -/

/-- A bounded channel: everything accepted so far, in order, and how much the receiver took. -/
structure Channel (α : Type) where
  capacity : Nat
  sent : List α
  received : Nat
  closed : Bool

inductive SendResult where
  | ok
  | full
  | closed
  deriving DecidableEq, Repr

def Channel.trySend {α : Type} (ch : Channel α) (a : α) : SendResult × Channel α :=
  if ch.closed then (.closed, ch)
  else if ch.capacity ≤ ch.sent.length - ch.received then (.full, ch)
  else (.ok, { ch with sent := ch.sent ++ [a] })

structure TenantPool where
  id : String
  ports : PortAllocator
  maxAllocations : Nat
  quota : BandwidthQuota

structure TenantTraffic where
  bytes : UInt64
  packets : UInt64
  closedAllocations : UInt64
  deriving DecidableEq, Repr

structure AllocationStore where
  allocations : HashMap SocketAddr Allocation
  relayToClient : HashMap SocketAddr SocketAddr
  channelToClient : HashMap (UInt16 × UInt16) SocketAddr
  idToClient : HashMap String SocketAddr
  nextId : UInt64
  userAllocations : HashMap UserKey (List SocketAddr)
  globalCount : Int
  tenantCounts : HashMap String Int
  userCounts : HashMap UserKey Int
  ports : PortAllocator
  tenantPools : List TenantPool
  runtime : RuntimeLimits
  userLimits : UserLimitsSnapshot
  writeTx : Option (Channel WriteOp)
  droppedWrites : UInt64
  tenantTraffic : HashMap String TenantTraffic
  usageTx : Option (Channel UsageRecord)
  usageDropped : UInt64

inductive Stmt where
  | releaseGlobal
  | releaseTenant (tenantId : String)
  | releaseUser (key : UserKey)
  | accrueTenantTraffic (alloc : Allocation)
  | emitUsageStop (alloc : Allocation) (reason : UsageEndReason) (epochMs : Nat)
  | unlinkChannel (port channel : UInt16)
  | unlinkRelay (relayAddr : SocketAddr)
  | unlinkId (allocationId : String)
  | unlinkUser (key : UserKey) (clientAddr : SocketAddr)
  | releasePort (port : UInt16)
  | emitWrite (op : WriteOp)

namespace AllocationStore

def new (minPort maxPort : UInt16) (random : UInt32) (maxAllocations : Nat) : AllocationStore where
  allocations := .empty
  relayToClient := .empty
  channelToClient := .empty
  idToClient := .empty
  nextId := 1
  userAllocations := .empty
  globalCount := 0
  tenantCounts := .empty
  userCounts := .empty
  ports := .new minPort maxPort random
  tenantPools := []
  runtime :=
    { version := 0
      maxBytesPerSecPerAllocation := BandwidthQuota.default.maxBytesPerSecPerAllocation
      maxPerUser := BandwidthQuota.default.maxPerUser
      maxAllocations }
  userLimits := .empty
  writeTx := none
  droppedWrites := 0
  tenantTraffic := .empty
  usageTx := none
  usageDropped := 0

variable (s : AllocationStore)

def withTenantPool (id : String) (minPort maxPort : UInt16) (random : UInt32) (maxAllocations : Nat)
    (quota : BandwidthQuota) : AllocationStore :=
  { s with tenantPools := s.tenantPools ++ [⟨id, .new minPort maxPort random, maxAllocations, quota⟩] }

def attachWriter (tx : Channel WriteOp) : AllocationStore :=
  { s with writeTx := some (s.writeTx.getD tx) }

/-! ## Port pools

A pool is named by its position in `tenantPools`; `none` is the base pool.
-/

abbrev PoolId := Option Nat

def poolAt : PoolId → PortAllocator
  | none => s.ports
  | some i => ((s.tenantPools[i]?).map TenantPool.ports).getD s.ports

def updatePool (f : PortAllocator → PortAllocator) : PoolId → AllocationStore
  | none => { s with ports := f s.ports }
  | some i => { s with tenantPools := s.tenantPools.modify i (fun p => { p with ports := f p.ports }) }

/-- The pool a tenant allocates from. An unknown tenant uses the base pool. -/
def poolId : Option String → PoolId
  | some id => s.tenantPools.findIdx? (fun p => p.id == id)
  | none => none

/-- The pool a port goes back to: the first tenant range that holds it, or the base pool. -/
def poolIdForPort (port : UInt16) : PoolId := s.tenantPools.findIdx? (fun p => p.ports.contains port)

def pool (tenantId : Option String) : PortAllocator := s.poolAt (s.poolId tenantId)

def poolForPort (port : UInt16) : PortAllocator := s.poolAt (s.poolIdForPort port)

def tenantIdForPort (port : UInt16) : Option String :=
  (s.tenantPools.find? (fun p => p.ports.contains port)).map TenantPool.id

def tenantMaxAllocations (tenantId : String) : Nat :=
  ((s.tenantPools.find? (fun p => p.id == tenantId)).map TenantPool.maxAllocations).getD 0

def tenantQuota (tenantId : Option String) : Option BandwidthQuota :=
  tenantId.bind fun id => (s.tenantPools.find? (fun p => p.id == id)).map TenantPool.quota

def effectiveUserLimits (realm : String) (tenantId : Option String) (username : String) : EffectiveUserLimits :=
  Session.effectiveUserLimits s.runtime s.userLimits (s.tenantQuota tenantId) realm tenantId username

/-! ## Events -/

def emitWrite (op : WriteOp) : AllocationStore :=
  match s.writeTx with
  | none => s
  | some tx =>
    match tx.trySend op with
    | (.ok, tx) => { s with writeTx := some tx }
    | (.full, _) => { s with droppedWrites := s.droppedWrites + 1 }
    | (.closed, _) => s

def emitUsageStop (alloc : Allocation) (reason : UsageEndReason) (epochMs : Nat) : AllocationStore :=
  match s.usageTx with
  | none => s
  | some tx =>
    match tx.trySend (.fromAllocation alloc .stop (some reason) epochMs) with
    | (.ok, tx) => { s with usageTx := some tx }
    | (_, _) => { s with usageDropped := s.usageDropped + 1 }

def accrueTenantTraffic (alloc : Allocation) : AllocationStore :=
  match alloc.tenantId with
  | none => s
  | some tenant =>
    let e := (s.tenantTraffic.get tenant).getD ⟨0, 0, 0⟩
    { s with
      tenantTraffic := s.tenantTraffic.insert tenant
        ⟨saturatingAdd e.bytes alloc.bytesRelayed, saturatingAdd e.packets alloc.packetsRelayed,
          saturatingAdd e.closedAllocations 1⟩ }

def mintId : String × AllocationStore :=
  (String.ofList (Text.padded 16 16 s.nextId.toNat), { s with nextId := s.nextId + 1 })

/-! ## Counters -/

def userCount (key : UserKey) : Int := (s.userCounts.get key).getD 0

def tenantCount (tenantId : String) : Int := (s.tenantCounts.get tenantId).getD 0

def addGlobal (n : Int) : AllocationStore := { s with globalCount := s.globalCount + n }

def tenantEntry (tenantId : String) : AllocationStore :=
  { s with tenantCounts := s.tenantCounts.orInsert tenantId 0 }

def addTenant (tenantId : String) (n : Int) : AllocationStore :=
  { s with tenantCounts := s.tenantCounts.modify tenantId (· + n) }

def userEntry (key : UserKey) : AllocationStore := { s with userCounts := s.userCounts.orInsert key 0 }

def addUser (key : UserKey) (n : Int) : AllocationStore :=
  { s with userCounts := s.userCounts.modify key (· + n) }

end AllocationStore

open AllocationStore in
def Stmt.exec (s : AllocationStore) : Stmt → AllocationStore
  | .releaseGlobal => s.addGlobal (-1)
  | .releaseTenant tenantId => s.addTenant tenantId (-1)
  | .releaseUser key => s.addUser key (-1)
  | .accrueTenantTraffic alloc => s.accrueTenantTraffic alloc
  | .emitUsageStop alloc reason epochMs => s.emitUsageStop alloc reason epochMs
  | .unlinkChannel port channel => { s with channelToClient := s.channelToClient.remove (port, channel) }
  | .unlinkRelay relayAddr => { s with relayToClient := s.relayToClient.remove relayAddr }
  | .unlinkId allocationId => { s with idToClient := s.idToClient.remove allocationId }
  | .unlinkUser key clientAddr =>
    { s with userAllocations := s.userAllocations.modify key (fun addrs => addrs.filter (· ≠ clientAddr)) }
  | .releasePort port => s.updatePool (fun pool => pool.release port) (s.poolIdForPort port)
  | .emitWrite op => s.emitWrite op

def AllocationStore.runScript (s : AllocationStore) (script : List Stmt) : AllocationStore :=
  script.foldl Stmt.exec s

/-! ## Scripts -/

def releaseCounters (realm : String) (tenantId : Option String) (username : String) : List Stmt :=
  .releaseGlobal :: (tenantId.toList.map Stmt.releaseTenant) ++ [.releaseUser (realm, tenantId, username)]

def onAllocationClosed (alloc : Allocation) (reason : UsageEndReason) (epochMs : Nat) : List Stmt :=
  [.accrueTenantTraffic alloc, .emitUsageStop alloc reason epochMs]

/-- The counters a `CounterReservation` gives back when it is dropped uncommitted. -/
structure CounterReservation where
  userKey : UserKey
  tenantId : Option String
  userReserved : Bool
  tenantReserved : Bool
  globalReserved : Bool

def CounterReservation.drop (r : CounterReservation) : List Stmt :=
  (if r.globalReserved then [.releaseGlobal] else []) ++
    (if r.tenantReserved then r.tenantId.toList.map Stmt.releaseTenant else []) ++
    (if r.userReserved then [.releaseUser r.userKey] else [])

def fullReservation (key : UserKey) : CounterReservation := ⟨key, key.2.1, true, key.2.1.isSome, true⟩

/-- What `remove` does once the allocation is out of the map. The relay address is the caller's. -/
def removeScript (order : IterOrder) (epochMs now : Nat) (clientAddr relayAddr : SocketAddr)
    (alloc : Allocation) : List Stmt :=
  releaseCounters alloc.realm alloc.tenantId alloc.username ++
    onAllocationClosed alloc (if alloc.isExpired now then .expired else .released) epochMs ++
    (order.visit alloc.channelBindings.keys).map (Stmt.unlinkChannel relayAddr.port) ++
    [.unlinkRelay relayAddr, .unlinkId alloc.allocationId, .releasePort relayAddr.port,
      .unlinkUser alloc.userKey clientAddr, .emitWrite (.remove relayAddr.port)]

/-- What `force_remove` does once the allocation is out of the map. -/
def forceRemoveScript (order : IterOrder) (epochMs : Nat) (clientAddr : SocketAddr) (alloc : Allocation) :
    List Stmt :=
  releaseCounters alloc.realm alloc.tenantId alloc.username ++
    onAllocationClosed alloc .adminDeleted epochMs ++
    [.unlinkRelay alloc.relayAddr, .unlinkId alloc.allocationId] ++
    (order.visit alloc.channelBindings.keys).map (Stmt.unlinkChannel alloc.relayAddr.port) ++
    [.releasePort alloc.relayAddr.port, .unlinkUser alloc.userKey clientAddr,
      .emitWrite (.remove alloc.relayAddr.port)]

/-- What `re_key` does with an allocation that lost both its keys. -/
def migrationLostScript (order : IterOrder) (epochMs : Nat) (oldAddr : SocketAddr) (alloc : Allocation) :
    List Stmt :=
  releaseCounters alloc.realm alloc.tenantId alloc.username ++
    onAllocationClosed alloc .migrationLost epochMs ++
    (order.visit alloc.channelBindings.keys).map (Stmt.unlinkChannel alloc.relayAddr.port) ++
    [.unlinkRelay alloc.relayAddr, .unlinkId alloc.allocationId, .unlinkUser alloc.userKey oldAddr,
      .releasePort alloc.relayAddr.port, .emitWrite (.remove alloc.relayAddr.port)]

end Turna.Session
