import Mathlib.Data.List.Induction
import Turna.Lib.Trace
import Turna.Session.Store

/-! # Runs of the store

The operations of the store as data, so that a run is a list of them. Between two operations the
pools may be used on their own and the limits may be replaced.
-/

namespace Turna.Session
open Lib Net AllocationStore

structure Clock where
  now : Nat
  epochMs : Nat

def millis (n : Nat) : Nat := n * 1000000

structure CreateRequest where
  clientAddr : SocketAddr
  relayAddr : SocketAddr
  username : String
  key : List UInt8
  lifetime : UInt32
  realm : String
  tenantId : Option String

def CreateRequest.userKey (req : CreateRequest) : UserKey := (req.realm, req.tenantId, req.username)

def CreateRequest.allocation (req : CreateRequest) (clock : Clock) (allocationId : String) : Allocation where
  allocationId := allocationId
  migrationEpoch := 0
  clientAddr := req.clientAddr
  relayAddr := req.relayAddr
  username := req.username
  key := req.key
  realm := req.realm
  tenantId := req.tenantId
  transport := .udp
  permissions := .empty
  channelBindings := .empty
  channelsReverse := .empty
  expiresAt := clock.now + secs req.lifetime.toNat
  createdAt := clock.now
  createdAtMs := clock.epochMs
  bytesRelayed := 0
  packetsRelayed := 0
  bytesToClient := 0
  packetsToClient := 0

def CreateRequest.writeOp (req : CreateRequest) (clock : Clock) (allocationId : String) : WriteOp :=
  .create req.relayAddr.port req.clientAddr req.relayAddr req.username req.realm clock.epochMs
    (clock.epochMs + req.lifetime.toNat * 1000) allocationId 0

structure RehydrateRow where
  clientAddr : SocketAddr
  relayAddr : SocketAddr
  username : String
  realm : String
  allocationId : String
  migrationEpoch : UInt64
  createdAtMs : Nat
  expiresAtMs : Nat
  permissions : List (IpAddr × Nat)
  channels : List (UInt16 × SocketAddr × Nat)

namespace RehydrateRow

variable (row : RehydrateRow) (clock : Clock)

def permissionMap : HashMap IpAddr Permission :=
  row.permissions.foldl (fun m p =>
    if p.2 ≤ clock.epochMs then m else m.insert p.1 ⟨clock.now + millis (p.2 - clock.epochMs)⟩) .empty

def channelMap : HashMap UInt16 ChannelBinding :=
  row.channels.foldl (fun m c =>
    if c.2.2 ≤ clock.epochMs then m
    else m.insert c.1 ⟨c.2.1, clock.now + millis (c.2.2 - clock.epochMs)⟩) .empty

def channelReverseMap : HashMap SocketAddr UInt16 :=
  row.channels.foldl (fun m c => if c.2.2 ≤ clock.epochMs then m else m.insert c.2.1 c.1) .empty

def allocation (allocationId : String) (tenantId : Option String) : Allocation where
  allocationId := allocationId
  migrationEpoch := row.migrationEpoch
  clientAddr := row.clientAddr
  relayAddr := row.relayAddr
  username := row.username
  key := []
  realm := row.realm
  tenantId := tenantId
  transport := .udp
  permissions := row.permissionMap clock
  channelBindings := row.channelMap clock
  channelsReverse := row.channelReverseMap clock
  expiresAt := clock.now + millis (row.expiresAtMs - clock.epochMs)
  createdAt :=
    let age := millis (clock.epochMs - row.createdAtMs)
    if age ≤ clock.now then clock.now - age else clock.now
  createdAtMs := if row.createdAtMs = 0 then clock.epochMs else row.createdAtMs
  bytesRelayed := 0
  packetsRelayed := 0
  bytesToClient := 0
  packetsToClient := 0

end RehydrateRow

structure SweepClock where
  reservations : Nat
  classify : SocketAddr → Nat
  prune : SocketAddr → Nat
  recheck : SocketAddr → Nat
  remove : SocketAddr → Clock

namespace AllocationStore

variable (s : AllocationStore) (order : IterOrder) (clock : Clock)

def get (clientAddr : SocketAddr) : Option Allocation := s.allocations.get clientAddr

def getByRelay (relayAddr : SocketAddr) : Option SocketAddr := s.relayToClient.get relayAddr

def getByChannel (relayPort channel : UInt16) : Option SocketAddr :=
  s.channelToClient.get (relayPort, channel)

def getById (allocationId : String) : Option SocketAddr := s.idToClient.get allocationId

def liveRelayPorts : List UInt16 := (order.visit s.allocations.entries).map (fun e => e.2.relayAddr.port)

def reserveGlobal (key : UserKey) (maxGlobal : Nat) : Except SessionError Unit × AllocationStore :=
  let old := s.globalCount
  let s := s.addGlobal 1
  if maxGlobal > 0 ∧ (maxGlobal : Int) ≤ old then
    (.error .maxAllocations,
      (s.addGlobal (-1)).runScript (CounterReservation.drop ⟨key, key.2.1, true, key.2.1.isSome, false⟩))
  else (.ok (), s)

def reserveTenant (key : UserKey) (maxGlobal : Nat) : Except SessionError Unit × AllocationStore :=
  match key.2.1 with
  | none => s.reserveGlobal key maxGlobal
  | some tenantId =>
    let cap := s.tenantMaxAllocations tenantId
    let s := s.tenantEntry tenantId
    let old := s.tenantCount tenantId
    let s := s.addTenant tenantId 1
    if cap > 0 ∧ (cap : Int) ≤ old then
      (.error .maxAllocations,
        (s.addTenant tenantId (-1)).runScript (CounterReservation.drop ⟨key, some tenantId, true, false, false⟩))
    else s.reserveGlobal key maxGlobal

def reserveCounters (key : UserKey) (maxPerUser : Nat) (allocationsDisabled : Bool) (maxGlobal : Nat) :
    Except SessionError Unit × AllocationStore :=
  if allocationsDisabled then (.error .maxAllocationsPerUser, s)
  else
    let s := s.userEntry key
    let old := s.userCount key
    let s := s.addUser key 1
    if maxPerUser > 0 ∧ (maxPerUser : Int) ≤ old then (.error .maxAllocationsPerUser, s.addUser key (-1))
    else s.reserveTenant key maxGlobal

def reserveFor (key : UserKey) : Except SessionError Unit × AllocationStore :=
  let effective := s.effectiveUserLimits key.1 key.2.1 key.2.2
  s.reserveCounters key effective.maxAllocations (effective.allocationsDisabled || effective.lifetimeDisabled)
    s.runtime.maxAllocations

/-- A fresh allocation has no channels to index. -/
def publish (channels : List UInt16) (alloc : Allocation) : AllocationStore :=
  { s with
    relayToClient := s.relayToClient.insert alloc.relayAddr alloc.clientAddr
    idToClient := s.idToClient.insert alloc.allocationId alloc.clientAddr
    channelToClient := channels.foldl
      (fun m number => m.insert (alloc.relayAddr.port, number) alloc.clientAddr) s.channelToClient
    userAllocations := s.userAllocations.insert alloc.userKey
      ((s.userAllocations.get alloc.userKey).getD [] ++ [alloc.clientAddr])
    allocations := s.allocations.insert alloc.clientAddr alloc }

def createForIdentity (req : CreateRequest) : Except SessionError Unit × AllocationStore :=
  match s.reserveFor req.userKey with
  | (.error e, s) => (.error e, s)
  | (.ok _, s) =>
    let (allocationId, s) := s.mintId
    match s.allocations.get req.clientAddr with
    | some _ => (.error .allocationExists, s.runScript (fullReservation req.userKey).drop)
    | none =>
      (.ok (), (s.publish [] (req.allocation clock allocationId)).emitWrite (req.writeOp clock allocationId))

def restoredId (allocationId : String) : String × AllocationStore :=
  if allocationId.isEmpty then s.mintId else (allocationId, s)

def rehydrate (row : RehydrateRow) : Except SessionError Bool × AllocationStore :=
  if row.expiresAtMs ≤ clock.epochMs then (.ok false, s)
  else
    let port := row.relayAddr.port
    let tenantId := s.tenantIdForPort port
    let key : UserKey := (row.realm, tenantId, row.username)
    match s.reserveFor key with
    | (.error e, s) => (.error e, s)
    | (.ok _, s) =>
      match (s.poolForPort port).reserve port with
      | (.error e, _) => (.error e, s.runScript (fullReservation key).drop)
      | (.ok _, _) =>
        let s := s.updatePool (fun pool => (pool.reserve port).2) (s.poolIdForPort port)
        let (allocationId, s) := s.restoredId row.allocationId
        let alloc := row.allocation clock allocationId tenantId
        match s.allocations.get row.clientAddr with
        | some _ =>
          -- The port guard is dropped before the counter guard.
          (.error .allocationExists, s.runScript (.releasePort port :: (fullReservation key).drop))
        | none => (.ok true, s.publish (order.visit alloc.channelBindings.keys) alloc)

def relink (oldAddr newAddr : SocketAddr) (alloc : Allocation) : AllocationStore :=
  { s with
    relayToClient := s.relayToClient.insert alloc.relayAddr newAddr
    channelToClient := (order.visit alloc.channelBindings.keys).foldl
      (fun m ch => m.insert (alloc.relayAddr.port, ch) newAddr) s.channelToClient
    idToClient := s.idToClient.insert alloc.allocationId newAddr
    userAllocations := s.userAllocations.modify alloc.userKey
      (fun addrs => addrs.map (fun a => if a = oldAddr then newAddr else a))
    allocations := s.allocations.insert newAddr
      { alloc with clientAddr := newAddr, migrationEpoch := alloc.migrationEpoch + 1 } }

def reKey (oldAddr newAddr : SocketAddr) : Except SessionError SocketAddr × AllocationStore :=
  if oldAddr = newAddr then
    match s.allocations.get oldAddr with
    | some alloc => (.ok alloc.relayAddr, s)
    | none => (.error .notFound, s)
  else
    match s.allocations.get oldAddr with
    | none => (.error .notFound, s)
    | some alloc =>
      let s := { s with allocations := s.allocations.remove oldAddr }
      match s.allocations.get newAddr with
      | none =>
        (.ok alloc.relayAddr,
          (s.relink order oldAddr newAddr alloc).emitWrite
            (.reKey alloc.relayAddr.port newAddr (alloc.migrationEpoch + 1)))
      | some _ =>
        -- The target is taken: the allocation goes back, or is torn down if its old slot is taken too.
        let alloc := { alloc with clientAddr := oldAddr }
        match s.allocations.get oldAddr with
        | none => (.error .migrationTargetInUse, { s with allocations := s.allocations.insert oldAddr alloc })
        | some _ => (.error .migrationTargetInUse, s.runScript (migrationLostScript order clock.epochMs oldAddr alloc))

def setTransport (clientAddr : SocketAddr) (transport : TransportProto) : Bool × AllocationStore :=
  match s.allocations.get clientAddr with
  | some alloc => (true, { s with allocations := s.allocations.insert clientAddr { alloc with transport } })
  | none => (false, s)

def addPermission (clientAddr : SocketAddr) (peerIp : IpAddr) : Except SessionError Unit × AllocationStore :=
  match s.allocations.get clientAddr with
  | none => (.error .notFound, s)
  | some alloc =>
    if ¬ alloc.permissions.contains peerIp ∧ maxPermissionsPerAllocation ≤ alloc.permissions.len then
      (.error .limitExceeded, s)
    else
      let alloc := { alloc with permissions := alloc.permissions.insert peerIp (.new clock.now) }
      (.ok (),
        { s with allocations := s.allocations.insert clientAddr alloc }.emitWrite
          (.permission alloc.relayAddr.port peerIp (clock.epochMs + 300000)))

def addChannel (clientAddr : SocketAddr) (channel : UInt16) (peerAddr : SocketAddr) :
    Except SessionError Unit × AllocationStore :=
  match s.allocations.get clientAddr with
  | none => (.error .notFound, s)
  | some alloc =>
    if (alloc.channelBindings.get channel).any (fun b => b.peerAddr ≠ peerAddr) then (.error .channelConflict, s)
    else if (alloc.channelsReverse.get peerAddr).any (· ≠ channel) then (.error .channelConflict, s)
    else if ¬ alloc.channelBindings.contains channel ∧
        maxChannelsPerAllocation ≤ alloc.channelBindings.len then (.error .limitExceeded, s)
    else
      let port := alloc.relayAddr.port
      let s := { s with
        allocations := s.allocations.insert clientAddr (alloc.bindChannel clock.now channel peerAddr)
        channelToClient := s.channelToClient.insert (port, channel) clientAddr }
      (.ok (),
        (s.emitWrite (.permission port peerAddr.ip (clock.epochMs + 300000))).emitWrite
          (.channel port channel peerAddr (clock.epochMs + 600000)))

def remove (clientAddr relayAddr : SocketAddr) : Except SessionError Unit × AllocationStore :=
  match s.allocations.get clientAddr with
  | none => (.ok (), s)
  | some alloc =>
    (.ok (),
      { s with allocations := s.allocations.remove clientAddr }.runScript
        (removeScript order clock.epochMs clock.now clientAddr relayAddr alloc))

def refresh (clientAddr : SocketAddr) (lifetime : UInt32) : Except SessionError Unit × AllocationStore :=
  match s.allocations.get clientAddr with
  | none => (.error .notFound, s)
  | some alloc =>
    if lifetime = 0 then s.remove order clock clientAddr alloc.relayAddr
    else
      let alloc := { alloc with expiresAt := clock.now + secs lifetime.toNat }
      (.ok (),
        { s with allocations := s.allocations.insert clientAddr alloc }.emitWrite
          (.refresh alloc.relayAddr.port (clock.epochMs + lifetime.toNat * 1000)))

def forceRemove (clientAddr : SocketAddr) : AllocationStore :=
  match s.allocations.get clientAddr with
  | none => s
  | some alloc =>
    { s with allocations := s.allocations.remove clientAddr }.runScript
      (forceRemoveScript order clock.epochMs clientAddr alloc)

/-! ## The expiry sweep -/

structure Classified where
  expired : List (SocketAddr × SocketAddr)
  toClean : List SocketAddr

def classify (now : SocketAddr → Nat) (maxOps : Nat) (acc : Classified) (e : SocketAddr × Allocation) :
    Classified :=
  if maxOps ≤ acc.expired.length + acc.toClean.length then acc
  else if e.2.isExpired (now e.1) then { acc with expired := acc.expired ++ [(e.1, e.2.relayAddr)] }
  else if e.2.hasStaleEntries (now e.1) then { acc with toClean := acc.toClean ++ [e.1] }
  else acc

def classified (sweep : SweepClock) (maxOps : Nat) : Classified :=
  (order.visit s.allocations.entries).foldl (classify sweep.classify maxOps) ⟨[], []⟩

def sweepReservations (now : Nat) : AllocationStore :=
  { s with
    ports := (s.ports.sweepExpiredReservations now).2
    tenantPools := s.tenantPools.map fun p => { p with ports := (p.ports.sweepExpiredReservations now).2 } }

def pruneEntries (now : SocketAddr → Nat) (clientAddr : SocketAddr) : AllocationStore :=
  match s.allocations.get clientAddr with
  | none => s
  | some alloc =>
    { s with allocations := s.allocations.insert clientAddr (alloc.cleanupExpiredEntries order (now clientAddr)) }

def removeExpired (sweep : SweepClock) (acc : Nat × AllocationStore) (e : SocketAddr × SocketAddr) :
    Nat × AllocationStore :=
  match acc.2.allocations.get e.1 with
  | none => acc
  | some alloc =>
    if alloc.isExpired (sweep.recheck e.1) then
      (acc.1 + 1, (acc.2.remove order (sweep.remove e.1) e.1 e.2).2)
    else acc

def pruneCounters : AllocationStore :=
  { s with
    userAllocations := s.userAllocations.retain (fun _ v => !v.isEmpty)
    userCounts := s.userCounts.retain (fun _ v => decide (0 < v)) }

def cleanupExpiredBudget (sweep : SweepClock) (maxOps : Nat) : Nat × AllocationStore :=
  let s := s.sweepReservations sweep.reservations
  let found := s.classified order sweep maxOps
  let s := found.toClean.foldl (fun s client => s.pruneEntries order sweep.prune client) s
  let (count, s) := found.expired.foldl (removeExpired order sweep) (0, s)
  (count, s.pruneCounters)

end AllocationStore

/-! ## Runs of the store -/

inductive StoreOp where
  | pool (id : AllocationStore.PoolId) (f : PortAllocator → PortAllocator)
  | limits (runtime : RuntimeLimits) (userLimits : UserLimitsSnapshot)
  | create (clock : Clock) (req : CreateRequest)
  | rehydrate (order : IterOrder) (clock : Clock) (row : RehydrateRow)
  | reKey (order : IterOrder) (clock : Clock) (oldAddr newAddr : SocketAddr)
  | setTransport (clientAddr : SocketAddr) (transport : TransportProto)
  | addPermission (clock : Clock) (clientAddr : SocketAddr) (peerIp : IpAddr)
  | addChannel (clock : Clock) (clientAddr : SocketAddr) (channel : UInt16) (peerAddr : SocketAddr)
  | refresh (order : IterOrder) (clock : Clock) (clientAddr : SocketAddr) (lifetime : UInt32)
  | remove (order : IterOrder) (clock : Clock) (clientAddr relayAddr : SocketAddr)
  | forceRemove (order : IterOrder) (clock : Clock) (clientAddr : SocketAddr)
  | cleanup (order : IterOrder) (sweep : SweepClock) (maxOps : Nat)

namespace StoreOp

def apply (s : AllocationStore) : StoreOp → AllocationStore
  | .pool id f => s.updatePool f id
  | .limits runtime userLimits => { s with runtime, userLimits }
  | .create clock req => (s.createForIdentity clock req).2
  | .rehydrate order clock row => (s.rehydrate order clock row).2
  | .reKey order clock oldAddr newAddr => (s.reKey order clock oldAddr newAddr).2
  | .setTransport clientAddr transport => (s.setTransport clientAddr transport).2
  | .addPermission clock clientAddr peerIp => (s.addPermission clock clientAddr peerIp).2
  | .addChannel clock clientAddr channel peerAddr => (s.addChannel clock clientAddr channel peerAddr).2
  | .refresh order clock clientAddr lifetime => (s.refresh order clock clientAddr lifetime).2
  | .remove order clock clientAddr relayAddr => (s.remove order clock clientAddr relayAddr).2
  | .forceRemove order clock clientAddr => s.forceRemove order clock clientAddr
  | .cleanup order sweep maxOps => (s.cleanupExpiredBudget order sweep maxOps).2

end StoreOp

structure TenantRange where
  id : String
  minPort : UInt16
  maxPort : UInt16
  random : UInt32
  maxAllocations : Nat
  quota : BandwidthQuota

/-- A store as the node builds it: `new`, then one pool for each tenant. -/
def AllocationStore.configured (minPort maxPort : UInt16) (random : UInt32) (maxAllocations : Nat)
    (tenants : List TenantRange) : AllocationStore :=
  tenants.foldl (fun s t => s.withTenantPool t.id t.minPort t.maxPort t.random t.maxAllocations t.quota)
    (.new minPort maxPort random maxAllocations)

def TenantRange.pool (t : TenantRange) : TenantPool :=
  ⟨t.id, .new t.minPort t.maxPort t.random, t.maxAllocations, t.quota⟩

theorem configured_eq (minPort maxPort : UInt16) (random : UInt32) (maxAllocations : Nat)
    (tenants : List TenantRange) :
    configured minPort maxPort random maxAllocations tenants =
      { new minPort maxPort random maxAllocations with tenantPools := tenants.map TenantRange.pool } := by
  induction tenants using List.reverseRecOn with
  | nil => rfl
  | append_singleton tenants tenant ih =>
    rw [configured] at ih ⊢
    rw [List.foldl_append, ih, List.map_append]
    rfl

end Turna.Session
